import Hubblenet.Orderbook.Funding

/-!
# What the precompiles read of the margin account and the clearing house

`bibliophile/clearing_house.go` and `bibliophile/margin_account.go` assemble a `HubbleState` and a `UserState`
from storage and call the `hubbleutils` accounting (`getNotionalPositionAndMargin`, `getAvailableMargin`). The
validator's config service reads the same storage for its own `HubbleState` (`ConfigService.ofChain`).

`ChainState` holds what these reads take from the clearing house, the margin account and each AMM; the oracle's
and the order book's price logic stays behind an AMM's `underlyingPrice` and `midPrice`. Every market of the
clearing house is listed, settled ones included: `getNotionalPositionAndMargin` counts the markets with no
settlement price (`activeMarketIds`) and the funding of all of them (`getTotalFunding`); the config service
counts all markets unless everything is settled (`getActiveMarketsCount`).
-/

namespace Hubblenet

open Go

/-- What the margin reads take from one AMM's storage. -/
structure AmmState where
  underlyingPrice : Int
  midPrice : Int
  settlementPrice : Int
  cumulativePremiumFraction : Int
  size : Address → Int
  openNotional : Address → Int
  lastPremiumFraction : Address → Int

/-- The storage of the clearing house and the margin account, as the bibliophile reads it. -/
structure ChainState where
  settledAll : Bool
  /-- the markets of the clearing house, settled ones included, by market id -/
  amms : List AmmState
  collaterals : List Hu.Collateral
  margin : Address → Nat → Int
  reservedMargin : Address → Int
  minAllowableMargin : Int
  maintenanceMargin : Int
  takerFee : Int

namespace Bibliophile

variable (S : ChainState)

/-- `GetActiveMarketsCount`: none once everything is settled. -/
def getActiveMarketsCount : Int := if S.settledAll then 0 else S.amms.length

/-- `GetMarkets`: the first `GetActiveMarketsCount` markets. -/
def getMarkets : List AmmState := S.amms.take (getActiveMarketsCount S).toNat

/-- `GetUnderlyingPrices`. -/
def getUnderlyingPrices : List Int := (getMarkets S).map (·.underlyingPrice)

/-- `GetMidPrices`. -/
def getMidPrices : List Int := (getMarkets S).map (·.midPrice)

/-- `GetSettlementPrices`, of every market. -/
def getSettlementPrices : List Int := S.amms.map (·.settlementPrice)

/-- `getMargins`: the deposit of every collateral, read from its slot. -/
def getMargins (trader : Address) : List (Option Int) :=
  (List.range S.collaterals.length).map fun i => some (S.margin trader i)

/-- `getPosition`. -/
def getPosition (amm : AmmState) (trader : Address) : Hu.Position :=
  ⟨amm.openNotional trader, amm.size trader⟩

/-- `getPendingFundingPayment` of one AMM. -/
def pendingFundingOf (amm : AmmState) (trader : Address) : Int :=
  getPendingFundingPayment amm.cumulativePremiumFraction (amm.lastPremiumFraction trader) (amm.size trader)

/-- `GetTotalFunding`: the pending funding of every market, settled ones included. -/
def getTotalFunding (trader : Address) : Int := (S.amms.map (pendingFundingOf · trader)).sum

/-- The markets `getNotionalPositionAndMargin` counts: those whose settlement price is zero. -/
def activeMarketIds : List Market :=
  (S.amms.zipIdx.filter fun (amm, _) => amm.settlementPrice.sign = 0).map fun (_, i) => (i : Int)

/-- The positions map of `getNotionalPositionAndMargin`: the position slots of every market. -/
def positionsOf (trader : Address) : Market → Option Hu.Position :=
  fun market => if 0 ≤ market then (S.amms[market.toNat]?).map (getPosition · trader) else none

/-- `getNotionalPositionAndMargin`. The `HubbleState` it builds leaves the margin parameters nil, the
`UserState` the reserved margin: nothing it calls reads them, and they are `0` here. -/
def getNotionalPositionAndMargin (trader : Address) (includeFundingPayments : Bool) (mode : Hu.MarginMode)
    (upgradeVersion : Hu.UpgradeVersion) : Except Panic (Int × Int) :=
  Hu.getNotionalPositionAndMargin
    { assets := S.collaterals
      oraclePrices := Hu.arrayToMap (S.amms.map (·.underlyingPrice))
      midPrices := Hu.arrayToMap (S.amms.map (·.midPrice))
      settlementPrices := Hu.arrayToMap (S.amms.map (·.settlementPrice))
      activeMarkets := activeMarketIds S
      minAllowableMargin := 0
      maintenanceMargin := 0
      takerFee := 0
      upgradeVersion }
    { positions := positionsOf S trader
      margins := getMargins S trader
      pendingFunding := if includeFundingPayments then getTotalFunding S trader else 0
      reservedMargin := 0 }
    mode

/-- `GetAvailableMargin`: in `Min_Allowable_Margin` mode, funding included. -/
def getAvailableMargin (trader : Address) (upgradeVersion : Hu.UpgradeVersion) : Except Panic Int := do
  let (notionalPosition, margin) ← getNotionalPositionAndMargin S trader true .min_Allowable_Margin upgradeVersion
  pure (Hu.getAvailableMargin_ notionalPosition margin (S.reservedMargin trader) S.minAllowableMargin)

end Bibliophile

/-- The config service of a validator whose chain is at `S`: the reads of the margin accounting come from `S`,
the others (of the liquidation parameters, of the order checks) are those of `cs`. `GetTakerFee` applies the 20%
discount. -/
def ConfigService.ofChain (S : ChainState) (cs : ConfigService) : ConfigService :=
  { cs with
    isSettledAll := S.settledAll
    getActiveMarketsCount := Bibliophile.getActiveMarketsCount S
    getMinAllowableMargin := S.minAllowableMargin
    getMaintenanceMargin := S.maintenanceMargin
    getTakerFee := S.takerFee * 8 / 10
    getCollaterals := S.collaterals
    getUnderlyingPrices := Bibliophile.getUnderlyingPrices S
    getMidPrices := Bibliophile.getMidPrices S
    getSettlementPrices := Bibliophile.getSettlementPrices S }

end Hubblenet
