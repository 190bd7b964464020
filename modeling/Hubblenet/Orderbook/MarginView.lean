import Hubblenet.Precompile.MarginAccount

/-!
# The validator's margin view against the precompiles'

Each block the validator computes every trader's margin fraction and available margin in memory
(`GetNaughtyTraders`, `getNaughtyTraderMargins`): a `HubbleState` read through the config service
(`getHubbleState`) and a `UserState` built from the trader's in-memory record (`traderUserState`: `getMargins`,
`translatePositions`, `getTotalFunding`). The precompiles compute the same quantities from storage
(`Bibliophile.getNotionalPositionAndMargin`, `Bibliophile.getAvailableMargin`).

`Mirrors S trader t` says that the record `t` holds what storage holds. Even so the two views differ, on two
counts. `getMargins` reads collateral `i` only below the number of deposits the record holds, so a deposit of a
higher collateral with a gap below it (collaterals `{0, 2}`) is left out. And the validator counts a market
settled on its own, at its settlement price, where the precompile drops it (`margins_diverge`).
-/

namespace Hubblenet

open Go

/-- One position as `translatePositions` copies it; `new(big.Int).Set` of a nil size or open notional panics. -/
def translatePosition (p : Position) : Option Hu.Position := do
  pure ⟨← p.openNotional, ← p.size⟩

/-- `translatePositions`: every position of the record, copied. -/
def translatePositions (positions : GoMap Market Position) : Except Panic (Market → Option Hu.Position) :=
  if positions.entries.all fun e => (translatePosition e.2).isSome then
    .ok fun market => (positions.lookup market).bind translatePosition
  else .error .nilDereference

/-- `getMargins`: the deposit of collateral `i`, read for `i` below both the number of assets and the number of
deposits the record holds; nil elsewhere. -/
def getMargins (trader : Trader) (numAssets : Nat) : List (Option Int) :=
  let numAssets_ := min numAssets trader.margin.deposited.entries.length
  (List.range numAssets).map fun i => if i < numAssets_ then trader.margin.deposited.lookup (i : Int) else none

/-- `getTotalFunding`: the unrealised funding of the record's positions in `markets`. -/
def getTotalFunding (trader : Trader) (markets : List Market) : Int :=
  (markets.map fun market =>
    match (trader.positions.lookup market).bind (·.unrealisedFunding) with
    | some funding => if funding.sign ≠ 0 then funding else 0
    | none => 0).sum

/-- `GetHubbleState`: the markets `0, …, GetActiveMarketsCount - 1`, the prices read as arrays, version `V2`. -/
def getHubbleState (cs : ConfigService) : Hu.HubbleState where
  assets := cs.getCollaterals
  oraclePrices := Hu.arrayToMap cs.getUnderlyingPrices
  midPrices := Hu.arrayToMap cs.getMidPrices
  settlementPrices := Hu.arrayToMap cs.getSettlementPrices
  activeMarkets := (List.range cs.getActiveMarketsCount.toNat).map Int.ofNat
  minAllowableMargin := cs.getMinAllowableMargin
  maintenanceMargin := cs.getMaintenanceMargin
  takerFee := cs.getTakerFee
  upgradeVersion := .V2

/-- The `UserState` that `GetNaughtyTraders` and `GetMarginAvailableForMakerbook` build from a trader's record. -/
def traderUserState (hState : Hu.HubbleState) (trader : Trader) : Except Panic Hu.UserState := do
  let positions ← translatePositions trader.positions
  pure
    { positions
      margins := getMargins trader hState.assets.length
      pendingFunding := getTotalFunding trader hState.activeMarkets
      reservedMargin := trader.margin.reserved }

/-- The margin fraction and the available margin `GetNaughtyTraders` computes for one trader. -/
def getNaughtyTraderMargins (hState : Hu.HubbleState) (trader : Trader) : Except Panic (Int × Int) := do
  let userState ← traderUserState hState trader
  let marginFraction ← Hu.getMarginFraction hState userState
  let available ← Hu.getAvailableMargin hState userState
  pure (marginFraction, available)

/-- The in-memory record `t` of `trader` mirrors storage: a deposit it holds is the deposit in storage, a
collateral it has not touched holds nothing in storage, its reserved margin is the slot's, and each of its
positions is in a market of the clearing house, with the size, open notional and pending funding of the
position there. -/
structure Mirrors (S : ChainState) (trader : Address) (t : Trader) : Prop where
  deposited : ∀ e ∈ t.margin.deposited.entries, 0 ≤ e.1 ∧ e.2 = S.margin trader e.1.toNat
  untouched : ∀ i < S.collaterals.length, (i : Int) ∉ t.margin.deposited.keys → S.margin trader i = 0
  reserved : t.margin.reserved = S.reservedMargin trader
  positions : ∀ e ∈ t.positions.entries, 0 ≤ e.1 ∧ ∃ amm ∈ S.amms[e.1.toNat]?,
    e.2.size = some (amm.size trader) ∧ e.2.openNotional = some (amm.openNotional trader) ∧
      e.2.unrealisedFunding = some (Bibliophile.pendingFundingOf amm trader)

instance (S : ChainState) (trader : Address) (t : Trader) : Decidable (Mirrors S trader t) :=
  decidable_of_iff
    ((∀ e ∈ t.margin.deposited.entries, 0 ≤ e.1 ∧ e.2 = S.margin trader e.1.toNat) ∧
      (∀ i < S.collaterals.length, (i : Int) ∉ t.margin.deposited.keys → S.margin trader i = 0) ∧
      t.margin.reserved = S.reservedMargin trader ∧
      ∀ e ∈ t.positions.entries, 0 ≤ e.1 ∧ ∃ amm ∈ S.amms[e.1.toNat]?,
        e.2.size = some (amm.size trader) ∧ e.2.openNotional = some (amm.openNotional trader) ∧
          e.2.unrealisedFunding = some (Bibliophile.pendingFundingOf amm trader))
    ⟨fun ⟨h₁, h₂, h₃, h₄⟩ => ⟨h₁, h₂, h₃, h₄⟩, fun ⟨h₁, h₂, h₃, h₄⟩ => ⟨h₁, h₂, h₃, h₄⟩⟩

/-- A collateral priced at one unit, at full weight, with `6` decimals. -/
def unitCollateral : Hu.Collateral := ⟨1000000, 1000000, 6⟩

/-- A market priced at one unit, with the given settlement price, where every trader is long one unit (`1e18`)
opened at one unit and owes no funding. -/
def unitMarket (settlementPrice : Int) : AmmState where
  underlyingPrice := 1000000
  midPrice := 1000000
  settlementPrice := settlementPrice
  cumulativePremiumFraction := 0
  size := fun _ => 10 ^ 18
  openNotional := fun _ => 1000000
  lastPremiumFraction := fun _ => 0

/-- The in-memory record of a position in a `unitMarket`. -/
def unitPosition : Position := ⟨some 1000000, some (10 ^ 18), some 0, some 0, none⟩

/-- Three collaterals; every trader has deposited one unit of collaterals `0` and `2` and none of `1`. -/
def sparseChain : ChainState where
  settledAll := false
  amms := [unitMarket 0]
  collaterals := [unitCollateral, unitCollateral, unitCollateral]
  margin := fun _ i => if i = 1 then 0 else 1000000
  reservedMargin := fun _ => 0
  minAllowableMargin := 200000
  maintenanceMargin := 100000
  takerFee := 0

/-- The record of trader `7` on `sparseChain`. -/
def sparseTrader : Trader where
  positions := AList.singleton 0 unitPosition
  margin := ⟨0, (AList.singleton 0 1000000).insert 2 1000000, 0, 0⟩

/-- Two markets, the second settled at two units; every trader has deposited one unit of the one collateral. -/
def settledChain : ChainState :=
  { sparseChain with
    amms := [unitMarket 0, unitMarket 2000000]
    collaterals := [unitCollateral]
    margin := fun _ _ => 1000000 }

/-- The record of trader `7` on `settledChain`. -/
def settledTrader : Trader where
  positions := (AList.singleton 0 unitPosition).insert 1 unitPosition
  margin := ⟨0, AList.singleton 0 1000000, 0, 0⟩

/-- **The two margin views differ** on records that mirror storage. With deposits in collaterals `0` and `2`, the
validator counts one unit of margin where the precompile counts two: margin fraction `1e6` against `2e6`, available
margin `0.8e6` against `1.8e6`. With a position in a market settled at two units, the validator counts it at that
price and the precompile not at all: margin fraction `666666` against `1e6`, available margin `1.4e6` against
`0.8e6`. -/
theorem margins_diverge :
    (Mirrors sparseChain 7 sparseTrader ∧
      getNaughtyTraderMargins (getHubbleState (ConfigService.ofChain sparseChain {})) sparseTrader =
        .ok (1000000, 800000) ∧
      (Bibliophile.getNotionalPositionAndMargin sparseChain 7 true .maintenance_Margin .V2).map
        (fun (n, m) => mul1e6 m / n) = .ok 2000000 ∧
      Bibliophile.getAvailableMargin sparseChain 7 .V2 = .ok 1800000) ∧
    (Mirrors settledChain 7 settledTrader ∧
      getNaughtyTraderMargins (getHubbleState (ConfigService.ofChain settledChain {})) settledTrader =
        .ok (666666, 1400000) ∧
      (Bibliophile.getNotionalPositionAndMargin settledChain 7 true .maintenance_Margin .V2).map
        (fun (n, m) => mul1e6 m / n) = .ok 1000000 ∧
      Bibliophile.getAvailableMargin settledChain 7 .V2 = .ok 800000) := by
  decide

end Hubblenet
