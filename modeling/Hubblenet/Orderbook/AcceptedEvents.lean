import Hubblenet.Orderbook.Liquidation
import Hubblenet.Orderbook.MarginView
import Hubblenet.Orderbook.Invariant

/-!
# The accepted-logs processor and the validator's runs

`ContractEventsProcessor.ProcessAcceptedEvents` applies the logs of accepted blocks that the `MarginAccount` and
`ClearingHouse` contracts emit: deposits and withdrawals (`UpdateMargin`), reserved margin (`UpdateReservedMargin`),
funding (`UpdateUnrealisedFunding`, `ResetUnrealisedFunding`) and positions (`UpdatePosition`). It sorts the batch
by `(BlockNumber, Index)` with `sort.Slice`, which is not stable; the caller recovers a panic, so a batch stops at
the first panic with the writes made before it (`applyAcceptedLogs`).

The validator runs it beside the order book's writes, on another subscription under the same lock: a `Run` is any
interleaving of the order book's writes (`Step`) with batches of accepted logs.

* `Step.sameAccounts`: the order book's writes move no trader's positions, deposits or reserved margin and no
  market's funding state (`SameAccounts`); `SameAccounts.processAcceptedEvents`: a batch reads nothing else.
* `run_accounts_eq_acceptedOnly`: so the accounts of every run are those of its accepted batches alone, whatever
  the interleaving.
* `run_margin_ledger`: every deposit is the sum of the `MarginAdded`, `MarginRemoved` and `PnLRealized` amounts of
  the logs handled, every reserved margin that of `MarginReserved` and `MarginReleased`.
* `run_traderUserState_ok`: every position of every run has its size and open notional, so the margin view of every
  trader translates without a nil dereference.
* `processAcceptedEvents_delivery_order`: on logs of distinct `(BlockNumber, Index)` a batch does not depend on the
  order the logs were delivered in, nor on the order `sort.Slice` leaves.
-/

namespace Hubblenet

open Go Lib

/-- `HUSD`, collateral `0`. -/
def HUSD : Int := 0

namespace InMemoryDatabase

variable (db : InMemoryDatabase)

/-- The record of a trader; a trader the map does not hold reads as the blank one the writes would create. -/
def accountOf (trader : Address) : Trader := (db.traderMap.lookup trader).getD getBlankTrader

/-- A trader's deposit of a collateral; a collateral never deposited reads as zero. -/
def depositOf (trader : Address) (collateral : Int) : Int :=
  ((db.accountOf trader).margin.deposited.lookup collateral).getD 0

/-- A trader's reserved margin. -/
def reservedOf (trader : Address) : Int := (db.accountOf trader).margin.reserved

/-! ## The writes of the accepted logs -/

/-- `UpdateMargin`: a trader seen for the first time starts blank, a collateral seen for the first time at zero. -/
def updateMargin (trader : Address) (collateral : Int) (addAmount : Int) : InMemoryDatabase :=
  let t := (db.traderMap.lookup trader).getD getBlankTrader
  let deposited := (t.margin.deposited.lookup collateral).getD 0
  { db with
    traderMap := db.traderMap.insert trader
      { t with margin := { t.margin with deposited := t.margin.deposited.insert collateral (deposited + addAmount) } } }

/-- `UpdateReservedMargin`: a trader seen for the first time starts blank. -/
def updateReservedMargin (trader : Address) (addAmount : Int) : InMemoryDatabase :=
  let t := (db.traderMap.lookup trader).getD getBlankTrader
  { db with traderMap := db.traderMap.insert trader { t with margin := { t.margin with reserved := t.margin.reserved + addAmount } } }

/-- `ResetUnrealisedFunding`: only a position the trader holds is reset. -/
def resetUnrealisedFunding (market : Market) (trader : Address) (cumulativePremiumFraction : Int) : InMemoryDatabase :=
  match db.traderMap.lookup trader with
  | none => db
  | some t =>
    match t.positions.lookup market with
    | none => db
    | some position =>
      { db with
        traderMap := db.traderMap.insert trader
          { t with
            positions := t.positions.insert market
              { position with
                unrealisedFunding := some 0
                lastPremiumFraction := some cumulativePremiumFraction } } }

/-- `UpdateLastPrice`. -/
def updateLastPrice (market : Market) (lastPrice : Int) : InMemoryDatabase :=
  { db with lastPrice := db.lastPrice.insert market lastPrice }

/-- `UpdateNextFundingTime`. -/
def updateNextFundingTime (nextFundingTime : Nat) : InMemoryDatabase := { db with nextFundingTime }

/-- `UpdateNextSamplePITime`. -/
def updateNextSamplePITime (nextSamplePITime : Nat) : InMemoryDatabase := { db with nextSamplePITime }

end InMemoryDatabase

/-! ## Logs and handlers -/

/-- The `MarginAccount` logs, with what `handleMarginAccountEvent` reads of them: the trader topic, the collateral
topic as an `Int64`, and the amount. -/
inductive MarginAccountLog where
  | marginAdded (trader : Address) (collateral : Int) (amount : Int)
  | marginRemoved (trader : Address) (collateral : Int) (amount : Int)
  | marginReserved (trader : Address) (amount : Int)
  | marginReleased (trader : Address) (amount : Int)
  | pnLRealized (trader : Address) (realizedPnl : Int)
  | other
  deriving DecidableEq, Repr

/-- The `ClearingHouse` logs, with what `handleClearingHouseEvent` reads of them: the trader topic, the market
topic as an `Int64`, and the arguments. `PISampledUpdated` and `PISampleSkipped` are only logged: `other`. -/
inductive ClearingHouseLog where
  | fundingRateUpdated (market : Market) (cumulativePremiumFraction nextFundingTime : Int)
  | fundingPaid (trader : Address) (market : Market) (cumulativePremiumFraction : Int)
  | positionModified (trader : Address) (market : Market) (price openNotional size : Int)
  | positionLiquidated (trader : Address) (market : Market) (price openNotional size : Int)
  | notifyNextPISample (nextSampleTime : Int)
  | other
  deriving DecidableEq, Repr

/-- An accepted log by the address that emitted it. -/
inductive AcceptedContractLog where
  | marginAccount (e : MarginAccountLog)
  | clearingHouse (e : ClearingHouseLog)
  | other
  deriving DecidableEq, Repr

/-- `types.Log`, the fields `ProcessAcceptedEvents` reads. -/
structure AcceptedLog where
  event : AcceptedContractLog
  blockNumber : Nat
  index : Nat
  deriving DecidableEq, Repr

namespace ContractEventsProcessor

variable (cs : ConfigService) (db : InMemoryDatabase)

/-- `handleMarginAccountEvent`. -/
def handleMarginAccountEvent : MarginAccountLog → InMemoryDatabase
  | .marginAdded trader collateral amount => db.updateMargin trader collateral amount
  | .marginRemoved trader collateral amount => db.updateMargin trader collateral (-amount)
  | .marginReserved trader amount => db.updateReservedMargin trader amount
  | .marginReleased trader amount => db.updateReservedMargin trader (-amount)
  | .pnLRealized trader realizedPnl => db.updateMargin trader HUSD realizedPnl
  | .other => db

/-- `handleClearingHouseEvent`: a position's log writes the market's last price before the position. -/
def handleClearingHouseEvent : ClearingHouseLog → Outcome InMemoryDatabase
  | .fundingRateUpdated market cumulativePremiumFraction nextFundingTime =>
    ⟨(db.updateUnrealisedFunding market cumulativePremiumFraction).updateNextFundingTime (toUint64 nextFundingTime),
      none⟩
  | .fundingPaid trader market cumulativePremiumFraction =>
    ⟨db.resetUnrealisedFunding market trader cumulativePremiumFraction, none⟩
  | .positionModified trader market price openNotional size =>
    (db.updateLastPrice market price).updatePosition cs trader market size openNotional false
  | .positionLiquidated trader market price openNotional size =>
    (db.updateLastPrice market price).updatePosition cs trader market size openNotional true
  | .notifyNextPISample nextSampleTime => ⟨db.updateNextSamplePITime (toUint64 nextSampleTime), none⟩
  | .other => ⟨db, none⟩

/-- The `switch event.Address` of `ProcessAcceptedEvents`. -/
def handleAcceptedEvent (event : AcceptedLog) : Outcome InMemoryDatabase :=
  match event.event with
  | .marginAccount e => ⟨handleMarginAccountEvent db e, none⟩
  | .clearingHouse e => handleClearingHouseEvent cs db e
  | .other => ⟨db, none⟩

/-- The loop of `ProcessAcceptedEvents`; a panic ends the batch. -/
def applyAcceptedLogs : List AcceptedLog → InMemoryDatabase → Outcome InMemoryDatabase
  | [], d => ⟨d, none⟩
  | event :: events, d =>
    match handleAcceptedEvent cs d event with
    | ⟨d', some e⟩ => ⟨d', some e⟩
    | ⟨d', none⟩ => applyAcceptedLogs events d'

/-- The less function of `ProcessAcceptedEvents`' sort: by block, then by index within the block. -/
def acceptedLogLess (a b : AcceptedLog) : Bool :=
  if a.blockNumber = b.blockNumber then decide (a.index < b.index) else decide (a.blockNumber < b.blockNumber)

/-- `ProcessAcceptedEvents`; `sort.Slice` leaves the batch in the order `sortSlice` gives (`inBootstrap` only
decides whether metrics are counted). -/
def processAcceptedEvents (sortSlice : (AcceptedLog → AcceptedLog → Bool) → List AcceptedLog → List AcceptedLog)
    (logs : List AcceptedLog) : Outcome InMemoryDatabase :=
  applyAcceptedLogs cs (sortSlice acceptedLogLess logs) db

end ContractEventsProcessor

/-! ## The accounts a state holds -/

/-- A position whose size, open notional, fraction and funding are all set. -/
def Position.Complete (p : Position) : Prop :=
  p.size.isSome ∧ p.openNotional.isSome ∧ p.lastPremiumFraction.isSome ∧ p.unrealisedFunding.isSome

/-- What the accepted logs write of a trader's record: its positions, deposits and reserved margin. -/
def Trader.accountView (t : Trader) : GoMap Market Position × GoMap Int Int × Int :=
  (t.positions, t.margin.deposited, t.margin.reserved)

/-- What `UpdateUnrealisedFunding` does to a trader's record: the funding of its position in the market, if any, is
recomputed at the market's new fraction. -/
def Trader.refreshFunding (market : Market) (c : Int) (t : Trader) : Trader :=
  match t.positions.lookup market with
  | none => t
  | some position =>
    { t with
      positions := t.positions.insert market
        { position with
          unrealisedFunding := some (calcPendingFunding (some c) position.lastPremiumFraction position.size) } }

/-- What `ResetUnrealisedFunding` does to a trader's record: its position in the market, if any, owes nothing from
the fraction `c` on. -/
def Trader.resetFunding (market : Market) (c : Int) (t : Trader) : Trader :=
  match t.positions.lookup market with
  | none => t
  | some position =>
    { t with
      positions := t.positions.insert market
        { position with
          unrealisedFunding := some 0
          lastPremiumFraction := some c } }

namespace InMemoryDatabase

/-- What the accepted logs write of the markets: fractions, last prices, next funding and sample times. -/
def marketsView (db : InMemoryDatabase) : GoMap Market Int × GoMap Market Int × Nat × Nat :=
  (db.cumulativePremiumFraction, db.lastPrice, db.nextFundingTime, db.nextSamplePITime)

/-- `d'` holds the accounts `d` holds: every trader's positions, deposits and reserved margin (a trader the map does
not hold read as blank), and the markets' funding state. -/
structure SameAccounts (d d' : InMemoryDatabase) : Prop where
  accounts : ∀ trader, (d'.accountOf trader).accountView = (d.accountOf trader).accountView
  markets : d'.marketsView = d.marketsView

namespace SameAccounts

variable {d d₁ d₂ d₃ : InMemoryDatabase}

theorem refl (d : InMemoryDatabase) : SameAccounts d d := ⟨fun _ => rfl, rfl⟩

theorem trans (h₁₂ : SameAccounts d₁ d₂) (h₂₃ : SameAccounts d₂ d₃) : SameAccounts d₁ d₃ :=
  ⟨fun trader => (h₂₃.accounts trader).trans (h₁₂.accounts trader), h₂₃.markets.trans h₁₂.markets⟩

/-- A write that leaves the trader map and the markets alone. -/
theorem of_eq (htm : d₂.traderMap = d₁.traderMap) (hm : d₂.marketsView = d₁.marketsView) : SameAccounts d₁ d₂ :=
  ⟨fun trader => by rw [accountOf, accountOf, htm], hm⟩

theorem positions (h : SameAccounts d₁ d₂) (trader : Address) :
    (d₂.accountOf trader).positions = (d₁.accountOf trader).positions :=
  congrArg Prod.fst (h.accounts trader)

theorem deposited (h : SameAccounts d₁ d₂) (trader : Address) :
    (d₂.accountOf trader).margin.deposited = (d₁.accountOf trader).margin.deposited :=
  congrArg (·.2.1) (h.accounts trader)

theorem reserved (h : SameAccounts d₁ d₂) (trader : Address) :
    (d₂.accountOf trader).margin.reserved = (d₁.accountOf trader).margin.reserved :=
  congrArg (·.2.2) (h.accounts trader)

end SameAccounts

variable {db : InMemoryDatabase}

/-- Writing one trader's record. -/
theorem accountOf_of_traderMap_insert {d' : InMemoryDatabase} {trader : Address} {t : Trader}
    (h : d'.traderMap = db.traderMap.insert trader t) (tr : Address) :
    d'.accountOf tr = if tr = trader then t else db.accountOf tr := by
  unfold accountOf
  rw [h]
  split_ifs with htr
  · subst htr
    simp
  · rw [AList.lookup_insert_ne htr]

/-! ## The order book's writes keep the accounts -/

theorem sameAccounts_updateVirtualReservedMargin (trader : Address) (a : Int) :
    SameAccounts db (db.updateVirtualReservedMargin trader a) := by
  refine ⟨fun tr => ?_, rfl⟩
  rw [accountOf_of_traderMap_insert rfl]
  split_ifs with htr
  · subst htr
    rfl
  · rfl

theorem sameAccounts_setRecord (p : Ptr) (o : Order) : SameAccounts db (db.setRecord p o) := .of_eq rfl rfl

theorem sameAccounts_addOrderWithoutLock (order : Order) : SameAccounts db (db.addOrderWithoutLock order) :=
  .of_eq (by simp [addOrderWithoutLock]) (by simp [addOrderWithoutLock, marketsView])

theorem sameAccounts_add (order : Order) : SameAccounts db (db.add order) := by
  unfold add
  split_ifs
  · exact .refl db
  · exact sameAccounts_addOrderWithoutLock order

theorem sameAccounts_addSignedOrder (order : Order) (requiredMargin : Int) :
    SameAccounts db (db.addSignedOrder order requiredMargin) := by
  unfold addSignedOrder
  split_ifs
  · exact .refl db
  · exact (sameAccounts_addOrderWithoutLock order).trans (sameAccounts_updateVirtualReservedMargin _ _)

theorem sameAccounts_deleteOrderWithoutLock (cs : ConfigService) (orderId : Hash) :
    SameAccounts db (db.deleteOrderWithoutLock cs orderId) := by
  unfold deleteOrderWithoutLock
  split
  · exact .refl db
  · dsimp only
    -- the side and the map are the order book's; only a signed order gives back virtual margin
    have hunlink : ∀ d₁ : InMemoryDatabase, d₁.traderMap = db.traderMap → d₁.marketsView = db.marketsView →
        SameAccounts db { d₁ with orders := d₁.orders.erase orderId } :=
      fun d₁ htm hm => .of_eq htm hm
    split_ifs
    · refine SameAccounts.trans (hunlink _ ?_ ?_) (sameAccounts_updateVirtualReservedMargin _ _) <;>
        split <;> simp [marketsView]
    · refine hunlink _ ?_ ?_ <;> split <;> simp [marketsView]

theorem sameAccounts_fillMargin (cs : ConfigService) (o : Order) (quantity : Int) :
    SameAccounts db (db.fillMargin cs o quantity) := by
  unfold fillMargin
  split_ifs
  · exact sameAccounts_updateVirtualReservedMargin _ _
  · exact .refl db

theorem sameAccounts_updateFilledBaseAssetQuantity (cs : ConfigService) (quantity : Int) (orderId : Hash)
    (blockNumber : Nat) : SameAccounts db (db.updateFilledBaseAssetQuantity cs quantity orderId blockNumber).state := by
  unfold updateFilledBaseAssetQuantity
  split
  · exact .refl db
  · dsimp only
    split_ifs
    · split
      · exact sameAccounts_setRecord _ _
      · exact (sameAccounts_setRecord _ _).trans (sameAccounts_fillMargin cs _ quantity)
    · exact (sameAccounts_setRecord _ _).trans (sameAccounts_fillMargin cs _ quantity)

theorem sameAccounts_setOrderStatus {orderId : Hash} {status : Status} {info : String} {blockNumber : Nat}
    {db' : InMemoryDatabase} (h : db.setOrderStatus orderId status info blockNumber = .ok db') : SameAccounts db db' := by
  unfold setOrderStatus at h
  split at h
  · cases h
  · cases h
    exact sameAccounts_setRecord _ _

theorem sameAccounts_revertLastStatus {orderId : Hash} {db' : InMemoryDatabase}
    (h : db.revertLastStatus orderId = .ok db') : SameAccounts db db' := by
  unfold revertLastStatus at h
  split at h
  · cases h
  · dsimp only at h
    split_ifs at h
    · cases h
      exact sameAccounts_setRecord _ _
    · cases h
      exact .refl db

theorem sameAccounts_acceptOrders (cs : ConfigService) (acceptedBlockNumber blockTimestamp : Nat) :
    ∀ (os : List Order) (d : InMemoryDatabase),
      SameAccounts d (acceptOrders cs acceptedBlockNumber blockTimestamp os d).state
  | [], d => .refl d
  | o :: os, d => by
    rw [acceptOrders]
    split
    · exact .refl d
    · exact sameAccounts_deleteOrderWithoutLock cs o.id |>.trans
        (sameAccounts_acceptOrders cs acceptedBlockNumber blockTimestamp os _)
    · exact sameAccounts_acceptOrders cs acceptedBlockNumber blockTimestamp os d

theorem sameAccounts_acceptMarkets (cs : ConfigService) (acceptedBlockNumber blockTimestamp : Nat) :
    ∀ (ms : List Market) (d : InMemoryDatabase),
      SameAccounts d (acceptMarkets cs acceptedBlockNumber blockTimestamp ms d).state
  | [], d => .refl d
  | m :: ms, d => by
    have hl := sameAccounts_acceptOrders cs acceptedBlockNumber blockTimestamp ((d.sideOrders .long m).map d.deref) d
    rw [acceptMarkets]
    split
    · rename_i heq
      rw [heq] at hl
      exact hl
    · rename_i d₁ heq
      rw [heq] at hl
      have hs := sameAccounts_acceptOrders cs acceptedBlockNumber blockTimestamp ((d.sideOrders .short m).map d.deref) d₁
      split
      · rename_i heq'
        rw [heq'] at hs
        exact hl.trans hs
      · rename_i d₂ heq'
        rw [heq'] at hs
        exact hl.trans (hs.trans (sameAccounts_acceptMarkets cs acceptedBlockNumber blockTimestamp ms d₂))

theorem sameAccounts_removeExpired (cs : ConfigService) (now : Int) :
    ∀ (es : List (Σ _ : Hash, Ptr)) (d : InMemoryDatabase), SameAccounts d (removeExpired cs now es d).state
  | [], d => .refl d
  | e :: es, d => by
    rw [removeExpired]
    split_ifs
    · split
      · exact .refl d
      · split_ifs
        · exact (sameAccounts_deleteOrderWithoutLock cs _).trans (sameAccounts_removeExpired cs now es _)
        · exact sameAccounts_removeExpired cs now es d
    · exact sameAccounts_removeExpired cs now es d

/-- **The order book's writes keep the accounts**: each moves at most the virtual reserved margin of a trader. -/
theorem Step.sameAccounts {d d' : InMemoryDatabase} (hs : Step d d') : SameAccounts d d' := by
  cases hs with
  | add order _ => exact sameAccounts_add order
  | addSignedOrder order requiredMargin _ => exact sameAccounts_addSignedOrder order requiredMargin
  | delete cs orderId => exact sameAccounts_deleteOrderWithoutLock cs orderId
  | accept cs a t => exact sameAccounts_acceptMarkets cs a t _ d
  | removeExpiredSignedOrders cs now visit => exact sameAccounts_removeExpired cs now visit d
  | updateFilledBaseAssetQuantity cs q orderId b => exact sameAccounts_updateFilledBaseAssetQuantity cs q orderId b
  | setOrderStatus _ _ _ _ _ h => exact sameAccounts_setOrderStatus h
  | revertLastStatus _ _ h => exact sameAccounts_revertLastStatus h

/-! ## The writes of the accepted logs read only the accounts -/

/-- The body of `UpdatePosition` once the record and the fraction are found: the position written, from the one
stored (`none` for a new one) and the market's fraction, and the panic of clipping a missing threshold. -/
def updatedPosition (cs : ConfigService) (market : Market) (size openNotional : Int) (isLiquidation : Bool)
    (stored : Option Position) (cumulativePremiumFraction : Int) : Position × Option Panic :=
  let position : Position := stored.getD ⟨none, none, none, none, none⟩
  let position :=
    if position.size.getD 0 = 0 then
      { position with
        lastPremiumFraction := some cumulativePremiumFraction
        unrealisedFunding := some 0 }
    else position
  let position := { position with size := some size, openNotional := some openNotional }
  let position :=
    if !isLiquidation then
      { position with
        liquidationThreshold := some (getLiquidationThreshold (cs.getMaxLiquidationRatio market)
          (cs.getMinSizeRequirement market) size) }
    else position
  match position.liquidationThreshold with
  | none => (position, some .nilDereference)
  | some liquidationThreshold =>
    ({ position with liquidationThreshold := some (Utils.bigIntMinAbs liquidationThreshold size * size.sign) }, none)

/-- `UpdatePosition` writes the trader's record with `updatedPosition` of the stored position, and the market's
fraction, `0` if it had none. -/
theorem updatePosition_eq (cs : ConfigService) (trader : Address) (market : Market) (size openNotional : Int)
    (isLiquidation : Bool) :
    db.updatePosition cs trader market size openNotional isLiquidation =
      let cumulativePremiumFraction :=
        if (db.cumulativePremiumFraction.lookup market).isSome then db.cumulativePremiumFraction
        else db.cumulativePremiumFraction.insert market 0
      let r := updatedPosition cs market size openNotional isLiquidation
        ((db.accountOf trader).positions.lookup market) ((cumulativePremiumFraction.lookup market).getD 0)
      ⟨{ db with
          cumulativePremiumFraction
          traderMap := db.traderMap.insert trader
            { db.accountOf trader with positions := (db.accountOf trader).positions.insert market r.1 } }, r.2⟩ := by
  unfold updatePosition updatedPosition accountOf
  dsimp only
  -- the trader's record, read once, is the one both sides insert
  split <;> simp_all only

/-- Two states with the same accounts stay so under writes that change every trader's record by `F`, where `F`
reads and writes only what `SameAccounts` compares. -/
theorem SameAccounts.of_accountOf {d₁ d₂ d₁' d₂' : InMemoryDatabase} (h : SameAccounts d₁ d₂)
    (F : Address → Trader → Trader)
    (hF : ∀ tr t₁ t₂, t₂.accountView = t₁.accountView → (F tr t₂).accountView = (F tr t₁).accountView)
    (h₁ : ∀ tr, d₁'.accountOf tr = F tr (d₁.accountOf tr)) (h₂ : ∀ tr, d₂'.accountOf tr = F tr (d₂.accountOf tr))
    (hm : d₂'.marketsView = d₁'.marketsView) : SameAccounts d₁' d₂' :=
  ⟨fun tr => by rw [h₁, h₂]; exact hF tr _ _ (h.accounts tr), hm⟩

theorem accountOf_updateUnrealisedFunding (market : Market) (c : Int) (tr : Address) :
    (db.updateUnrealisedFunding market c).accountOf tr = (db.accountOf tr).refreshFunding market c := by
  unfold updateUnrealisedFunding accountOf Trader.refreshFunding
  simp only [lookup_mapVals]
  cases db.traderMap.lookup tr with
  | none => simp [getBlankTrader]
  | some t => cases t.positions.lookup market <;> rfl

theorem accountOf_resetUnrealisedFunding (market : Market) (trader : Address) (c : Int) (tr : Address) :
    (db.resetUnrealisedFunding market trader c).accountOf tr =
      if tr = trader then (db.accountOf trader).resetFunding market c else db.accountOf tr := by
  unfold resetUnrealisedFunding Trader.resetFunding
  cases ht : db.traderMap.lookup trader with
  | none =>
    -- a trader the map does not hold reads as blank, which holds no position
    have hblank : db.accountOf trader = getBlankTrader := by simp [accountOf, ht]
    split_ifs with htr
    · subst htr
      simp [hblank, getBlankTrader]
    · rfl
  | some t =>
    have hacc : db.accountOf trader = t := by simp [accountOf, ht]
    dsimp only
    rw [hacc]
    cases hp : t.positions.lookup market with
    | none =>
      split_ifs with htr
      · subst htr
        exact hacc
      · rfl
    | some position => exact accountOf_of_traderMap_insert rfl tr

theorem marketsView_resetUnrealisedFunding (market : Market) (trader : Address) (c : Int) :
    (db.resetUnrealisedFunding market trader c).marketsView = db.marketsView := by
  unfold resetUnrealisedFunding
  split
  · rfl
  · split <;> rfl

section Congruence

variable {d₁ d₂ : InMemoryDatabase} (h : SameAccounts d₁ d₂)
include h

/-- Two states with the same accounts stay so under a write of one trader's record by `f`, where `f` reads and
writes only what `SameAccounts` compares. -/
theorem SameAccounts.of_insert {d₁' d₂' : InMemoryDatabase} (trader : Address) (f : Trader → Trader)
    (hf : ∀ t₁ t₂ : Trader, t₂.accountView = t₁.accountView → (f t₂).accountView = (f t₁).accountView)
    (h₁ : d₁'.traderMap = d₁.traderMap.insert trader (f (d₁.accountOf trader)))
    (h₂ : d₂'.traderMap = d₂.traderMap.insert trader (f (d₂.accountOf trader)))
    (hm : d₂'.marketsView = d₁'.marketsView) : SameAccounts d₁' d₂' := by
  refine ⟨fun tr => ?_, hm⟩
  rw [accountOf_of_traderMap_insert h₁, accountOf_of_traderMap_insert h₂]
  split_ifs with htr
  · subst htr
    exact hf _ _ (h.accounts _)
  · exact h.accounts tr

theorem SameAccounts.updateMargin (trader : Address) (collateral amount : Int) :
    SameAccounts (d₁.updateMargin trader collateral amount) (d₂.updateMargin trader collateral amount) := by
  let deposit (t : Trader) : GoMap Int Int :=
    t.margin.deposited.insert collateral ((t.margin.deposited.lookup collateral).getD 0 + amount)
  refine h.of_insert trader (fun t => { t with margin := { t.margin with deposited := deposit t } })
    (fun t₁ t₂ ht => ?_) rfl rfl h.markets
  simp only [Trader.accountView, Prod.mk.injEq, deposit] at ht ⊢
  rw [ht.1, ht.2.1, ht.2.2]
  exact ⟨rfl, rfl, rfl⟩

theorem SameAccounts.updateReservedMargin (trader : Address) (amount : Int) :
    SameAccounts (d₁.updateReservedMargin trader amount) (d₂.updateReservedMargin trader amount) := by
  refine h.of_insert trader (fun t => { t with margin := { t.margin with reserved := t.margin.reserved + amount } })
    (fun t₁ t₂ ht => ?_) rfl rfl h.markets
  simp only [Trader.accountView, Prod.mk.injEq] at ht ⊢
  rw [ht.1, ht.2.1, ht.2.2]
  exact ⟨rfl, rfl, rfl⟩

theorem SameAccounts.updateLastPrice (market : Market) (price : Int) :
    SameAccounts (d₁.updateLastPrice market price) (d₂.updateLastPrice market price) := by
  have hm := h.markets
  simp only [marketsView, Prod.mk.injEq] at hm
  exact ⟨h.accounts, by simp [marketsView, InMemoryDatabase.updateLastPrice, hm]⟩

theorem SameAccounts.updateNextFundingTime (nextFundingTime : Nat) :
    SameAccounts (d₁.updateNextFundingTime nextFundingTime) (d₂.updateNextFundingTime nextFundingTime) := by
  have hm := h.markets
  simp only [marketsView, Prod.mk.injEq] at hm
  exact ⟨h.accounts, by simp [marketsView, InMemoryDatabase.updateNextFundingTime, hm]⟩

theorem SameAccounts.updateNextSamplePITime (nextSamplePITime : Nat) :
    SameAccounts (d₁.updateNextSamplePITime nextSamplePITime) (d₂.updateNextSamplePITime nextSamplePITime) := by
  have hm := h.markets
  simp only [marketsView, Prod.mk.injEq] at hm
  exact ⟨h.accounts, by simp [marketsView, InMemoryDatabase.updateNextSamplePITime, hm]⟩

theorem SameAccounts.updateUnrealisedFunding (market : Market) (c : Int) :
    SameAccounts (d₁.updateUnrealisedFunding market c) (d₂.updateUnrealisedFunding market c) := by
  have hm := h.markets
  simp only [marketsView, Prod.mk.injEq] at hm
  refine h.of_accountOf (fun _ t => t.refreshFunding market c) (fun _ t₁ t₂ ht => ?_)
    (accountOf_updateUnrealisedFunding market c) (accountOf_updateUnrealisedFunding market c)
    (by simp [marketsView, InMemoryDatabase.updateUnrealisedFunding, hm])
  simp only [Trader.accountView, Prod.mk.injEq] at ht
  unfold Trader.refreshFunding
  rw [ht.1]
  split <;> simp [Trader.accountView, ht]

theorem SameAccounts.resetUnrealisedFunding (market : Market) (trader : Address) (c : Int) :
    SameAccounts (d₁.resetUnrealisedFunding market trader c) (d₂.resetUnrealisedFunding market trader c) := by
  refine ⟨fun tr => ?_, by rw [marketsView_resetUnrealisedFunding, marketsView_resetUnrealisedFunding, h.markets]⟩
  rw [accountOf_resetUnrealisedFunding, accountOf_resetUnrealisedFunding]
  split_ifs with htr
  · have ht := h.accounts trader
    simp only [Trader.accountView, Prod.mk.injEq] at ht
    unfold Trader.resetFunding
    rw [ht.1]
    split <;> simp [Trader.accountView, ht]
  · exact h.accounts tr

/-- `UpdatePosition` reads of the state only the trader's position in the market and the market's fraction. -/
theorem SameAccounts.updatePosition (cs : ConfigService) (trader : Address) (market : Market) (size openNotional : Int)
    (isLiquidation : Bool) :
    SameAccounts (d₁.updatePosition cs trader market size openNotional isLiquidation).state
        (d₂.updatePosition cs trader market size openNotional isLiquidation).state ∧
      (d₁.updatePosition cs trader market size openNotional isLiquidation).panic =
        (d₂.updatePosition cs trader market size openNotional isLiquidation).panic := by
  have hm := h.markets
  simp only [marketsView, Prod.mk.injEq] at hm
  rw [updatePosition_eq, updatePosition_eq]
  dsimp only
  rw [hm.1]
  -- the record write, at the fraction both states hold
  let f (t : Trader) : Trader :=
    { t with
      positions := t.positions.insert market (updatedPosition cs market size openNotional isLiquidation
        (t.positions.lookup market) (((if (d₁.cumulativePremiumFraction.lookup market).isSome then
          d₁.cumulativePremiumFraction else d₁.cumulativePremiumFraction.insert market 0).lookup market).getD 0)).1 }
  refine ⟨h.of_insert trader f (fun t₁ t₂ ht => ?_) rfl rfl (by simp [marketsView, hm]), by rw [h.positions trader]⟩
  simp only [Trader.accountView, Prod.mk.injEq, f] at ht ⊢
  exact ⟨by rw [ht.1], ht.2⟩

end Congruence

/-! ## A batch reads only the accounts -/

section Batch

variable {cs : ConfigService} {d₁ d₂ : InMemoryDatabase}

/-- On two states with the same accounts a log writes the same accounts and panics alike. -/
theorem SameAccounts.handleAcceptedEvent (h : SameAccounts d₁ d₂) (cs : ConfigService) (event : AcceptedLog) :
    SameAccounts (ContractEventsProcessor.handleAcceptedEvent cs d₁ event).state
        (ContractEventsProcessor.handleAcceptedEvent cs d₂ event).state ∧
      (ContractEventsProcessor.handleAcceptedEvent cs d₁ event).panic =
        (ContractEventsProcessor.handleAcceptedEvent cs d₂ event).panic := by
  obtain ⟨ev, _, _⟩ := event
  cases ev with
  | marginAccount e =>
    refine ⟨?_, rfl⟩
    cases e with
    | marginAdded trader collateral amount => exact h.updateMargin trader collateral amount
    | marginRemoved trader collateral amount => exact h.updateMargin trader collateral (-amount)
    | marginReserved trader amount => exact h.updateReservedMargin trader amount
    | marginReleased trader amount => exact h.updateReservedMargin trader (-amount)
    | pnLRealized trader realizedPnl => exact h.updateMargin trader HUSD realizedPnl
    | other => exact h
  | clearingHouse e =>
    cases e with
    | fundingRateUpdated market c nextFundingTime =>
      exact ⟨(h.updateUnrealisedFunding market c).updateNextFundingTime _, rfl⟩
    | fundingPaid trader market c => exact ⟨h.resetUnrealisedFunding market trader c, rfl⟩
    | positionModified trader market price openNotional size =>
      exact (h.updateLastPrice market price).updatePosition cs trader market size openNotional false
    | positionLiquidated trader market price openNotional size =>
      exact (h.updateLastPrice market price).updatePosition cs trader market size openNotional true
    | notifyNextPISample nextSampleTime => exact ⟨h.updateNextSamplePITime _, rfl⟩
    | other => exact ⟨h, rfl⟩
  | other => exact ⟨h, rfl⟩

/-- On two states with the same accounts a batch writes the same accounts and stops alike. -/
theorem SameAccounts.applyAcceptedLogs (cs : ConfigService) :
    ∀ (events : List AcceptedLog) {d₁ d₂ : InMemoryDatabase}, SameAccounts d₁ d₂ →
      SameAccounts (ContractEventsProcessor.applyAcceptedLogs cs events d₁).state
          (ContractEventsProcessor.applyAcceptedLogs cs events d₂).state ∧
        (ContractEventsProcessor.applyAcceptedLogs cs events d₁).panic =
          (ContractEventsProcessor.applyAcceptedLogs cs events d₂).panic
  | [], _, _, h => ⟨h, rfl⟩
  | event :: events, d₁, d₂, h => by
    obtain ⟨hs, hp⟩ := h.handleAcceptedEvent cs event
    simp only [ContractEventsProcessor.applyAcceptedLogs]
    -- both handlers panic alike, so both batches stop, or both go on from states with the same accounts
    rcases h₁ : ContractEventsProcessor.handleAcceptedEvent cs d₁ event with ⟨s₁, _ | e₁⟩ <;>
      rcases h₂ : ContractEventsProcessor.handleAcceptedEvent cs d₂ event with ⟨s₂, _ | e₂⟩ <;>
      rw [h₁, h₂] at hs hp <;> simp only at hs hp ⊢
    · exact SameAccounts.applyAcceptedLogs cs events hs
    · exact absurd hp (by simp)
    · exact absurd hp (by simp)
    · exact ⟨hs, hp⟩

theorem SameAccounts.processAcceptedEvents (h : SameAccounts d₁ d₂)
    (sortSlice : (AcceptedLog → AcceptedLog → Bool) → List AcceptedLog → List AcceptedLog) (logs : List AcceptedLog) :
    SameAccounts (ContractEventsProcessor.processAcceptedEvents cs d₁ sortSlice logs).state
        (ContractEventsProcessor.processAcceptedEvents cs d₂ sortSlice logs).state ∧
      (ContractEventsProcessor.processAcceptedEvents cs d₁ sortSlice logs).panic =
        (ContractEventsProcessor.processAcceptedEvents cs d₂ sortSlice logs).panic :=
  SameAccounts.applyAcceptedLogs cs _ h

end Batch

/-! ## What each log writes -/

section Writes

variable {cs : ConfigService} {d : InMemoryDatabase}

/-- What a log adds to a trader's deposit of a collateral: `MarginAdded` its amount, `MarginRemoved` minus it,
`PnLRealized` the pnl, to `HUSD`. -/
def depositDelta (trader : Address) (collateral : Int) (event : AcceptedLog) : Int :=
  match event.event with
  | .marginAccount (.marginAdded t c amount) => if t = trader ∧ c = collateral then amount else 0
  | .marginAccount (.marginRemoved t c amount) => if t = trader ∧ c = collateral then -amount else 0
  | .marginAccount (.pnLRealized t realizedPnl) => if t = trader ∧ HUSD = collateral then realizedPnl else 0
  | _ => 0

/-- What a log adds to a trader's reserved margin: `MarginReserved` its amount, `MarginReleased` minus it. -/
def reservedDelta (trader : Address) (event : AcceptedLog) : Int :=
  match event.event with
  | .marginAccount (.marginReserved t amount) => if t = trader then amount else 0
  | .marginAccount (.marginReleased t amount) => if t = trader then -amount else 0
  | _ => 0

theorem depositOf_updateMargin (trader : Address) (collateral amount : Int) (tr : Address) (c : Int) :
    (d.updateMargin trader collateral amount).depositOf tr c =
      d.depositOf tr c + if trader = tr ∧ collateral = c then amount else 0 := by
  unfold depositOf
  rw [accountOf_of_traderMap_insert rfl]
  by_cases htr : tr = trader
  · subst htr
    by_cases hc : c = collateral
    · subst hc
      simp [accountOf, add_comm]
    · simp [AList.lookup_insert_ne hc, Ne.symm hc, accountOf]
  · simp [htr, Ne.symm htr]

theorem reservedOf_updateReservedMargin (trader : Address) (amount : Int) (tr : Address) :
    (d.updateReservedMargin trader amount).reservedOf tr = d.reservedOf tr + if trader = tr then amount else 0 := by
  unfold reservedOf
  rw [accountOf_of_traderMap_insert rfl]
  by_cases htr : tr = trader
  · subst htr
    simp [accountOf]
  · simp [htr, Ne.symm htr]

theorem deposited_updateReservedMargin (trader : Address) (amount : Int) (tr : Address) :
    ((d.updateReservedMargin trader amount).accountOf tr).margin.deposited = (d.accountOf tr).margin.deposited := by
  rw [accountOf_of_traderMap_insert rfl]
  split_ifs with htr
  · subst htr
    rfl
  · rfl

theorem reserved_updateMargin (trader : Address) (collateral amount : Int) (tr : Address) :
    ((d.updateMargin trader collateral amount).accountOf tr).margin.reserved = (d.accountOf tr).margin.reserved := by
  rw [accountOf_of_traderMap_insert rfl]
  split_ifs with htr
  · subst htr
    rfl
  · rfl

/-- A `MarginAccount` log writes margins only. -/
theorem positions_handleMarginAccountEvent (e : MarginAccountLog) (tr : Address) :
    ((ContractEventsProcessor.handleMarginAccountEvent d e).accountOf tr).positions = (d.accountOf tr).positions := by
  cases e <;> simp only [ContractEventsProcessor.handleMarginAccountEvent] <;>
    first
    | rfl
    | (rw [accountOf_of_traderMap_insert rfl]; split_ifs with htr <;> [(subst htr; rfl); rfl])

/-- A `ClearingHouse` log writes no margin. -/
theorem margin_handleClearingHouseEvent (e : ClearingHouseLog) (tr : Address) :
    ((ContractEventsProcessor.handleClearingHouseEvent cs d e).state.accountOf tr).margin = (d.accountOf tr).margin := by
  cases e with
  | fundingRateUpdated market c _ =>
    show ((d.updateUnrealisedFunding market c).accountOf tr).margin = _
    rw [accountOf_updateUnrealisedFunding]
    unfold Trader.refreshFunding
    split <;> rfl
  | fundingPaid trader market c =>
    show ((d.resetUnrealisedFunding market trader c).accountOf tr).margin = _
    rw [accountOf_resetUnrealisedFunding]
    split_ifs with htr
    · subst htr
      unfold Trader.resetFunding
      split <;> rfl
    · rfl
  | positionModified trader market price openNotional size =>
    show (((d.updateLastPrice market price).updatePosition cs trader market size openNotional false).state.accountOf
      tr).margin = _
    rw [updatePosition_eq, accountOf_of_traderMap_insert rfl]
    by_cases htr : tr = trader
    · rw [if_pos htr, htr]
      rfl
    · rw [if_neg htr]
      rfl
  | positionLiquidated trader market price openNotional size =>
    show (((d.updateLastPrice market price).updatePosition cs trader market size openNotional true).state.accountOf
      tr).margin = _
    rw [updatePosition_eq, accountOf_of_traderMap_insert rfl]
    by_cases htr : tr = trader
    · rw [if_pos htr, htr]
      rfl
    · rw [if_neg htr]
      rfl
  | notifyNextPISample _ => rfl
  | other => rfl

theorem depositOf_handleAcceptedEvent (cs : ConfigService) (event : AcceptedLog) (trader : Address) (collateral : Int) :
    (ContractEventsProcessor.handleAcceptedEvent cs d event).state.depositOf trader collateral =
      d.depositOf trader collateral + depositDelta trader collateral event := by
  obtain ⟨ev, _, _⟩ := event
  cases ev with
  | marginAccount e =>
    cases e with
    | marginAdded t c amount => exact depositOf_updateMargin t c amount trader collateral
    | marginRemoved t c amount => exact depositOf_updateMargin t c (-amount) trader collateral
    | pnLRealized t realizedPnl => exact depositOf_updateMargin t HUSD realizedPnl trader collateral
    | marginReserved t amount =>
      simp [depositOf, depositDelta, ContractEventsProcessor.handleAcceptedEvent,
        ContractEventsProcessor.handleMarginAccountEvent, deposited_updateReservedMargin]
    | marginReleased t amount =>
      simp [depositOf, depositDelta, ContractEventsProcessor.handleAcceptedEvent,
        ContractEventsProcessor.handleMarginAccountEvent, deposited_updateReservedMargin]
    | other => simp [depositDelta, ContractEventsProcessor.handleAcceptedEvent,
        ContractEventsProcessor.handleMarginAccountEvent]
  | clearingHouse e =>
    simp only [depositOf, depositDelta, ContractEventsProcessor.handleAcceptedEvent]
    rw [margin_handleClearingHouseEvent, add_zero]
  | other => simp [depositDelta, ContractEventsProcessor.handleAcceptedEvent]

theorem reservedOf_handleAcceptedEvent (cs : ConfigService) (event : AcceptedLog) (trader : Address) :
    (ContractEventsProcessor.handleAcceptedEvent cs d event).state.reservedOf trader =
      d.reservedOf trader + reservedDelta trader event := by
  obtain ⟨ev, _, _⟩ := event
  cases ev with
  | marginAccount e =>
    cases e with
    | marginReserved t amount => exact reservedOf_updateReservedMargin t amount trader
    | marginReleased t amount => exact reservedOf_updateReservedMargin t (-amount) trader
    | marginAdded t c amount =>
      simp [reservedOf, reservedDelta, ContractEventsProcessor.handleAcceptedEvent,
        ContractEventsProcessor.handleMarginAccountEvent, reserved_updateMargin]
    | marginRemoved t c amount =>
      simp [reservedOf, reservedDelta, ContractEventsProcessor.handleAcceptedEvent,
        ContractEventsProcessor.handleMarginAccountEvent, reserved_updateMargin]
    | pnLRealized t realizedPnl =>
      simp [reservedOf, reservedDelta, ContractEventsProcessor.handleAcceptedEvent,
        ContractEventsProcessor.handleMarginAccountEvent, reserved_updateMargin]
    | other => simp [reservedDelta, ContractEventsProcessor.handleAcceptedEvent,
        ContractEventsProcessor.handleMarginAccountEvent]
  | clearingHouse e =>
    simp only [reservedOf, reservedDelta, ContractEventsProcessor.handleAcceptedEvent]
    rw [margin_handleClearingHouseEvent, add_zero]
  | other => simp [reservedDelta, ContractEventsProcessor.handleAcceptedEvent]

/-- The accepted logs write nothing of the order book. -/
theorem book_handleAcceptedEvent (cs : ConfigService) (event : AcceptedLog) :
    (ContractEventsProcessor.handleAcceptedEvent cs d event).state.heap = d.heap ∧
      (ContractEventsProcessor.handleAcceptedEvent cs d event).state.orders = d.orders ∧
      (ContractEventsProcessor.handleAcceptedEvent cs d event).state.longOrders = d.longOrders ∧
      (ContractEventsProcessor.handleAcceptedEvent cs d event).state.shortOrders = d.shortOrders := by
  obtain ⟨ev, _, _⟩ := event
  cases ev with
  | marginAccount e => cases e <;> exact ⟨rfl, rfl, rfl, rfl⟩
  | clearingHouse e =>
    simp only [ContractEventsProcessor.handleAcceptedEvent]
    cases e with
    | fundingPaid trader market c =>
      simp only [ContractEventsProcessor.handleClearingHouseEvent]
      unfold resetUnrealisedFunding
      split
      · exact ⟨rfl, rfl, rfl, rfl⟩
      · split <;> exact ⟨rfl, rfl, rfl, rfl⟩
    | positionModified trader market price openNotional size =>
      simp only [ContractEventsProcessor.handleClearingHouseEvent, updatePosition_eq]
      exact ⟨rfl, rfl, rfl, rfl⟩
    | positionLiquidated trader market price openNotional size =>
      simp only [ContractEventsProcessor.handleClearingHouseEvent, updatePosition_eq]
      exact ⟨rfl, rfl, rfl, rfl⟩
    | _ => exact ⟨rfl, rfl, rfl, rfl⟩
  | other => exact ⟨rfl, rfl, rfl, rfl⟩

end Writes

/-! ## Positions stay complete -/

/-- Every position the state holds has its size, open notional, fraction and funding set. -/
def PositionsComplete (d : InMemoryDatabase) : Prop :=
  ∀ trader market p, (d.accountOf trader).positions.lookup market = some p → p.Complete

section Complete

variable {cs : ConfigService} {d d' : InMemoryDatabase}

theorem positionsComplete_new : PositionsComplete newInMemoryDatabase := by
  intro trader market p hp
  simp [accountOf, newInMemoryDatabase, getBlankTrader] at hp

theorem SameAccounts.positionsComplete (h : SameAccounts d d') (hc : PositionsComplete d) : PositionsComplete d' :=
  fun trader market p hp => hc trader market p (by rwa [h.positions] at hp)

/-- Writing a complete position into a record whose positions are complete. -/
theorem complete_insert {t : Trader} (ht : ∀ market p, t.positions.lookup market = some p → p.Complete)
    {market : Market} {q : Position} (hq : q.Complete) :
    ∀ market' p, (t.positions.insert market q).lookup market' = some p → p.Complete := by
  intro market' p hp
  by_cases hm : market' = market
  · subst hm
    rw [AList.lookup_insert, Option.some_inj] at hp
    exact hp ▸ hq
  · rw [AList.lookup_insert_ne hm] at hp
    exact ht market' p hp

/-- `UpdatePosition` writes a complete position over a complete one or none: a new or flat position takes the
market's fraction and no funding, and the size and open notional are always written. -/
theorem updatedPosition_complete {market : Market} {size openNotional : Int} {isLiquidation : Bool}
    {stored : Option Position} (hstored : ∀ p, stored = some p → p.Complete) (c : Int) :
    (updatedPosition cs market size openNotional isLiquidation stored c).1.Complete := by
  unfold updatedPosition
  dsimp only
  -- a new or flat position takes the fraction and no funding, an open one keeps its own
  cases stored with
  | none => split <;> split_ifs <;> simp_all [Position.Complete]
  | some p =>
    obtain ⟨-, -, hl, hu⟩ := hstored p rfl
    split <;> split_ifs <;> simp_all [Position.Complete]

theorem positionsComplete_handleAcceptedEvent (hc : PositionsComplete d) (cs : ConfigService) (event : AcceptedLog) :
    PositionsComplete (ContractEventsProcessor.handleAcceptedEvent cs d event).state := by
  obtain ⟨ev, _, _⟩ := event
  cases ev with
  | marginAccount e =>
    intro trader market p hp
    change ((ContractEventsProcessor.handleMarginAccountEvent d e).accountOf trader).positions.lookup market =
      some p at hp
    exact hc trader market p (by rwa [positions_handleMarginAccountEvent] at hp)
  | clearingHouse e =>
    cases e with
    | fundingRateUpdated market c _ =>
      -- a refreshed position gets its funding set
      intro trader market' p hp
      change ((d.updateUnrealisedFunding market c).accountOf trader).positions.lookup market' = some p at hp
      rw [accountOf_updateUnrealisedFunding] at hp
      unfold Trader.refreshFunding at hp
      split at hp
      · exact hc trader market' p hp
      · rename_i q hq
        obtain ⟨hs, hn, hl, -⟩ := hc trader market q hq
        refine complete_insert (hc trader) ?_ market' p hp
        exact ⟨hs, hn, hl, rfl⟩
    | fundingPaid trader market c =>
      intro tr market' p hp
      change ((d.resetUnrealisedFunding market trader c).accountOf tr).positions.lookup market' = some p at hp
      rw [accountOf_resetUnrealisedFunding] at hp
      split_ifs at hp with htr
      · subst htr
        unfold Trader.resetFunding at hp
        split at hp
        · exact hc tr market' p hp
        · rename_i q hq
          obtain ⟨hs, hn, -, -⟩ := hc tr market q hq
          refine complete_insert (hc tr) ?_ market' p hp
          exact ⟨hs, hn, rfl, rfl⟩
      · exact hc tr market' p hp
    | positionModified trader market price openNotional size =>
      intro tr market' p hp
      change (((d.updateLastPrice market price).updatePosition cs trader market size openNotional false).state.accountOf
        tr).positions.lookup market' = some p at hp
      rw [updatePosition_eq, accountOf_of_traderMap_insert rfl] at hp
      by_cases htr : tr = trader
      · rw [if_pos htr] at hp
        exact complete_insert (hc trader) (updatedPosition_complete (fun q hq => hc trader market q hq) _) market' p hp
      · rw [if_neg htr] at hp
        exact hc tr market' p hp
    | positionLiquidated trader market price openNotional size =>
      intro tr market' p hp
      change (((d.updateLastPrice market price).updatePosition cs trader market size openNotional true).state.accountOf
        tr).positions.lookup market' = some p at hp
      rw [updatePosition_eq, accountOf_of_traderMap_insert rfl] at hp
      by_cases htr : tr = trader
      · rw [if_pos htr] at hp
        exact complete_insert (hc trader) (updatedPosition_complete (fun q hq => hc trader market q hq) _) market' p hp
      · rw [if_neg htr] at hp
        exact hc tr market' p hp
    | notifyNextPISample _ => exact hc
    | other => exact hc
  | other => exact hc

theorem positionsComplete_applyAcceptedLogs (cs : ConfigService) :
    ∀ (events : List AcceptedLog) (d : InMemoryDatabase), PositionsComplete d →
      PositionsComplete (ContractEventsProcessor.applyAcceptedLogs cs events d).state
  | [], _, hc => hc
  | event :: events, d, hc => by
    have hstep := positionsComplete_handleAcceptedEvent hc cs event
    simp only [ContractEventsProcessor.applyAcceptedLogs]
    split
    · rename_i heq
      rw [heq] at hstep
      exact hstep
    · rename_i d' heq
      rw [heq] at hstep
      exact positionsComplete_applyAcceptedLogs cs events d' hstep

end Complete

/-! ## A batch, log by log -/

/-- The logs a batch handles: up to the first that panics, that one included. -/
def handledLogs (cs : ConfigService) : List AcceptedLog → InMemoryDatabase → List AcceptedLog
  | [], _ => []
  | event :: events, d =>
    match ContractEventsProcessor.handleAcceptedEvent cs d event with
    | ⟨_, some _⟩ => [event]
    | ⟨d', none⟩ => event :: handledLogs cs events d'

/-- A batch adds to every deposit and every reserved margin what the logs it handles add. -/
theorem applyAcceptedLogs_ledger (cs : ConfigService) (trader : Address) (collateral : Int) :
    ∀ (events : List AcceptedLog) (d : InMemoryDatabase),
      (ContractEventsProcessor.applyAcceptedLogs cs events d).state.depositOf trader collateral =
          d.depositOf trader collateral + ((handledLogs cs events d).map (depositDelta trader collateral)).sum ∧
        (ContractEventsProcessor.applyAcceptedLogs cs events d).state.reservedOf trader =
          d.reservedOf trader + ((handledLogs cs events d).map (reservedDelta trader)).sum
  | [], d => by simp [ContractEventsProcessor.applyAcceptedLogs, handledLogs]
  | event :: events, d => by
    have hdep := depositOf_handleAcceptedEvent (d := d) cs event trader collateral
    have hres := reservedOf_handleAcceptedEvent (d := d) cs event trader
    simp only [ContractEventsProcessor.applyAcceptedLogs, handledLogs]
    rcases hh : ContractEventsProcessor.handleAcceptedEvent cs d event with ⟨d', _ | e⟩ <;>
      rw [hh] at hdep hres <;> simp only [List.map_cons, List.sum_cons, List.map_nil, List.sum_nil] at hdep hres ⊢
    · -- the batch goes on from the state the log left
      obtain ⟨ih₁, ih₂⟩ := applyAcceptedLogs_ledger cs trader collateral events d'
      constructor <;> omega
    · constructor <;> omega

end InMemoryDatabase

/-! ## The order of a batch -/

namespace ContractEventsProcessor

/-- A sort `sort.Slice` may be: it leaves every batch in an order sorted for the less function it is given. -/
def SortSpec (sortSlice : (AcceptedLog → AcceptedLog → Bool) → List AcceptedLog → List AcceptedLog) : Prop :=
  ∀ logs, SortedBy acceptedLogLess logs (sortSlice acceptedLogLess logs)

/-- Two logs at different `(BlockNumber, Index)` are ordered one way or the other. -/
theorem acceptedLogLess_total {a b : AcceptedLog} (h : (a.blockNumber, a.index) ≠ (b.blockNumber, b.index)) :
    acceptedLogLess a b = true ∨ acceptedLogLess b a = true := by
  unfold acceptedLogLess
  by_cases hb : a.blockNumber = b.blockNumber
  · have hi : a.index ≠ b.index := fun hi => h (by rw [hb, hi])
    simp only [hb, if_true, decide_eq_true_eq]
    omega
  · simp only [hb, Ne.symm hb, if_false, decide_eq_true_eq]
    omega

/-- **A batch does not depend on the order its logs were delivered in**: on logs with distinct
`(BlockNumber, Index)`, as the logs of one chain are, any two sorts `sort.Slice` may be give the same outcome, for
every delivery order of the same logs. -/
theorem processAcceptedEvents_delivery_order
    {sortSlice₁ sortSlice₂ : (AcceptedLog → AcceptedLog → Bool) → List AcceptedLog → List AcceptedLog}
    (hsort₁ : SortSpec sortSlice₁) (hsort₂ : SortSpec sortSlice₂) {logs₁ logs₂ : List AcceptedLog}
    (hperm : logs₁.Perm logs₂) (hkeys : (logs₁.map fun l => (l.blockNumber, l.index)).Nodup) (cs : ConfigService)
    (d : InMemoryDatabase) :
    processAcceptedEvents cs d sortSlice₁ logs₁ = processAcceptedEvents cs d sortSlice₂ logs₂ := by
  unfold processAcceptedEvents
  rw [SortedBy.eq (hsort₁ logs₁) (hsort₂ logs₂) hperm fun a ha b hb hab =>
    acceptedLogLess_total fun hkey => hab (List.inj_on_of_nodup_map hkeys ha hb hkey)]

/-- Insertion sort, each log after those it is not less than. -/
def insertionSortSlice (less : AcceptedLog → AcceptedLog → Bool) (logs : List AcceptedLog) : List AcceptedLog :=
  logs.insertionSort fun a b => less b a = false

theorem sortSpec_insertionSortSlice : SortSpec insertionSortSlice := by
  intro logs
  -- "not after" is total and transitive on `(BlockNumber, Index)`
  have htotal : Std.Total fun a b : AcceptedLog => acceptedLogLess b a = false :=
    ⟨fun a b => by unfold acceptedLogLess; split_ifs <;> simp only [decide_eq_false_iff_not] <;> omega⟩
  have htrans : IsTrans AcceptedLog fun a b => acceptedLogLess b a = false :=
    ⟨fun a b c hab hbc => by
      unfold acceptedLogLess at *
      split_ifs at * <;> simp only [decide_eq_false_iff_not] at * <;> omega⟩
  exact ⟨List.perm_insertionSort _ _, List.pairwise_insertionSort _ _⟩

/-- A deposit and a withdrawal of one block, delivered in either order. -/
def depositLog : AcceptedLog := ⟨.marginAccount (.marginAdded 7 0 100), 1, 0⟩

def withdrawalLog : AcceptedLog := ⟨.marginAccount (.marginRemoved 7 0 100), 1, 1⟩

theorem processAcceptedEvents_swapped_pair :
    processAcceptedEvents {} newInMemoryDatabase insertionSortSlice [depositLog, withdrawalLog] =
      processAcceptedEvents {} newInMemoryDatabase insertionSortSlice [withdrawalLog, depositLog] :=
  processAcceptedEvents_delivery_order sortSpec_insertionSortSlice sortSpec_insertionSortSlice (List.Perm.swap _ _ _)
    (by decide) {} newInMemoryDatabase

end ContractEventsProcessor

namespace InMemoryDatabase

/-! ## Runs -/

/-- The runs of the validator from `d₀`: the order book's writes interleaved with batches of accepted logs, each
with the config it reads and sorted by `sortSlice`. `batches` lists the batches in the order they ran, `handled`
the logs they handled. -/
inductive Run (sortSlice : (AcceptedLog → AcceptedLog → Bool) → List AcceptedLog → List AcceptedLog)
    (d₀ : InMemoryDatabase) : List (ConfigService × List AcceptedLog) → List AcceptedLog → InMemoryDatabase → Prop
  | refl : Run sortSlice d₀ [] [] d₀
  | book {batches handled d d'} : Run sortSlice d₀ batches handled d → Step d d' → Run sortSlice d₀ batches handled d'
  | accepted {batches handled d} (cs : ConfigService) (logs : List AcceptedLog) :
      Run sortSlice d₀ batches handled d →
      Run sortSlice d₀ (batches ++ [(cs, logs)])
        (handled ++ handledLogs cs (sortSlice ContractEventsProcessor.acceptedLogLess logs) d)
        (ContractEventsProcessor.processAcceptedEvents cs d sortSlice logs).state

/-- The accepted batches run alone from `d₀`. -/
def acceptedOnly (sortSlice : (AcceptedLog → AcceptedLog → Bool) → List AcceptedLog → List AcceptedLog)
    (d₀ : InMemoryDatabase) (batches : List (ConfigService × List AcceptedLog)) : InMemoryDatabase :=
  batches.foldl (fun d batch => (ContractEventsProcessor.processAcceptedEvents batch.1 d sortSlice batch.2).state) d₀

/-- A limit order of trader `7` placed, then a batch where the trader opens a position of one unit at price `1` and
deposits `5` of collateral `0`, delivered position first. -/
def sampleOrder : Order := { (default : Order) with id := 1, trader := 7 }

def sampleLogs : List AcceptedLog :=
  [⟨.clearingHouse (.positionModified 7 0 1000000 1000000 1000000000000000000), 2, 1⟩,
    ⟨.marginAccount (.marginAdded 7 0 5000000), 2, 0⟩]

def sampleState : InMemoryDatabase :=
  (ContractEventsProcessor.processAcceptedEvents {} (newInMemoryDatabase.add sampleOrder)
    ContractEventsProcessor.insertionSortSlice sampleLogs).state

theorem sampleRun :
    Run ContractEventsProcessor.insertionSortSlice newInMemoryDatabase [({}, sampleLogs)]
      (handledLogs {} (ContractEventsProcessor.insertionSortSlice ContractEventsProcessor.acceptedLogLess sampleLogs)
        (newInMemoryDatabase.add sampleOrder)) sampleState :=
  .accepted {} sampleLogs (.book .refl (Step.add newInMemoryDatabase sampleOrder rfl))

section Runs

variable {sortSlice : (AcceptedLog → AcceptedLog → Bool) → List AcceptedLog → List AcceptedLog}
  {d₀ d : InMemoryDatabase} {batches : List (ConfigService × List AcceptedLog)} {handled : List AcceptedLog}

theorem acceptedOnly_append (batch : ConfigService × List AcceptedLog) :
    acceptedOnly sortSlice d₀ (batches ++ [batch]) =
      (ContractEventsProcessor.processAcceptedEvents batch.1 (acceptedOnly sortSlice d₀ batches) sortSlice
        batch.2).state := by
  simp [acceptedOnly, List.foldl_append]

/-- **The accounts do not depend on the interleaving**: in every run, every trader's positions, deposits and reserved
margin and every market's fraction, last price and next funding and sample times are what the run's accepted batches
leave when they run alone, whatever order-book writes came between them. -/
theorem run_accounts_eq_acceptedOnly (h : Run sortSlice d₀ batches handled d) :
    SameAccounts (acceptedOnly sortSlice d₀ batches) d := by
  induction h with
  | refl => exact .refl _
  | book _ hs ih => exact ih.trans hs.sameAccounts
  | accepted cs logs _ ih =>
    rw [acceptedOnly_append]
    exact (ih.processAcceptedEvents sortSlice logs).1

theorem sampleRun_accounts :
    SameAccounts (acceptedOnly ContractEventsProcessor.insertionSortSlice newInMemoryDatabase [({}, sampleLogs)])
      sampleState :=
  run_accounts_eq_acceptedOnly sampleRun

/-- **No deposit or reservation is lost or counted twice**: in every run from the empty database, every trader's
deposit of every collateral is the sum of the `MarginAdded`, `MarginRemoved` and (for `HUSD`) `PnLRealized` amounts
of the logs the run handled, and every reserved margin that of `MarginReserved` and `MarginReleased`; a batch that
panics drops the logs after the one that panicked. -/
theorem run_margin_ledger (h : Run sortSlice newInMemoryDatabase batches handled d) (trader : Address)
    (collateral : Int) :
    d.depositOf trader collateral = (handled.map (depositDelta trader collateral)).sum ∧
      d.reservedOf trader = (handled.map (reservedDelta trader)).sum := by
  induction h with
  | refl =>
    -- a trader the empty database does not hold reads as blank: nothing deposited, nothing reserved
    have hblank : newInMemoryDatabase.accountOf trader = getBlankTrader := rfl
    simp only [depositOf, reservedOf, hblank, getBlankTrader, List.map_nil, List.sum_nil]
    rw [← AList.insert_empty]
    by_cases hc : collateral = 0
    · subst hc
      rw [AList.lookup_insert]
      exact ⟨rfl, trivial⟩
    · rw [AList.lookup_insert_ne hc]
      exact ⟨rfl, trivial⟩
  | book _ hs ih =>
    have hsame := hs.sameAccounts
    rw [depositOf, reservedOf, hsame.deposited, hsame.reserved]
    exact ih
  | @accepted batches handled d cs logs _ ih =>
    obtain ⟨hdep, hres⟩ := applyAcceptedLogs_ledger cs trader collateral
      (sortSlice ContractEventsProcessor.acceptedLogLess logs) d
    simp only [ContractEventsProcessor.processAcceptedEvents, hdep, hres, List.map_append, List.sum_append, ih.1,
      ih.2, and_self]

theorem sampleRun_ledger :
    sampleState.depositOf 7 0 =
        ((handledLogs {} (ContractEventsProcessor.insertionSortSlice ContractEventsProcessor.acceptedLogLess sampleLogs)
          (newInMemoryDatabase.add sampleOrder)).map (depositDelta 7 0)).sum ∧
      sampleState.reservedOf 7 =
        ((handledLogs {} (ContractEventsProcessor.insertionSortSlice ContractEventsProcessor.acceptedLogLess sampleLogs)
          (newInMemoryDatabase.add sampleOrder)).map (reservedDelta 7)).sum :=
  run_margin_ledger sampleRun 7 0

theorem run_positionsComplete (h : Run sortSlice newInMemoryDatabase batches handled d) : PositionsComplete d := by
  induction h with
  | refl => exact positionsComplete_new
  | book _ hs ih => exact hs.sameAccounts.positionsComplete ih
  | accepted cs logs _ ih => exact positionsComplete_applyAcceptedLogs cs _ _ ih

/-- **The margin view never dereferences a nil position field**: in every run from the empty database, every
trader's record translates into the `UserState` that `GetNaughtyTraders` and the makerbook's margin read, for any
`HubbleState`. -/
theorem run_traderUserState_ok (h : Run sortSlice newInMemoryDatabase batches handled d) (hState : Hu.HubbleState)
    (trader : Address) (t : Trader) (ht : d.traderMap.lookup trader = some t) :
    ∃ u, traderUserState hState t = .ok u := by
  have hc := run_positionsComplete h trader
  have hacc : d.accountOf trader = t := by simp [accountOf, ht]
  rw [hacc] at hc
  -- every entry of the record's positions has a size and an open notional
  have hall : (t.positions.entries.all fun e => (translatePosition e.2).isSome) = true := by
    rw [List.all_eq_true]
    intro e he
    obtain ⟨hs, hn, -, -⟩ := hc e.1 e.2 (AList.mem_lookup_iff.mpr he)
    obtain ⟨size, hsize⟩ := Option.isSome_iff_exists.mp hs
    obtain ⟨openNotional, hopen⟩ := Option.isSome_iff_exists.mp hn
    simp [translatePosition, hsize, hopen]
  exact ⟨_, by simp [traderUserState, translatePositions, hall]; rfl⟩

theorem sampleRun_traderUserState :
    ∃ u, traderUserState (getHubbleState {}) ((sampleState.traderMap.lookup 7).getD getBlankTrader) = .ok u :=
  run_traderUserState_ok sampleRun (getHubbleState {}) 7 _ rfl

end Runs

end InMemoryDatabase

end Hubblenet
