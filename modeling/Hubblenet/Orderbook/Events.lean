import Hubblenet.Orderbook.Invariant

/-!
# The events processor

`ContractEventsProcessor.ProcessEvents` applies a batch of order-book logs to the in-memory database: the removed
logs first, newest first, then the others, oldest first (`orderLogs`). Each log goes to the handler of the contract
that emitted it. `OrderBook`'s `OrderMatched` fills an order and its removed log unfills it; `OrderMatchingError`
pushes `Execution_Failed` and its removed log pops the top status; `OrderAccepted` of `LimitOrderBook` and
`IOCOrderBook` adds the order and its removed log deletes it; `OrderCancelAccepted` of `LimitOrderBook` and
`SignedOrderBook` pushes `Cancelled` and its removed log pops the top status. The caller recovers a handler's
panic, so a batch stops at the first panic with the writes made so far (`applyLogs`).

A log is modelled decoded: its contract, the event its first topic names and the arguments the handler reads. A
log whose data does not unpack, and the events the handlers only log, are `other`.

Every handler is a sequence of the database's writes (`handleEvent_steps`), so a batch whose accepted orders
carry fresh ids keeps every state reachable (`applyLogs_steps`, `processEvents_reachable`). Undoing a batch is not
exact: `UpdateFilledBaseAssetQuantity` gives back the margin of `-fillAmount`, which `GetRequiredMargin` rounds down
like that of `fillAmount` (`processEvents_reorg_virtualReserved`). And an `OrderMatchingError` after a full fill
buries `FulFilled` under `Execution_Failed`, so `Accept` keeps the filled order and `GetLongOrders` returns it again
(`processEvents_filled_order_returned`).
-/

namespace Hubblenet

open Go Lib

/-! ## Logs -/

/-- The `OrderBook` logs. -/
inductive OrderBookLog where
  /-- `OrderMatched(trader, orderHash, fillAmount, price, openInterestNotional, timestamp, isLiquidation)` -/
  | orderMatched (trader : Address) (orderHash : Hash) (fillAmount : Int)
  /-- `OrderMatchingError(orderHash, err)` -/
  | orderMatchingError (orderHash : Hash) (err : String)
  | other
  deriving DecidableEq, Repr

/-- The `LimitOrderBook` logs. -/
inductive LimitOrderBookLog where
  /-- `OrderAccepted(trader, orderHash, order, timestamp)` -/
  | orderAccepted (trader : Address) (orderHash : Hash) (order : LimitOrder)
  /-- `OrderCancelAccepted(trader, orderHash, timestamp, isAutoCancelled)` -/
  | orderCancelAccepted (orderHash : Hash)
  | other
  deriving DecidableEq, Repr

/-- The `IOCOrderBook` logs. -/
inductive IOCOrderBookLog where
  /-- `OrderAccepted(trader, orderHash, order, timestamp)` -/
  | orderAccepted (trader : Address) (orderHash : Hash) (order : IOCOrder)
  | other
  deriving DecidableEq, Repr

/-- The `SignedOrderBook` logs. -/
inductive SignedOrderBookLog where
  /-- `OrderCancelAccepted(trader, orderHash, timestamp)` -/
  | orderCancelAccepted (orderHash : Hash)
  | other
  deriving DecidableEq, Repr

/-- A log by the address that emitted it. -/
inductive ContractLog where
  | orderBook (e : OrderBookLog)
  | limitOrderBook (e : LimitOrderBookLog)
  | iocOrderBook (e : IOCOrderBookLog)
  | signedOrderBook (e : SignedOrderBookLog)
  | other
  deriving DecidableEq, Repr

/-- `types.Log`, the fields `ProcessEvents` reads. -/
structure Log where
  event : ContractLog
  blockNumber : Nat
  index : Nat
  removed : Bool
  deriving DecidableEq, Repr

/-- `(BlockNumber, Index)` of `a` is at least that of `b`. -/
def logAtOrAfter (a b : Log) : Bool :=
  decide (b.blockNumber < a.blockNumber ∨ b.blockNumber = a.blockNumber ∧ b.index ≤ a.index)

/-- The order of `ProcessEvents`: removed logs by `(BlockNumber, Index)` descending, then the others ascending.
`sort.Slice` is not stable; logs of one chain never share a `(BlockNumber, Index)`, so any sort gives this. -/
def orderLogs (logs : List Log) : List Log :=
  let deletedLogs := logs.filter (·.removed)
  let rebirthLogs := logs.filter (fun l => !l.removed)
  deletedLogs.insertionSort (fun a b => logAtOrAfter a b = true) ++
    rebirthLogs.insertionSort (fun a b => logAtOrAfter b a = true)

/-! ## The handlers -/

/-- `getPositionTypeBasedOnBaseAssetQuantity`. -/
def getPositionTypeBasedOnBaseAssetQuantity (baseAssetQuantity : Int) : PositionType :=
  if baseAssetQuantity.sign = 1 then .long else .short

/-- The `Order` an `OrderAccepted` handler builds from the decoded order: unfilled, no lifecycle yet, placed at
the log's block. -/
def acceptedOrder (trader : Address) (orderId : Hash) (order : BaseOrder) (rawOrder : ContractOrder)
    (orderType : OrderType) (blockNumber : Nat) : Order where
  id := orderId
  market := toInt64 order.ammIndex
  positionType := getPositionTypeBasedOnBaseAssetQuantity order.baseAssetQuantity
  trader := trader
  baseAssetQuantity := order.baseAssetQuantity
  filledBaseAssetQuantity := 0
  salt := order.salt
  price := order.price
  reduceOnly := order.reduceOnly
  lifecycleList := []
  blockNumber := toInt64 blockNumber
  rawOrder := rawOrder
  orderType := orderType

/-- The record of `LimitOrderBook`'s `OrderAccepted`. -/
def limitOrderRecord (trader : Address) (orderId : Hash) (order : LimitOrder) (blockNumber : Nat) : Order :=
  acceptedOrder trader orderId order.toBaseOrder (.limit order) .limit blockNumber

/-- The record of `IOCOrderBook`'s `OrderAccepted`. -/
def iocOrderRecord (trader : Address) (orderId : Hash) (order : IOCOrder) (blockNumber : Nat) : Order :=
  acceptedOrder trader orderId order.toBaseOrder (.ioc order) .ioc blockNumber

namespace ContractEventsProcessor

variable (cs : ConfigService) (db : InMemoryDatabase)

/-- A write whose error the handler only logs. -/
def keepOnError : Except DbError InMemoryDatabase → InMemoryDatabase
  | .ok d => d
  | .error _ => db

/-- `handleOrderBookEvent`. -/
def handleOrderBookEvent (removed : Bool) (blockNumber : Nat) : OrderBookLog → Outcome InMemoryDatabase
  | .orderMatched _ orderId fillAmount =>
    db.updateFilledBaseAssetQuantity cs (if removed then -fillAmount else fillAmount) orderId blockNumber
  | .orderMatchingError orderId err =>
    if !removed then ⟨keepOnError db (db.setOrderStatus orderId .executionFailed err blockNumber), none⟩
    else ⟨keepOnError db (db.revertLastStatus orderId), none⟩
  | .other => ⟨db, none⟩

/-- `handleLimitOrderBookEvent`. -/
def handleLimitOrderBookEvent (removed : Bool) (blockNumber : Nat) : LimitOrderBookLog → Outcome InMemoryDatabase
  | .orderAccepted trader orderId order =>
    if !removed then ⟨db.add (limitOrderRecord trader orderId order blockNumber), none⟩
    else ⟨db.delete cs orderId, none⟩
  | .orderCancelAccepted orderId =>
    if !removed then ⟨keepOnError db (db.setOrderStatus orderId .cancelled "" blockNumber), none⟩
    else ⟨keepOnError db (db.revertLastStatus orderId), none⟩
  | .other => ⟨db, none⟩

/-- `handleIOCOrderBookEvent`. -/
def handleIOCOrderBookEvent (removed : Bool) (blockNumber : Nat) : IOCOrderBookLog → Outcome InMemoryDatabase
  | .orderAccepted trader orderId order =>
    if !removed then ⟨db.add (iocOrderRecord trader orderId order blockNumber), none⟩
    else ⟨db.delete cs orderId, none⟩
  | .other => ⟨db, none⟩

/-- `handleSignedOrderBookEvent`. -/
def handleSignedOrderBookEvent (removed : Bool) (blockNumber : Nat) : SignedOrderBookLog → Outcome InMemoryDatabase
  | .orderCancelAccepted orderId =>
    if !removed then ⟨keepOnError db (db.setOrderStatus orderId .cancelled "" blockNumber), none⟩
    else ⟨keepOnError db (db.revertLastStatus orderId), none⟩
  | .other => ⟨db, none⟩

/-- The `switch event.Address` of `ProcessEvents`. -/
def handleEvent (event : Log) : Outcome InMemoryDatabase :=
  match event.event with
  | .orderBook e => handleOrderBookEvent cs db event.removed event.blockNumber e
  | .limitOrderBook e => handleLimitOrderBookEvent cs db event.removed event.blockNumber e
  | .iocOrderBook e => handleIOCOrderBookEvent cs db event.removed event.blockNumber e
  | .signedOrderBook e => handleSignedOrderBookEvent db event.removed event.blockNumber e
  | .other => ⟨db, none⟩

/-- The loop of `ProcessEvents`; a panic ends the batch. -/
def applyLogs : List Log → InMemoryDatabase → Outcome InMemoryDatabase
  | [], d => ⟨d, none⟩
  | event :: events, d =>
    match handleEvent cs d event with
    | ⟨d', some e⟩ => ⟨d', some e⟩
    | ⟨d', none⟩ => applyLogs events d'

/-- `ProcessEvents`. -/
def processEvents (logs : List Log) : Outcome InMemoryDatabase := applyLogs cs (orderLogs logs) db

/-! ## Handlers as writes of the database -/

open InMemoryDatabase in
/-- The log adds an order only under an id the book does not hold. -/
def AddsFresh (event : Log) : Prop :=
  match event.event with
  | .limitOrderBook (.orderAccepted _ orderId _) => event.removed = false → db.orders.lookup orderId = none
  | .iocOrderBook (.orderAccepted _ orderId _) => event.removed = false → db.orders.lookup orderId = none
  | _ => True

open InMemoryDatabase

theorem keepOnError_setOrderStatus_steps (orderId : Hash) (status : Status) (info : String) (blockNumber : Nat) :
    Relation.ReflTransGen Step db (keepOnError db (db.setOrderStatus orderId status info blockNumber)) := by
  cases h : db.setOrderStatus orderId status info blockNumber with
  | error _ => exact .refl
  | ok d => exact .single (.setOrderStatus db d orderId status info blockNumber h)

theorem keepOnError_revertLastStatus_steps (orderId : Hash) :
    Relation.ReflTransGen Step db (keepOnError db (db.revertLastStatus orderId)) := by
  cases h : db.revertLastStatus orderId with
  | error _ => exact .refl
  | ok d => exact .single (.revertLastStatus db d orderId h)

/-- Every handler is at most one write of the database. -/
theorem handleEvent_steps (event : Log) (hfresh : AddsFresh db event) :
    Relation.ReflTransGen Step db (handleEvent cs db event).state := by
  unfold handleEvent
  unfold AddsFresh at hfresh
  split
  · rename_i e _
    cases e with
    | orderMatched _ orderId fillAmount => exact .single (.updateFilledBaseAssetQuantity db cs _ orderId _)
    | orderMatchingError orderId err =>
      simp only [handleOrderBookEvent]
      split_ifs
      · exact keepOnError_setOrderStatus_steps db ..
      · exact keepOnError_revertLastStatus_steps db ..
    | other => exact .refl
  · rename_i e heq
    rw [heq] at hfresh
    cases e with
    | orderAccepted trader orderId order =>
      simp only [handleLimitOrderBookEvent]
      split_ifs with hr
      · exact .single (.add db (limitOrderRecord trader orderId order _) (hfresh (by simpa using hr)))
      · exact .single (.delete db cs orderId)
    | orderCancelAccepted orderId =>
      simp only [handleLimitOrderBookEvent]
      split_ifs
      · exact keepOnError_setOrderStatus_steps db ..
      · exact keepOnError_revertLastStatus_steps db ..
    | other => exact .refl
  · rename_i e heq
    rw [heq] at hfresh
    cases e with
    | orderAccepted trader orderId order =>
      simp only [handleIOCOrderBookEvent]
      split_ifs with hr
      · exact .single (.add db (iocOrderRecord trader orderId order _) (hfresh (by simpa using hr)))
      · exact .single (.delete db cs orderId)
    | other => exact .refl
  · rename_i e _
    cases e with
    | orderCancelAccepted orderId =>
      simp only [handleSignedOrderBookEvent]
      split_ifs
      · exact keepOnError_setOrderStatus_steps db ..
      · exact keepOnError_revertLastStatus_steps db ..
    | other => exact .refl
  · exact .refl

/-- Every log of the batch adds fresh ids only, in the state it is applied to. -/
def FreshRun : List Log → InMemoryDatabase → Prop
  | [], _ => True
  | event :: events, d => AddsFresh d event ∧ FreshRun events (handleEvent cs d event).state

theorem applyLogs_steps : ∀ (events : List Log) (d : InMemoryDatabase), FreshRun cs events d →
    Relation.ReflTransGen Step d (applyLogs cs events d).state
  | [], _, _ => .refl
  | event :: events, d, ⟨hfresh, hrest⟩ => by
    have h₁ := handleEvent_steps cs d event hfresh
    rw [applyLogs]
    split
    · rename_i heq
      rw [heq] at h₁
      exact h₁
    · rename_i d' heq
      rw [heq] at h₁ hrest
      exact h₁.trans (applyLogs_steps events d' hrest)

/-- **A batch of logs that adds only fresh ids keeps the book reachable**, hence consistent and sorted. -/
theorem processEvents_reachable {logs : List Log} (h : Reachable db) (hfresh : FreshRun cs (orderLogs logs) db) :
    Reachable (processEvents cs db logs).state :=
  h.trans (applyLogs_steps cs _ db hfresh)

/-- A limit long (id 1) and an IOC short (id 2) accepted in block 1, and a tenth of the long matched in block 2,
delivered newest first. -/
def acceptAndMatchLogs : List Log :=
  [{ event := .orderBook (.orderMatched 7 1 (10 ^ 17)), blockNumber := 2, index := 0, removed := false },
   { event := .iocOrderBook (.orderAccepted 8 2 ⟨⟨0, 8, -(10 ^ 18), 10 ^ 6, 2, false⟩, 1, 5⟩), blockNumber := 1,
     index := 1, removed := false },
   { event := .limitOrderBook (.orderAccepted 7 1 ⟨⟨0, 7, 10 ^ 18, 10 ^ 6, 1, false⟩, false⟩), blockNumber := 1,
     index := 0, removed := false }]

/-- From the empty book the batch is fresh, and its match fills the long it follows in block order. -/
theorem acceptAndMatch_reachable :
    FreshRun {} (orderLogs acceptAndMatchLogs) newInMemoryDatabase ∧
      Reachable (processEvents {} newInMemoryDatabase acceptAndMatchLogs).state ∧
      ((processEvents {} newInMemoryDatabase acceptAndMatchLogs).state.held .long 0).map (·.filledBaseAssetQuantity) =
        [10 ^ 17] := by
  have hfresh : FreshRun {} (orderLogs acceptAndMatchLogs) newInMemoryDatabase :=
    ⟨fun _ => rfl, fun _ => by decide +kernel, trivial, trivial⟩
  exact ⟨hfresh, processEvents_reachable {} newInMemoryDatabase .refl hfresh, by decide +kernel⟩

end ContractEventsProcessor

/-! ## Undoing a batch and retrying a filled order -/

open ContractEventsProcessor InMemoryDatabase

/-- A signed long of one unit at price `1.234567`. -/
def reorgOrder : Order :=
  { (default : Order) with id := 1, trader := 7, baseAssetQuantity := 10 ^ 18, price := 1234567, orderType := .signed }

/-- A tenth of `reorgOrder` matched in block 2. -/
def reorgLogs : List Log :=
  [{ event := .orderBook (.orderMatched 7 1 (10 ^ 17)), blockNumber := 2, index := 0, removed := false }]

/-- Replaying the match of a tenth of a unit and then its removal leaves the trader one unit of virtual reserved
margin more than before: the margin of `10^17` rounds down to `24691` and that of `-10^17` to `-24692`. -/
theorem processEvents_reorg_virtualReserved :
    let S : InMemoryDatabase := newInMemoryDatabase.addSignedOrder reorgOrder 246913
    let cs : ConfigService := { getMinAllowableMargin := 200000 }
    let S₂ := (processEvents cs (processEvents cs S reorgLogs).state
      (reorgLogs.map fun l => { l with removed := true })).state
    Reachable S ∧ (S.traderMap.lookup 7).map (·.margin.virtualReserved) = some 246913 ∧
      (S₂.traderMap.lookup 7).map (·.margin.virtualReserved) = some 246914 :=
  ⟨.single (.addSignedOrder _ _ _ rfl), by decide +kernel, by decide +kernel⟩

/-- A limit long of one unit at price `1`. -/
def filledLimitOrder : LimitOrder :=
  { ammIndex := 0, trader := 7, baseAssetQuantity := 10 ^ 18, price := 10 ^ 6, salt := 1, reduceOnly := false,
    postOnly := false }

/-- The order accepted in block 1; in block 2 it is matched in full and then a second match fails. -/
def filledBatches : List (List Log) :=
  [[{ event := .limitOrderBook (.orderAccepted 7 1 filledLimitOrder), blockNumber := 1, index := 0, removed := false }],
   [{ event := .orderBook (.orderMatched 7 1 (10 ^ 18)), blockNumber := 2, index := 0, removed := false },
    { event := .orderBook (.orderMatchingError 1 "order already filled"), blockNumber := 2, index := 1,
      removed := false }]]

/-- After the batches and `Accept` of block 2 the filled order is still in the book, `Execution_Failed` on top of
`FulFilled`, and ten blocks later `GetLongOrders` returns it with nothing left to fill. -/
theorem processEvents_filled_order_returned :
    let D : InMemoryDatabase := filledBatches.foldl (fun d logs => (processEvents {} d logs).state) newInMemoryDatabase
    let D' := (D.accept { getActiveMarketsCount := 1 } 2 0).state
    (D'.getOrderById 1).map (fun o => (o.getUnFilledBaseAssetQuantity, o.lifecycleList.map (·.status))) =
        some (0, [.placed, .fulFilled, .executionFailed]) ∧
      (D'.getLongOrders 0 none (some 12) 0).toOption.map (List.map fun o => (o.id, o.getUnFilledBaseAssetQuantity)) =
        some [(1, 0)] := by
  decide +kernel

end Hubblenet
