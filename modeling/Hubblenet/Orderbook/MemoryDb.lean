import Hubblenet.Orderbook.Types
import Hubblenet.Orderbook.MarginMath
import Hubblenet.Orderbook.HubbleMath
import Hubblenet.Lib.Heap
import Hubblenet.Lib.Slice
import Hubblenet.Lib.Search

/-!
# The validator's in-memory order book

`InMemoryDatabase` holds `*Order` pointers: the map `Orders` from order id to the record, and per market the
sorted slices `LongOrders` and `ShortOrders` of the same pointers. The model makes the pointers explicit: the
records live in `heap`, and the map and the slices hold `Ptr`s into it, so a write through `Orders[id]` is seen
through the slices exactly when they hold the same pointer.

The writes: `addOrderWithoutLock` allocates the record, pushes `Placed`, inserts the pointer into its side with
`addInSortedArray` (a `sort.Search` over the slice) and maps the id to it; `deleteOrderWithoutLock` removes the
first pointer of the side whose record has the id and unmaps the id, giving back a signed order's virtual
reserved margin; `updateFilledBaseAssetQuantity`, `setOrderStatus` and `revertLastStatus` write one record.
`accept` and `removeExpiredSignedOrders` loop over deletions and may stop on a panic; both return an `Outcome`.

The reads: `getLongOrdersWithoutLock` and `getShortOrdersWithoutLock` walk a side up to a price bound and, when
asked to clean, keep the orders `getCleanOrder` finds eligible. `getOrderBookDataCopy` is the `gob` round trip:
the copy's map and slices reach different records.
-/

namespace Hubblenet

open Go Lib

/-- A `*Order`: the position of the record in the database's heap. -/
abbrev Ptr := Nat

/-- `IConfigService`, as read at the moment of a call (chain state decides every value). -/
structure ConfigService where
  getActiveMarketsCount : Int := 0
  getMinAllowableMargin : Int := 0
  getMaxLiquidationRatio : Market → Int := fun _ => 0
  getMinSizeRequirement : Market → Int := fun _ => 0
  getTakerFee : Int := 0
  /-- `(upperbound, lowerbound)` -/
  getAcceptableBoundsForLiquidation : Market → Int × Int := fun _ => (0, 0)
  getMaintenanceMargin : Int := 0
  getCollaterals : List Hu.Collateral := []
  getUnderlyingPrices : List Int := []
  getMidPrices : List Int := []
  getSettlementPrices : List Int := []
  isSettledAll : Bool := false
  getPriceMultiplier : Market → Int := fun _ => 0
  getSignedOrderStatus : Hash → Int := fun _ => 0
  isTradingAuthority : Address → Address → Bool := fun _ _ => false
  hasReferrer : Address → Bool := fun _ => false

/-- `orderbook.InMemoryDatabase`; the lock and the config-service handle are left out. -/
structure InMemoryDatabase where
  heap : Heap Order
  orders : GoMap Hash Ptr
  longOrders : GoMap Market (List Ptr)
  shortOrders : GoMap Market (List Ptr)
  traderMap : GoMap Address Trader
  nextFundingTime : Nat
  lastPrice : GoMap Market Int
  cumulativePremiumFraction : GoMap Market Int
  nextSamplePITime : Nat
  samplePIAttemptedTime : Nat

/-- `NewInMemoryDatabase`: every map allocated and empty. -/
def newInMemoryDatabase : InMemoryDatabase where
  heap := []
  orders := ∅
  longOrders := ∅
  shortOrders := ∅
  traderMap := ∅
  nextFundingTime := 0
  lastPrice := ∅
  cumulativePremiumFraction := ∅
  nextSamplePITime := 0
  samplePIAttemptedTime := 0

/-- `RETRY_AFTER_BLOCKS`. -/
def RETRY_AFTER_BLOCKS : Nat := 10

/-- The errors `SetOrderStatus` and `RevertLastStatus` return. -/
inductive DbError where
  /-- `"invalid orderId %s"` -/
  | invalidOrderId (orderId : Hash)
  deriving DecidableEq, Repr

/-- `orderbook.OrderStatus`, the verdict of `shouldRemove`. -/
inductive RemovalStatus where
  | KEEP
  | REMOVE
  deriving DecidableEq, Repr

namespace InMemoryDatabase

variable (db : InMemoryDatabase)

/-- The record a pointer reaches. -/
def deref (p : Ptr) : Order := db.heap.read p

/-- `db.LongOrders[market]` or `db.ShortOrders[market]`; a market with no entry reads as the nil slice. -/
def sideOrders : PositionType → Market → List Ptr
  | .long, m => (db.longOrders.lookup m).getD []
  | .short, m => (db.shortOrders.lookup m).getD []

/-- `db.LongOrders[market] = orders` or `db.ShortOrders[market] = orders`. -/
def setSideOrders : PositionType → Market → List Ptr → InMemoryDatabase
  | .long, m, l => { db with longOrders := db.longOrders.insert m l }
  | .short, m, l => { db with shortOrders := db.shortOrders.insert m l }

/-- The record at `p` replaced. -/
def setRecord (p : Ptr) (o : Order) : InMemoryDatabase := { db with heap := db.heap.write p o }

@[simp] theorem setSideOrders_heap (pt : PositionType) (m : Market) (l : List Ptr) :
    (db.setSideOrders pt m l).heap = db.heap := by cases pt <;> rfl

@[simp] theorem setSideOrders_orders (pt : PositionType) (m : Market) (l : List Ptr) :
    (db.setSideOrders pt m l).orders = db.orders := by cases pt <;> rfl

@[simp] theorem setSideOrders_traderMap (pt : PositionType) (m : Market) (l : List Ptr) :
    (db.setSideOrders pt m l).traderMap = db.traderMap := by cases pt <;> rfl

@[simp] theorem setSideOrders_lastPrice (pt : PositionType) (m : Market) (l : List Ptr) :
    (db.setSideOrders pt m l).lastPrice = db.lastPrice := by cases pt <;> rfl

@[simp] theorem setSideOrders_cumulativePremiumFraction (pt : PositionType) (m : Market) (l : List Ptr) :
    (db.setSideOrders pt m l).cumulativePremiumFraction = db.cumulativePremiumFraction := by cases pt <;> rfl

@[simp] theorem setSideOrders_nextFundingTime (pt : PositionType) (m : Market) (l : List Ptr) :
    (db.setSideOrders pt m l).nextFundingTime = db.nextFundingTime := by cases pt <;> rfl

@[simp] theorem setSideOrders_nextSamplePITime (pt : PositionType) (m : Market) (l : List Ptr) :
    (db.setSideOrders pt m l).nextSamplePITime = db.nextSamplePITime := by cases pt <;> rfl

@[simp] theorem deref_setSideOrders (pt : PositionType) (m : Market) (l : List Ptr) (q : Ptr) :
    (db.setSideOrders pt m l).deref q = db.deref q := by cases pt <;> rfl

theorem sideOrders_setSideOrders (pt pt' : PositionType) (m m' : Market) (l : List Ptr) :
    (db.setSideOrders pt m l).sideOrders pt' m' = if pt' = pt ∧ m' = m then l else db.sideOrders pt' m' := by
  by_cases hm : m' = m
  · subst hm
    cases pt <;> cases pt' <;> simp [setSideOrders, sideOrders, AList.lookup_insert]
  · cases pt <;> cases pt' <;> simp [setSideOrders, sideOrders, hm, AList.lookup_insert_ne]

@[simp] theorem setRecord_orders (p : Ptr) (o : Order) : (db.setRecord p o).orders = db.orders := rfl

@[simp] theorem setRecord_sideOrders (p : Ptr) (o : Order) (pt : PositionType) (m : Market) :
    (db.setRecord p o).sideOrders pt m = db.sideOrders pt m := by cases pt <;> rfl

@[simp] theorem setRecord_traderMap (p : Ptr) (o : Order) : (db.setRecord p o).traderMap = db.traderMap := rfl

@[simp] theorem length_setRecord (p : Ptr) (o : Order) : (db.setRecord p o).heap.length = db.heap.length := by
  simp [setRecord]

theorem deref_setRecord (p q : Ptr) (o : Order) (hp : p < db.heap.length) :
    (db.setRecord p o).deref q = if q = p then o else db.deref q := by
  by_cases hq : q = p
  · subst hq; simp [setRecord, deref, hp]
  · simp [setRecord, deref, hq, Heap.read_write_other _ hq]

/-! ## Adding orders -/

/-- The predicate `AddInSortedArray` gives `sort.Search`: `order` goes before the order `o` already in the slice.
A long order goes before a lower bid and a short order before a higher ask; at the same price the earlier block
goes first, and in the same block an IOC order goes before everything. -/
def insertBefore (order o : Order) : Bool :=
  let priceFirst : Bool := match order.positionType with
    | .long => decide (o.price < order.price)
    | .short => decide (order.price < o.price)
  if priceFirst then true
  else if order.price = o.price then
    if order.blockNumber < o.blockNumber then true
    else if order.blockNumber = o.blockNumber then decide (order.orderType = .ioc)
    else false
  else false

/-- `AddInSortedArray`: insert the pointer at the first position of its side whose order it goes before. -/
def addInSortedArray (p : Ptr) : InMemoryDatabase :=
  let order := db.deref p
  let orders := db.sideOrders order.positionType order.market
  let position := search orders.length (fun i => insertBefore order (db.deref (orders.getD i 0)))
  db.setSideOrders order.positionType order.market (insertAt orders position p)

/-- The record `addOrderWithoutLock` stores: the order with `Placed` pushed at its own block. -/
def placedRecord (order : Order) : Order :=
  { order with lifecycleList := order.lifecycleList ++ [⟨toUint64 order.blockNumber, .placed, ""⟩] }

@[simp] theorem addInSortedArray_heap (p : Ptr) : (db.addInSortedArray p).heap = db.heap := by
  simp [addInSortedArray]

@[simp] theorem addInSortedArray_orders (p : Ptr) : (db.addInSortedArray p).orders = db.orders := by
  simp [addInSortedArray]

@[simp] theorem deref_addInSortedArray (p q : Ptr) : (db.addInSortedArray p).deref q = db.deref q := by
  simp [addInSortedArray]

theorem sideOrders_addInSortedArray_of_ne (p : Ptr) {pt : PositionType} {m : Market}
    (h : ¬(pt = (db.deref p).positionType ∧ m = (db.deref p).market)) :
    (db.addInSortedArray p).sideOrders pt m = db.sideOrders pt m := by
  unfold addInSortedArray
  dsimp only
  rw [sideOrders_setSideOrders, if_neg h]

/-- The side of the new pointer is the old side with the pointer inserted at the position `search` finds. -/
theorem sideOrders_addInSortedArray (p : Ptr) :
    (db.addInSortedArray p).sideOrders (db.deref p).positionType (db.deref p).market =
      insertAt (db.sideOrders (db.deref p).positionType (db.deref p).market)
        (search (db.sideOrders (db.deref p).positionType (db.deref p).market).length fun i =>
          insertBefore (db.deref p) (db.deref ((db.sideOrders (db.deref p).positionType (db.deref p).market).getD i 0)))
        p := by
  unfold addInSortedArray
  dsimp only
  rw [sideOrders_setSideOrders, if_pos ⟨rfl, rfl⟩]

@[simp] theorem addInSortedArray_traderMap (p : Ptr) : (db.addInSortedArray p).traderMap = db.traderMap := by
  simp [addInSortedArray]

@[simp] theorem addInSortedArray_lastPrice (p : Ptr) : (db.addInSortedArray p).lastPrice = db.lastPrice := by
  simp [addInSortedArray]

@[simp] theorem addInSortedArray_cumulativePremiumFraction (p : Ptr) :
    (db.addInSortedArray p).cumulativePremiumFraction = db.cumulativePremiumFraction := by
  simp [addInSortedArray]

@[simp] theorem addInSortedArray_nextFundingTime (p : Ptr) :
    (db.addInSortedArray p).nextFundingTime = db.nextFundingTime := by
  simp [addInSortedArray]

@[simp] theorem addInSortedArray_nextSamplePITime (p : Ptr) :
    (db.addInSortedArray p).nextSamplePITime = db.nextSamplePITime := by
  simp [addInSortedArray]

/-- `addInSortedArray` writes the sides only. -/
theorem addInSortedArray_eq_sides (p : Ptr) :
    ∃ l s, db.addInSortedArray p = { db with longOrders := l, shortOrders := s } := by
  unfold addInSortedArray
  dsimp only
  cases (db.deref p).positionType
  · exact ⟨_, _, rfl⟩
  · exact ⟨_, _, rfl⟩

@[simp] theorem sideOrders_withOrders (o : GoMap Hash Ptr) (pt : PositionType) (m : Market) :
    ({ db with orders := o } : InMemoryDatabase).sideOrders pt m = db.sideOrders pt m := by
  cases pt <;> rfl

/-- `addOrderWithoutLock`: allocate the record, insert its pointer into its side, map its id to it. -/
def addOrderWithoutLock (order : Order) : InMemoryDatabase :=
  let p := db.heap.length
  let db' := ({ db with heap := db.heap.alloc (placedRecord order) } : InMemoryDatabase).addInSortedArray p
  { db' with orders := db'.orders.insert order.id p }

/-- The side of the new order gains its pointer at the position `search` finds. -/
theorem sideOrders_addOrderWithoutLock (order : Order) :
    ∃ k, (db.addOrderWithoutLock order).sideOrders order.positionType order.market =
      insertAt (db.sideOrders order.positionType order.market) k db.heap.length := by
  let d₀ : InMemoryDatabase := { db with heap := db.heap.alloc (placedRecord order) }
  have hn : d₀.deref db.heap.length = placedRecord order := Heap.read_alloc_new _ _
  have hside₀ : ∀ pt m, d₀.sideOrders pt m = db.sideOrders pt m := fun pt m => by cases pt <;> rfl
  have h := sideOrders_addInSortedArray d₀ db.heap.length
  rw [hn, hside₀] at h
  unfold addOrderWithoutLock
  dsimp only
  rw [sideOrders_withOrders]
  exact ⟨_, h⟩

theorem sideOrders_addOrderWithoutLock_of_ne (order : Order) {pt : PositionType} {m : Market}
    (h : ¬(pt = order.positionType ∧ m = order.market)) :
    (db.addOrderWithoutLock order).sideOrders pt m = db.sideOrders pt m := by
  let d₀ : InMemoryDatabase := { db with heap := db.heap.alloc (placedRecord order) }
  have hn : d₀.deref db.heap.length = placedRecord order := Heap.read_alloc_new _ _
  have hside₀ : ∀ pt m, d₀.sideOrders pt m = db.sideOrders pt m := fun pt m => by cases pt <;> rfl
  unfold addOrderWithoutLock
  dsimp only
  rw [sideOrders_withOrders, ← hside₀]
  exact sideOrders_addInSortedArray_of_ne d₀ _ (by rw [hn]; exact h)

/-- `Add`: limit and IOC orders only. -/
def add (order : Order) : InMemoryDatabase :=
  if order.orderType ≠ .limit ∧ order.orderType ≠ .ioc then db else db.addOrderWithoutLock order

/-- `updateVirtualReservedMargin`: a trader seen for the first time starts blank. -/
def updateVirtualReservedMargin (trader : Address) (addAmount : Int) : InMemoryDatabase :=
  let t := (db.traderMap.lookup trader).getD getBlankTrader
  let t' : Trader := { t with margin := { t.margin with virtualReserved := t.margin.virtualReserved + addAmount } }
  { db with traderMap := db.traderMap.insert trader t' }

@[simp] theorem updateVirtualReservedMargin_heap (trader : Address) (a : Int) :
    (db.updateVirtualReservedMargin trader a).heap = db.heap := rfl

@[simp] theorem updateVirtualReservedMargin_orders (trader : Address) (a : Int) :
    (db.updateVirtualReservedMargin trader a).orders = db.orders := rfl

@[simp] theorem updateVirtualReservedMargin_sideOrders (trader : Address) (a : Int) (pt : PositionType)
    (m : Market) : (db.updateVirtualReservedMargin trader a).sideOrders pt m = db.sideOrders pt m := by
  cases pt <;> rfl

@[simp] theorem deref_updateVirtualReservedMargin (trader : Address) (a : Int) (q : Ptr) :
    (db.updateVirtualReservedMargin trader a).deref q = db.deref q := rfl

/-- `AddSignedOrder`: signed orders only; the required margin is reserved virtually. -/
def addSignedOrder (order : Order) (requiredMargin : Int) : InMemoryDatabase :=
  if order.orderType ≠ .signed then db
  else (db.addOrderWithoutLock order).updateVirtualReservedMargin order.trader requiredMargin

/-! ## Deleting orders -/

/-- `getOrderIdx`: the first position whose record has the id (`-1` is `none`). -/
def getOrderIdx (orders : List Ptr) (orderId : Hash) : Option Nat :=
  orders.findIdx? (fun q => (db.deref q).id == orderId)

/-- `deleteOrderWithoutLock`. -/
def deleteOrderWithoutLock (cs : ConfigService) (orderId : Hash) : InMemoryDatabase :=
  match db.orders.lookup orderId with
  | none => db
  | some p =>
    let order := db.deref p
    let orders := db.sideOrders order.positionType order.market
    -- an id missing from its side is only logged
    let db₁ := match db.getOrderIdx orders orderId with
      | none => db
      | some idx => db.setSideOrders order.positionType order.market (removeAt orders idx)
    let db₂ := { db₁ with orders := db₁.orders.erase orderId }
    if order.orderType = .signed ∧ order.reduceOnly = false then
      let requiredMargin :=
        getRequiredMargin order.price (order.getUnFilledBaseAssetQuantity).natAbs cs.getMinAllowableMargin 0
      db₂.updateVirtualReservedMargin order.trader (-requiredMargin)
    else db₂

/-- `Delete`. -/
def delete (cs : ConfigService) (orderId : Hash) : InMemoryDatabase := db.deleteOrderWithoutLock cs orderId

/-! ## Writing one record -/

/-- The fill and the `FulFilled` push of `UpdateFilledBaseAssetQuantity`, before the reorg check. -/
def filledRecord (order : Order) (quantity : Int) (blockNumber : Nat) : Order :=
  let filled := match order.positionType with
    | .long => order.filledBaseAssetQuantity + quantity
    | .short => order.filledBaseAssetQuantity - quantity
  let order := { order with filledBaseAssetQuantity := filled }
  if order.baseAssetQuantity = order.filledBaseAssetQuantity then
    { order with lifecycleList := order.lifecycleList ++ [⟨blockNumber, .fulFilled, ""⟩] }
  else order

/-- The margin step of `UpdateFilledBaseAssetQuantity`: a signed order that is not reduce-only gives back the
margin of the fill. -/
def fillMargin (cs : ConfigService) (order : Order) (quantity : Int) : InMemoryDatabase :=
  if order.orderType = .signed ∧ order.reduceOnly = false then
    db.updateVirtualReservedMargin order.trader (-getRequiredMargin order.price quantity cs.getMinAllowableMargin 0)
  else db

/-- `UpdateFilledBaseAssetQuantity`. A negative quantity is a reorg: it pops a `FulFilled` top, and on an empty
lifecycle stack it panics after the fill was written. -/
def updateFilledBaseAssetQuantity (cs : ConfigService) (quantity : Int) (orderId : Hash) (blockNumber : Nat) :
    Outcome InMemoryDatabase :=
  match db.orders.lookup orderId with
  | none => ⟨db, none⟩
  | some p =>
    let order := filledRecord (db.deref p) quantity blockNumber
    if quantity < 0 then
      match order.getOrderStatus with
      | .error e => ⟨db.setRecord p order, some e⟩
      | .ok l =>
        let order := if l.status = .fulFilled then { order with lifecycleList := order.lifecycleList.dropLast }
          else order
        ⟨(db.setRecord p order).fillMargin cs order quantity, none⟩
    else ⟨(db.setRecord p order).fillMargin cs order quantity, none⟩

/-- `SetOrderStatus`: push a status. -/
def setOrderStatus (orderId : Hash) (status : Status) (info : String) (blockNumber : Nat) :
    Except DbError InMemoryDatabase :=
  match db.orders.lookup orderId with
  | none => .error (.invalidOrderId orderId)
  | some p =>
    let o := db.deref p
    .ok (db.setRecord p { o with lifecycleList := o.lifecycleList ++ [⟨blockNumber, status, info⟩] })

/-- `RevertLastStatus`: pop a status, if there is one. -/
def revertLastStatus (orderId : Hash) : Except DbError InMemoryDatabase :=
  match db.orders.lookup orderId with
  | none => .error (.invalidOrderId orderId)
  | some p =>
    let o := db.deref p
    if 0 < o.lifecycleList.length then .ok (db.setRecord p { o with lifecycleList := o.lifecycleList.dropLast })
    else .ok db

/-! ## Reading a side -/

/-- `getReduceOnlyOrderDisplay`: a reduce-only order as far as it still reduces the trader's position. -/
def getReduceOnlyOrderDisplay (order : Order) : Except Panic (Option Order) :=
  match db.traderMap.lookup order.trader with
  | none => .ok none
  | some t =>
    match t.positions.lookup order.market with
    | none => .ok none
    | some position =>
      match position.size with
      | none => .error .nilDereference
      | some size =>
        if size.sign = 0 ∨ size.sign = order.baseAssetQuantity.sign then .ok none
        else if order.getUnFilledBaseAssetQuantity.natAbs ≤ size.natAbs then .ok (some order)
        else .ok (some { order with filledBaseAssetQuantity := order.baseAssetQuantity + size })

/-- `getCleanOrder`: `Placed` orders, and `Execution_Failed` ones `RETRY_AFTER_BLOCKS` blocks later, unless
expired at `now`. -/
def getCleanOrder (order : Order) (blockNumber : Option Int) (now : Int) : Except Panic (Option Order) := do
  let orderStatus ← order.getOrderStatus
  let eligibleForExecution : Bool := match orderStatus.status with
    | .placed => true
    | .executionFailed =>
      match blockNumber with
      | some bn => decide ((orderStatus.blockNumber + RETRY_AFTER_BLOCKS) % 2 ^ 64 ≤ toUint64 bn)
      | none => false
    | _ => false
  let expireAt ← order.getExpireAt
  let eligibleForExecution := eligibleForExecution && !(0 < expireAt && toInt64 expireAt ≤ now)
  if eligibleForExecution then
    if order.reduceOnly then db.getReduceOnlyOrderDisplay order else return some order
  else return none

/-- The bound a side's walk stops at: below `lowerbound` for bids, above `upperbound` for asks. -/
def pastBound : PositionType → Int → Option Int → Bool
  | _, _, none => false
  | .long, price, some bound => decide (price < bound)
  | .short, price, some bound => decide (bound < price)

/-- The loop of `getLongOrdersWithoutLock` and `getShortOrdersWithoutLock` over one side's pointers. -/
def collectOrders (pt : PositionType) (bound : Option Int) (blockNumber : Option Int) (now : Int)
    (shouldClean : Bool) : List Ptr → Except Panic (List Order)
  | [] => .ok []
  | p :: ps =>
    let order := db.deref p
    if pastBound pt order.price bound then .ok []
    else if shouldClean then do
      let clean ← db.getCleanOrder order blockNumber now
      let rest ← collectOrders pt bound blockNumber now shouldClean ps
      return clean.toList ++ rest
    else do
      let rest ← collectOrders pt bound blockNumber now shouldClean ps
      return order :: rest

/-- One side of a market, up to a price bound. -/
def getOrdersWithoutLock (pt : PositionType) (market : Market) (bound : Option Int) (blockNumber : Option Int)
    (now : Int) (shouldClean : Bool) : Except Panic (List Order) :=
  db.collectOrders pt bound blockNumber now shouldClean (db.sideOrders pt market)

/-- `getLongOrdersWithoutLock`. -/
def getLongOrdersWithoutLock (market : Market) (lowerbound : Option Int) (blockNumber : Option Int) (now : Int)
    (shouldClean : Bool) : Except Panic (List Order) :=
  db.getOrdersWithoutLock .long market lowerbound blockNumber now shouldClean

/-- `getShortOrdersWithoutLock`. -/
def getShortOrdersWithoutLock (market : Market) (upperbound : Option Int) (blockNumber : Option Int) (now : Int)
    (shouldClean : Bool) : Except Panic (List Order) :=
  db.getOrdersWithoutLock .short market upperbound blockNumber now shouldClean

/-- `GetLongOrders`. -/
def getLongOrders (market : Market) (lowerbound : Option Int) (blockNumber : Option Int) (now : Int) :
    Except Panic (List Order) :=
  db.getLongOrdersWithoutLock market lowerbound blockNumber now true

/-- `GetShortOrders`. -/
def getShortOrders (market : Market) (upperbound : Option Int) (blockNumber : Option Int) (now : Int) :
    Except Panic (List Order) :=
  db.getShortOrdersWithoutLock market upperbound blockNumber now true

/-- `GetOrderById`: a copy of the record the map reaches. -/
def getOrderById (orderId : Hash) : Option Order := (db.orders.lookup orderId).map db.deref

/-- `GetAllOrders`, for the order in which the runtime visits the map's entries. -/
def getAllOrders (visit : List (Σ _ : Hash, Ptr)) : List Order := visit.map fun e => db.deref e.2

/-! ## Accept and expiry -/

/-- `shouldRemove`: filled or cancelled at or before the accepted block, or an IOC order expired at the block's
time. -/
def shouldRemove (acceptedBlockNumber blockTimestamp : Nat) (order : Order) : Except Panic RemovalStatus := do
  let lifecycle ← order.getOrderStatus
  if (lifecycle.status = .fulFilled ∨ lifecycle.status = .cancelled) ∧
      lifecycle.blockNumber ≤ acceptedBlockNumber then
    return .REMOVE
  if order.orderType = .limit then return .KEEP
  -- expired signed orders leave through `RemoveExpiredSignedOrders` only
  if order.orderType = .signed then return .KEEP
  let expireAt ← order.getExpireAt
  if 0 < expireAt ∧ toInt64 expireAt < wrapInt64 blockTimestamp then return .REMOVE
  return .KEEP

/-- The loop of `Accept` over the copies of one side: delete what `shouldRemove` says, stop on a panic. -/
def acceptOrders (cs : ConfigService) (acceptedBlockNumber blockTimestamp : Nat) :
    List Order → InMemoryDatabase → Outcome InMemoryDatabase
  | [], d => ⟨d, none⟩
  | o :: os, d =>
    match shouldRemove acceptedBlockNumber blockTimestamp o with
    | .error e => ⟨d, some e⟩
    | .ok .REMOVE => acceptOrders cs acceptedBlockNumber blockTimestamp os (d.deleteOrderWithoutLock cs o.id)
    | .ok .KEEP => acceptOrders cs acceptedBlockNumber blockTimestamp os d

/-- The market loop of `Accept`. Both sides are copied (`getLongOrdersWithoutLock(m, nil, nil, false)` copies
every record) before the long side's deletions. -/
def acceptMarkets (cs : ConfigService) (acceptedBlockNumber blockTimestamp : Nat) :
    List Market → InMemoryDatabase → Outcome InMemoryDatabase
  | [], d => ⟨d, none⟩
  | m :: ms, d =>
    let longOrders := (d.sideOrders .long m).map d.deref
    let shortOrders := (d.sideOrders .short m).map d.deref
    match acceptOrders cs acceptedBlockNumber blockTimestamp longOrders d with
    | ⟨d₁, some e⟩ => ⟨d₁, some e⟩
    | ⟨d₁, none⟩ =>
      match acceptOrders cs acceptedBlockNumber blockTimestamp shortOrders d₁ with
      | ⟨d₂, some e⟩ => ⟨d₂, some e⟩
      | ⟨d₂, none⟩ => acceptMarkets cs acceptedBlockNumber blockTimestamp ms d₂

/-- `Accept`: the markets `0, …, GetActiveMarketsCount() - 1`. -/
def accept (cs : ConfigService) (acceptedBlockNumber blockTimestamp : Nat) : Outcome InMemoryDatabase :=
  acceptMarkets cs acceptedBlockNumber blockTimestamp
    ((List.range cs.getActiveMarketsCount.toNat).map Int.ofNat) db

/-- The loop of `RemoveExpiredSignedOrders` over the map's entries, in the order the runtime visits them. -/
def removeExpired (cs : ConfigService) (now : Int) :
    List (Σ _ : Hash, Ptr) → InMemoryDatabase → Outcome InMemoryDatabase
  | [], d => ⟨d, none⟩
  | e :: es, d =>
    let order := d.deref e.2
    if order.orderType = .signed then
      match order.getExpireAt with
      | .error err => ⟨d, some err⟩
      | .ok expireAt =>
        if toInt64 expireAt ≤ now then removeExpired cs now es (d.deleteOrderWithoutLock cs order.id)
        else removeExpired cs now es d
    else removeExpired cs now es d

/-- `RemoveExpiredSignedOrders` at time `now`, visiting the entries in the order `visit`. -/
def removeExpiredSignedOrders (cs : ConfigService) (now : Int) (visit : List (Σ _ : Hash, Ptr)) :
    Outcome InMemoryDatabase :=
  removeExpired cs now visit db

end InMemoryDatabase

end Hubblenet
