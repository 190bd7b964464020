import Hubblenet.Orderbook.VirtualReserved

/-!
# Taking a batch back on a reorg

When the chain drops blocks, the node delivers their logs again with `Removed` set, and `ProcessEvents` takes them
back newest first (`orderLogs_markRemoved`): a removed `OrderMatched` fills the opposite amount and pops a
`FulFilled` on top, a removed `OrderMatchingError` or `OrderCancelAccepted` pops the status its log pushed, and a
removed `OrderAccepted` deletes the order.

`LiveEq d d'` says that `d'` holds the book of `d`: the same map and sides, over a heap that extends `d`'s by records
nothing reaches. A removed log does the same on two databases with one book (`liveEq_handleEvent_removed`), and the
removed copy of a log takes back what the log did (`handleEvent_reorg`, from `unfill_filledRecord`,
`revertLastStatus_setOrderStatus` and `deleteOrderWithoutLock_addOrderWithoutLock`). So taking back a batch newest
first restores the book it found (`applyLogs_reorg`, by induction on the batch).

* `processEvents_reorg_restores`: a batch and then its removed copies leave the order book as it was, and neither
  pass panics, when every fill of the batch is positive and reversible and every accepted order is new.

A fill is reversible when the order has a status and a `FulFilled` order is filled in full. Otherwise the reorg
indexes an empty stack, or pops a `FulFilled` that an earlier fill pushed.
-/

namespace Hubblenet

open Go Lib

/-- A fill a reorg takes back exactly: the order has a status, and a `FulFilled` order is filled in full. -/
def Order.FillReversible (o : Order) : Prop :=
  o.lifecycleList ≠ [] ∧
    (o.lifecycleList.getLast?.map (·.status) = some .fulFilled → o.filledBaseAssetQuantity = o.baseAssetQuantity)

namespace InMemoryDatabase

/-- The filled quantity after a fill of `quantity`: shorts count down. -/
def filledAfter (o : Order) (quantity : Int) : Int :=
  match o.positionType with
  | .long => o.filledBaseAssetQuantity + quantity
  | .short => o.filledBaseAssetQuantity - quantity

theorem filledRecord_eq (o : Order) (quantity : Int) (blockNumber : Nat) :
    filledRecord o quantity blockNumber =
      { o with
        filledBaseAssetQuantity := filledAfter o quantity
        lifecycleList := o.lifecycleList ++
          if o.baseAssetQuantity = filledAfter o quantity then [⟨blockNumber, .fulFilled, ""⟩] else [] } := by
  unfold filledRecord filledAfter
  cases o.positionType <;> dsimp only <;> split_ifs <;> simp

/-- A fill and the fill of its opposite leave the filled quantity where it was. -/
theorem filledAfter_unfill (o : Order) (quantity : Int) (blockNumber : Nat) :
    filledAfter (filledRecord o quantity blockNumber) (-quantity) = o.filledBaseAssetQuantity := by
  rw [filledRecord_eq]
  unfold filledAfter
  cases o.positionType <;> simp

/-- **The reorg of a fill restores the record**: the second fill brings the quantity back, and the status check pops
the `FulFilled` that one of the two fills pushed, or none when neither did. -/
theorem unfill_filledRecord {o : Order} (hu : o.FillReversible) {f : Int} (hf : f ≠ 0)
    (blockNumber blockNumber' : Nat) :
    ∃ l, (filledRecord (filledRecord o f blockNumber) (-f) blockNumber').getOrderStatus = .ok l ∧
      (if l.status = .fulFilled then
        { filledRecord (filledRecord o f blockNumber) (-f) blockNumber' with
          lifecycleList := (filledRecord (filledRecord o f blockNumber) (-f) blockNumber').lifecycleList.dropLast }
      else filledRecord (filledRecord o f blockNumber) (-f) blockNumber') = o := by
  obtain ⟨hne, hfull⟩ := hu
  have hmoved : filledAfter o f ≠ o.filledBaseAssetQuantity := by
    unfold filledAfter
    cases o.positionType <;> dsimp only <;> omega
  rw [filledRecord_eq (filledRecord o f blockNumber), filledAfter_unfill, filledRecord_eq o f blockNumber]
  dsimp only
  by_cases hA : o.baseAssetQuantity = filledAfter o f <;> by_cases hU : o.baseAssetQuantity = o.filledBaseAssetQuantity
  · exact absurd (hA.symm.trans hU) hmoved
  · -- the fill pushed `FulFilled`, the reorg pops it
    simp only [eq_true hA, eq_false hU, if_true, if_false, List.append_nil, Order.getOrderStatus,
      List.getLast?_append_of_ne_nil _ (List.cons_ne_nil _ _)]
    exact ⟨_, rfl, by simp⟩
  · -- the reorg pushes `FulFilled` again and pops it
    simp only [eq_false hA, eq_true hU, if_true, if_false, List.append_nil, Order.getOrderStatus]
    exact ⟨_, by rw [List.getLast?_concat], by simp⟩
  · -- neither pushed, and the status on top is not `FulFilled`
    obtain ⟨l, hl⟩ := Option.isSome_iff_exists.mp (List.getLast?_isSome.mpr hne)
    have hst : l.status ≠ .fulFilled := fun h => hU (hfull (by rw [hl, Option.map_some, h])).symm
    simp only [eq_false hA, eq_false hU, if_false, List.append_nil, Order.getOrderStatus, hl]
    exact ⟨l, rfl, by simp [hst]⟩

/-! ## The book a reorg restores -/

/-- `d'` holds the order book of `d`: the same map and the same sides, over a heap that extends `d`'s by records
nothing reaches. -/
structure LiveEq (d d' : InMemoryDatabase) : Prop where
  heap : d.heap <+: d'.heap
  orders : ∀ id, d'.orders.lookup id = d.orders.lookup id
  sides : ∀ pt m, d'.sideOrders pt m = d.sideOrders pt m

@[simp] theorem fillMargin_sideOrders (db : InMemoryDatabase) (cs : ConfigService) (o : Order) (quantity : Int)
    (pt : PositionType) (m : Market) : (db.fillMargin cs o quantity).sideOrders pt m = db.sideOrders pt m := by
  unfold fillMargin
  split <;> simp

theorem setRecord_setRecord (db : InMemoryDatabase) (p : Ptr) (o o' : Order) :
    (db.setRecord p o).setRecord p o' = db.setRecord p o' := by
  simp [setRecord, Heap.write]

theorem setRecord_deref (db : InMemoryDatabase) {p : Ptr} (hp : p < db.heap.length) :
    db.setRecord p (db.deref p) = db := by
  simp [setRecord, deref, Heap.write, Heap.read, List.getD_eq_getElem?_getD, hp]

namespace LiveEq

variable {d d' d'' : InMemoryDatabase}

theorem refl (d : InMemoryDatabase) : LiveEq d d := ⟨List.prefix_refl _, fun _ => rfl, fun _ _ => rfl⟩

theorem trans (h₁ : LiveEq d d') (h₂ : LiveEq d' d'') : LiveEq d d'' :=
  ⟨h₁.heap.trans h₂.heap, fun id => (h₂.orders id).trans (h₁.orders id),
    fun pt m => (h₂.sides pt m).trans (h₁.sides pt m)⟩

/-- A pointer into the smaller heap reaches the same record. -/
theorem deref (h : LiveEq d d') {q : Ptr} (hq : q < d.heap.length) : d'.deref q = d.deref q := by
  obtain ⟨junk, hj⟩ := h.heap
  simp only [InMemoryDatabase.deref, ← hj]
  exact Heap.read_append_left hq junk

theorem setRecord (h : LiveEq d d') {p : Ptr} (hp : p < d.heap.length) (o : Order) :
    LiveEq (d.setRecord p o) (d'.setRecord p o) := by
  obtain ⟨junk, hj⟩ := h.heap
  refine ⟨⟨junk, ?_⟩, fun id => h.orders id, fun pt m => by simp [h.sides pt m]⟩
  simp [InMemoryDatabase.setRecord, Heap.write, ← hj, List.set_append_left _ _ hp]

theorem fillMargin_both (h : LiveEq d d') (cs : ConfigService) (o : Order) (quantity : Int) :
    LiveEq (d.fillMargin cs o quantity) (d'.fillMargin cs o quantity) :=
  ⟨by simpa using h.heap, by simpa using h.orders, by simpa using h.sides⟩

theorem updateVirtualReservedMargin_both (h : LiveEq d d') (trader : Address) (a : Int) :
    LiveEq (d.updateVirtualReservedMargin trader a) (d'.updateVirtualReservedMargin trader a) :=
  ⟨by simpa using h.heap, by simpa using h.orders, by simpa using h.sides⟩

theorem setSideOrders (h : LiveEq d d') (pt : PositionType) (m : Market) (l : List Ptr) :
    LiveEq (d.setSideOrders pt m l) (d'.setSideOrders pt m l) :=
  ⟨by simpa using h.heap, by simpa using h.orders, fun pt' m' => by simp [sideOrders_setSideOrders, h.sides]⟩

theorem eraseOrder (h : LiveEq d d') (orderId : Hash) :
    LiveEq { d with orders := d.orders.erase orderId } { d' with orders := d'.orders.erase orderId } := by
  refine ⟨h.heap, fun id => ?_, fun pt m => by simp [h.sides]⟩
  by_cases hid : id = orderId
  · subst hid
    simp
  · simp [AList.lookup_erase_ne hid, h.orders]

/-- The margin writes leave the book. -/
theorem fillMargin (h : LiveEq d d') (cs : ConfigService) (o : Order) (quantity : Int) :
    LiveEq d (d'.fillMargin cs o quantity) :=
  ⟨by simpa using h.heap, by simpa using h.orders, by simpa using h.sides⟩

theorem updateVirtualReservedMargin (h : LiveEq d d') (trader : Address) (a : Int) :
    LiveEq d (d'.updateVirtualReservedMargin trader a) :=
  ⟨by simpa using h.heap, by simpa using h.orders, by simpa using h.sides⟩

theorem getOrderIdx (h : LiveEq d d') {l : List Ptr} (hl : ∀ q ∈ l, q < d.heap.length) (orderId : Hash) :
    d'.getOrderIdx l orderId = d.getOrderIdx l orderId := by
  have hmap : l.map d'.deref = l.map d.deref := List.map_congr_left fun q hq => h.deref (hl q hq)
  unfold InMemoryDatabase.getOrderIdx
  rw [show (fun q => (d'.deref q).id == orderId) = (fun o : Order => o.id == orderId) ∘ d'.deref from rfl,
    ← List.findIdx?_map, hmap, List.findIdx?_map]
  rfl

/-! ### The writes of a removed log, on two databases with one book -/

variable (hi : BookInv d) (h : LiveEq d d')
include hi h

theorem updateFilledBaseAssetQuantity (cs : ConfigService) (quantity : Int) (orderId : Hash) (blockNumber : Nat) :
    (d'.updateFilledBaseAssetQuantity cs quantity orderId blockNumber).panic =
        (d.updateFilledBaseAssetQuantity cs quantity orderId blockNumber).panic ∧
      LiveEq (d.updateFilledBaseAssetQuantity cs quantity orderId blockNumber).state
        (d'.updateFilledBaseAssetQuantity cs quantity orderId blockNumber).state := by
  unfold InMemoryDatabase.updateFilledBaseAssetQuantity
  rw [h.orders]
  cases hp : d.orders.lookup orderId with
  | none => exact ⟨rfl, h⟩
  | some p =>
    have hlt := (hi.orders_ptr _ _ hp).1
    dsimp only
    rw [h.deref hlt]
    split_ifs
    · split
      · exact ⟨rfl, h.setRecord hlt _⟩
      · exact ⟨rfl, (h.setRecord hlt _).fillMargin_both cs _ _⟩
    · exact ⟨rfl, (h.setRecord hlt _).fillMargin_both cs _ _⟩

theorem revertLastStatus (orderId : Hash) :
    LiveEq (ContractEventsProcessor.keepOnError d (d.revertLastStatus orderId))
      (ContractEventsProcessor.keepOnError d' (d'.revertLastStatus orderId)) := by
  unfold InMemoryDatabase.revertLastStatus
  rw [h.orders]
  cases hp : d.orders.lookup orderId with
  | none => exact h
  | some p =>
    have hlt := (hi.orders_ptr _ _ hp).1
    dsimp only
    rw [h.deref hlt]
    split_ifs
    · exact h.setRecord hlt _
    · exact h

theorem deleteOrderWithoutLock (cs : ConfigService) (orderId : Hash) :
    LiveEq (d.deleteOrderWithoutLock cs orderId) (d'.deleteOrderWithoutLock cs orderId) := by
  unfold InMemoryDatabase.deleteOrderWithoutLock
  rw [h.orders]
  cases hp : d.orders.lookup orderId with
  | none => exact h
  | some p =>
    have hlt := (hi.orders_ptr _ _ hp).1
    dsimp only
    rw [h.deref hlt, h.sides, h.getOrderIdx fun q hq => hi.side_lt hq]
    -- the same side is cut at the same index on both, and the same id unmapped
    cases d.getOrderIdx (d.sideOrders (d.deref p).positionType (d.deref p).market) orderId with
    | none =>
      dsimp only
      split_ifs
      · exact (h.eraseOrder orderId).updateVirtualReservedMargin_both _ _
      · exact h.eraseOrder orderId
    | some idx =>
      dsimp only
      split_ifs
      · exact ((h.setSideOrders _ _ _).eraseOrder orderId).updateVirtualReservedMargin_both _ _
      · exact (h.setSideOrders _ _ _).eraseOrder orderId

end LiveEq

/-! ### A log and its removed copy -/

variable {d : InMemoryDatabase}

/-- **A removed `OrderAccepted` takes the order back out**: the side loses the pointer the order gained and the map
its id, and the record stays behind in the heap. -/
theorem deleteOrderWithoutLock_addOrderWithoutLock (hi : BookInv d) {order : Order}
    (hfresh : d.orders.lookup order.id = none) (cs : ConfigService) :
    LiveEq d ((d.addOrderWithoutLock order).deleteOrderWithoutLock cs order.id) := by
  have hi₁ := bookInv_addOrderWithoutLock hi hfresh
  have hp : (d.addOrderWithoutLock order).orders.lookup order.id = some d.heap.length := by
    simp [addOrderWithoutLock]
  have hrec : (d.addOrderWithoutLock order).deref d.heap.length = placedRecord order := by
    simp [addOrderWithoutLock, deref]
  obtain ⟨idx, hidx, hrm⟩ := hi₁.getOrderIdx_eq hp
  obtain ⟨k, hk⟩ := sideOrders_addOrderWithoutLock d order
  have hnot : d.heap.length ∉ d.sideOrders order.positionType order.market := fun hq =>
    lt_irrefl _ (hi.side_lt hq)
  -- the order's side and map as they were, over the heap with the order's record
  have hback : LiveEq d { (d.addOrderWithoutLock order).setSideOrders order.positionType order.market
      (d.sideOrders order.positionType order.market) with
      orders := ((d.addOrderWithoutLock order).setSideOrders order.positionType order.market
        (d.sideOrders order.positionType order.market)).orders.erase order.id } := by
    refine ⟨⟨[placedRecord order], by simp [addOrderWithoutLock, Heap.alloc]⟩, fun id => ?_, fun pt m => ?_⟩
    · by_cases hid : id = order.id
      · subst hid
        simp [hfresh]
      · simp [AList.lookup_erase_ne hid, addOrderWithoutLock, AList.lookup_insert_ne hid]
    · rw [sideOrders_withOrders, sideOrders_setSideOrders]
      split_ifs with hs
      · rw [hs.1, hs.2]
      · exact sideOrders_addOrderWithoutLock_of_ne d order hs
  unfold deleteOrderWithoutLock
  rw [hp]
  dsimp only
  rw [hidx]
  dsimp only
  have hpt : (placedRecord order).positionType = order.positionType := rfl
  have hmk : (placedRecord order).market = order.market := rfl
  rw [hrm, hrec, hpt, hmk, hk, erase_insertAt hnot]
  split
  · exact hback.updateVirtualReservedMargin _ _
  · exact hback

/-- **A removed `OrderMatched` takes the fill back**, without a panic. -/
theorem updateFilledBaseAssetQuantity_unfill (hi : BookInv d) (cs : ConfigService) {orderId : Hash} {f : Int}
    (hf : 0 < f) (hrev : ∀ p, d.orders.lookup orderId = some p → (d.deref p).FillReversible)
    (blockNumber blockNumber' : Nat) :
    ((d.updateFilledBaseAssetQuantity cs f orderId blockNumber).state.updateFilledBaseAssetQuantity cs (-f) orderId
        blockNumber').panic = none ∧
      LiveEq d ((d.updateFilledBaseAssetQuantity cs f orderId blockNumber).state.updateFilledBaseAssetQuantity cs (-f)
        orderId blockNumber').state := by
  cases hp : d.orders.lookup orderId with
  | none => simp [updateFilledBaseAssetQuantity, hp, LiveEq.refl]
  | some p =>
    have hlt := (hi.orders_ptr _ _ hp).1
    obtain ⟨l, hl, hrecord⟩ := unfill_filledRecord (hrev p hp) hf.ne' blockNumber blockNumber'
    rw [updateFilledBaseAssetQuantity_of_nonneg hp hf.le]
    -- the fill wrote the filled record at `p`; the reorg writes the original back
    set d₁ := d.setRecord p (filledRecord (d.deref p) f blockNumber)
    have hp₁ : (d₁.fillMargin cs (filledRecord (d.deref p) f blockNumber) f).orders.lookup orderId = some p := by
      simpa [d₁] using hp
    have hd₁ : (d₁.fillMargin cs (filledRecord (d.deref p) f blockNumber) f).deref p =
        filledRecord (d.deref p) f blockNumber := by
      simp [d₁, deref_setRecord _ _ _ _ hlt]
    have hback :
        LiveEq d ((d₁.fillMargin cs (filledRecord (d.deref p) f blockNumber) f).setRecord p (d.deref p)) := by
      have h := ((LiveEq.refl d₁).fillMargin cs (filledRecord (d.deref p) f blockNumber) f).setRecord
        (by simpa [d₁] using hlt) (d.deref p)
      rwa [setRecord_setRecord, setRecord_deref _ hlt] at h
    simp only [updateFilledBaseAssetQuantity, hp₁, hd₁, Left.neg_neg_iff, hf, if_true, hl, hrecord]
    exact ⟨trivial, hback.fillMargin _ _ _⟩

/-- A removed `OrderMatchingError` or `OrderCancelAccepted` pops the status its log pushed. -/
theorem revertLastStatus_setOrderStatus (hi : BookInv d) {orderId : Hash} {status : Status} {info : String}
    {blockNumber : Nat} :
    ContractEventsProcessor.keepOnError (ContractEventsProcessor.keepOnError d
      (d.setOrderStatus orderId status info blockNumber))
      ((ContractEventsProcessor.keepOnError d (d.setOrderStatus orderId status info blockNumber)).revertLastStatus
        orderId) = d := by
  unfold setOrderStatus
  cases hp : d.orders.lookup orderId with
  | none => simp [ContractEventsProcessor.keepOnError, revertLastStatus, hp]
  | some p =>
    have hlt := (hi.orders_ptr _ _ hp).1
    simp [ContractEventsProcessor.keepOnError, revertLastStatus, hp, deref_setRecord _ _ _ _ hlt,
      setRecord_setRecord, setRecord_deref _ hlt]

theorem BookInv.steps (hi : BookInv d) {d' : InMemoryDatabase} (h : Relation.ReflTransGen Step d d') :
    BookInv d' := by
  induction h with
  | refl => exact hi
  | tail _ hs ih => exact ih.step hs

theorem updateFilledBaseAssetQuantity_panic_of_nonneg (cs : ConfigService) {quantity : Int} (hq : 0 ≤ quantity)
    (orderId : Hash) (blockNumber : Nat) :
    (d.updateFilledBaseAssetQuantity cs quantity orderId blockNumber).panic = none := by
  unfold updateFilledBaseAssetQuantity
  split
  · rfl
  · simp [Int.not_lt.mpr hq]

end InMemoryDatabase

/-- The copy of a log that the node delivers again, `Removed` set, when a reorg drops its block. -/
def Log.markRemoved (l : Log) : Log := { l with removed := true }

namespace ContractEventsProcessor

open InMemoryDatabase

instance (o : Order) : Decidable o.FillReversible := inferInstanceAs (Decidable (_ ∧ _))

/-- What a log asks of the book it is applied to, for a reorg to take it back exactly: a match fills a positive
amount of an order whose fill is reversible, and an accepted order is new. -/
def Undoable (d : InMemoryDatabase) : ContractLog → Prop
  | .orderBook (.orderMatched _ orderId fillAmount) =>
    0 < fillAmount ∧ ∀ p ∈ d.orders.lookup orderId, (d.deref p).FillReversible
  | .orderBook (.orderMatchingError _ _) => True
  | .orderBook .other => True
  | .limitOrderBook (.orderAccepted _ orderId _) => d.orders.lookup orderId = none
  | .limitOrderBook (.orderCancelAccepted _) => True
  | .limitOrderBook .other => True
  | .iocOrderBook (.orderAccepted _ orderId _) => d.orders.lookup orderId = none
  | .iocOrderBook .other => True
  | .signedOrderBook _ => True
  | .other => True

instance (d : InMemoryDatabase) : (event : ContractLog) → Decidable (Undoable d event)
  | .orderBook (.orderMatched _ _ _) => inferInstanceAs (Decidable (_ ∧ _))
  | .orderBook (.orderMatchingError _ _) => isTrue trivial
  | .orderBook .other => isTrue trivial
  | .limitOrderBook (.orderAccepted _ _ _) => inferInstanceAs (Decidable (_ = _))
  | .limitOrderBook (.orderCancelAccepted _) => isTrue trivial
  | .limitOrderBook .other => isTrue trivial
  | .iocOrderBook (.orderAccepted _ _ _) => inferInstanceAs (Decidable (_ = _))
  | .iocOrderBook .other => isTrue trivial
  | .signedOrderBook _ => isTrue trivial
  | .other => isTrue trivial

variable (cs : ConfigService) {d : InMemoryDatabase}

theorem addsFresh_of_undoable {event : Log} (hr : event.removed = false) (hu : Undoable d event.event) :
    AddsFresh d event := by
  obtain ⟨e, _, _, _⟩ := event
  unfold AddsFresh
  cases e with
  | limitOrderBook e => cases e <;> simp_all [Undoable]
  | iocOrderBook e => cases e <;> simp_all [Undoable]
  | _ => trivial

/-- **A log and its removed copy leave the book**: neither panics. -/
theorem handleEvent_reorg (hi : BookInv d) {event : Log} (hr : event.removed = false) (hu : Undoable d event.event) :
    (handleEvent cs d event).panic = none ∧
      (handleEvent cs (handleEvent cs d event).state event.markRemoved).panic = none ∧
      LiveEq d (handleEvent cs (handleEvent cs d event).state event.markRemoved).state := by
  obtain ⟨e, blockNumber, index, removed⟩ := event
  subst hr
  cases e with
  | orderBook e =>
    cases e with
    | orderMatched trader orderId fillAmount =>
      obtain ⟨hf, hrev⟩ := hu
      refine ⟨updateFilledBaseAssetQuantity_panic_of_nonneg cs hf.le _ _, ?_⟩
      exact updateFilledBaseAssetQuantity_unfill hi cs hf hrev _ _
    | orderMatchingError orderId err =>
      simp only [handleEvent, handleOrderBookEvent, Log.markRemoved, Bool.not_false, Bool.not_true,
        Bool.false_eq_true, ↓reduceIte, revertLastStatus_setOrderStatus hi]
      exact ⟨trivial, trivial, .refl d⟩
    | other => exact ⟨rfl, rfl, .refl d⟩
  | limitOrderBook e =>
    cases e with
    | orderAccepted trader orderId order =>
      simp only [handleEvent, handleLimitOrderBookEvent, Log.markRemoved, Bool.not_false, Bool.not_true,
        Bool.false_eq_true, ↓reduceIte, add, delete]
      have hty : (limitOrderRecord trader orderId order blockNumber).orderType = .limit := rfl
      have hfresh : d.orders.lookup (limitOrderRecord trader orderId order blockNumber).id = none := hu
      rw [if_neg (by simp [hty])]
      exact ⟨trivial, trivial, deleteOrderWithoutLock_addOrderWithoutLock hi hfresh cs⟩
    | orderCancelAccepted orderId =>
      simp only [handleEvent, handleLimitOrderBookEvent, Log.markRemoved, Bool.not_false, Bool.not_true,
        Bool.false_eq_true, ↓reduceIte, revertLastStatus_setOrderStatus hi]
      exact ⟨trivial, trivial, .refl d⟩
    | other => exact ⟨rfl, rfl, .refl d⟩
  | iocOrderBook e =>
    cases e with
    | orderAccepted trader orderId order =>
      simp only [handleEvent, handleIOCOrderBookEvent, Log.markRemoved, Bool.not_false, Bool.not_true,
        Bool.false_eq_true, ↓reduceIte, add, delete]
      have hty : (iocOrderRecord trader orderId order blockNumber).orderType = .ioc := rfl
      have hfresh : d.orders.lookup (iocOrderRecord trader orderId order blockNumber).id = none := hu
      rw [if_neg (by simp [hty])]
      exact ⟨trivial, trivial, deleteOrderWithoutLock_addOrderWithoutLock hi hfresh cs⟩
    | other => exact ⟨rfl, rfl, .refl d⟩
  | signedOrderBook e =>
    cases e with
    | orderCancelAccepted orderId =>
      simp only [handleEvent, handleSignedOrderBookEvent, Log.markRemoved, Bool.not_false, Bool.not_true,
        Bool.false_eq_true, ↓reduceIte, revertLastStatus_setOrderStatus hi]
      exact ⟨trivial, trivial, .refl d⟩
    | other => exact ⟨rfl, rfl, .refl d⟩
  | other => exact ⟨rfl, rfl, .refl d⟩

/-- A removed log does the same on two databases with one book. -/
theorem liveEq_handleEvent_removed {d' : InMemoryDatabase} (hi : BookInv d) (h : LiveEq d d') {event : Log}
    (hr : event.removed = true) :
    (handleEvent cs d' event).panic = (handleEvent cs d event).panic ∧
      LiveEq (handleEvent cs d event).state (handleEvent cs d' event).state := by
  obtain ⟨e, blockNumber, index, removed⟩ := event
  subst hr
  cases e with
  | orderBook e =>
    cases e with
    | orderMatched _ orderId fillAmount => exact h.updateFilledBaseAssetQuantity hi cs _ orderId blockNumber
    | orderMatchingError orderId _ => exact ⟨rfl, h.revertLastStatus hi orderId⟩
    | other => exact ⟨rfl, h⟩
  | limitOrderBook e =>
    cases e with
    | orderAccepted _ orderId _ => exact ⟨rfl, h.deleteOrderWithoutLock hi cs orderId⟩
    | orderCancelAccepted orderId => exact ⟨rfl, h.revertLastStatus hi orderId⟩
    | other => exact ⟨rfl, h⟩
  | iocOrderBook e =>
    cases e with
    | orderAccepted _ orderId _ => exact ⟨rfl, h.deleteOrderWithoutLock hi cs orderId⟩
    | other => exact ⟨rfl, h⟩
  | signedOrderBook e =>
    cases e with
    | orderCancelAccepted orderId => exact ⟨rfl, h.revertLastStatus hi orderId⟩
    | other => exact ⟨rfl, h⟩
  | other => exact ⟨rfl, h⟩

/-- Every log of the batch is live and, in the state it is applied to, one a reorg can take back. -/
def UndoRun : List Log → InMemoryDatabase → Prop
  | [], _ => True
  | event :: events, d =>
    event.removed = false ∧ Undoable d event.event ∧ UndoRun events (handleEvent cs d event).state

instance decUndoRun : (events : List Log) → (d : InMemoryDatabase) → Decidable (UndoRun cs events d)
  | [], _ => isTrue trivial
  | event :: events, d =>
    have := decUndoRun events (handleEvent cs d event).state
    inferInstanceAs (Decidable (_ ∧ _ ∧ _))

theorem applyLogs_append : ∀ (events events' : List Log) (d : InMemoryDatabase),
    (applyLogs cs events d).panic = none →
      applyLogs cs (events ++ events') d = applyLogs cs events' (applyLogs cs events d).state
  | [], _, _, _ => rfl
  | event :: events, events', d, h => by
    simp only [List.cons_append, applyLogs] at h ⊢
    split at h
    · cases h
    · rename_i d₁ _
      exact applyLogs_append events events' d₁ h

theorem applyLogs_singleton (event : Log) (d : InMemoryDatabase) :
    applyLogs cs [event] d = handleEvent cs d event := by
  simp only [applyLogs]
  split <;> simp_all

/-- **Taking back a batch, newest first, restores the book it was applied to**, over every database whose book
is that of the batch's end: by induction on the batch, the removed copy of the first log meets the book its log
made (`handleEvent_reorg`), on a database the rest of the reorg leaves with that book (`liveEq_handleEvent_removed`). -/
theorem applyLogs_reorg : ∀ (events : List Log) (d : InMemoryDatabase), BookInv d → UndoRun cs events d →
    (applyLogs cs events d).panic = none ∧ ∀ d', LiveEq (applyLogs cs events d).state d' →
      (applyLogs cs (events.reverse.map Log.markRemoved) d').panic = none ∧
        LiveEq d (applyLogs cs (events.reverse.map Log.markRemoved) d').state
  | [], _, _, _ => ⟨rfl, fun _ h => ⟨rfl, h⟩⟩
  | event :: events, d, hi, ⟨hr, hu, hrest⟩ => by
    obtain ⟨hp₀, hp₁, hback⟩ := handleEvent_reorg cs hi hr hu
    have hi₁ : BookInv (handleEvent cs d event).state :=
      hi.steps (handleEvent_steps cs d event (addsFresh_of_undoable hr hu))
    obtain ⟨hpanic, hrev⟩ := applyLogs_reorg events _ hi₁ hrest
    have happly : applyLogs cs (event :: events) d = applyLogs cs events (handleEvent cs d event).state := by
      simp only [applyLogs]
      split <;> simp_all
    rw [happly]
    refine ⟨hpanic, fun d' h => ?_⟩
    obtain ⟨hp₂, h₂⟩ := hrev d' h
    rw [List.reverse_cons, List.map_append, applyLogs_append cs _ _ _ hp₂, List.map_singleton, applyLogs_singleton]
    have hrm : event.markRemoved.removed = true := rfl
    obtain ⟨hp₃, h₃⟩ := liveEq_handleEvent_removed cs hi₁ h₂ hrm
    exact ⟨hp₃.trans hp₁, hback.trans h₃⟩

/-- The key `ProcessEvents` sorts by. -/
theorem logAtOrAfter_iff (a b : Log) :
    logAtOrAfter a b = true ↔
      b.blockNumber < a.blockNumber ∨ b.blockNumber = a.blockNumber ∧ b.index ≤ a.index := by
  simp [logAtOrAfter]

theorem logAtOrAfter_markRemoved (a b : Log) : logAtOrAfter a.markRemoved b.markRemoved = logAtOrAfter a b := rfl

/-- **The removed copies of a batch are taken back in the reverse order of the batch**, on logs at distinct
`(BlockNumber, Index)`. -/
theorem orderLogs_markRemoved {logs : List Log} (hlive : ∀ l ∈ logs, l.removed = false)
    (hkeys : (logs.map fun l => (l.blockNumber, l.index)).Nodup) :
    orderLogs (logs.map Log.markRemoved) = (orderLogs logs).reverse.map Log.markRemoved := by
  -- "at or after" and "at or before" are total preorders on `(BlockNumber, Index)`
  have htotal : Std.Total fun a b : Log => logAtOrAfter a b = true :=
    ⟨fun a b => by simp only [logAtOrAfter_iff]; omega⟩
  have htrans : IsTrans Log fun a b => logAtOrAfter a b = true :=
    ⟨fun a b c => by simp only [logAtOrAfter_iff]; omega⟩
  have htotal' : Std.Total fun a b : Log => logAtOrAfter b a = true :=
    ⟨fun a b => by simp only [logAtOrAfter_iff]; omega⟩
  have htrans' : IsTrans Log fun a b => logAtOrAfter b a = true :=
    ⟨fun a b c => by simp only [logAtOrAfter_iff]; omega⟩
  have hdead : logs.filter (·.removed) = [] := List.filter_eq_nil_iff.mpr fun l hl => by simp [hlive l hl]
  have hborn : logs.filter (fun l => !l.removed) = logs := List.filter_eq_self.mpr fun l hl => by simp [hlive l hl]
  have hdead' : (logs.map Log.markRemoved).filter (·.removed) = logs.map Log.markRemoved :=
    List.filter_eq_self.mpr fun l hl => by obtain ⟨l, -, rfl⟩ := List.mem_map.mp hl; rfl
  have hborn' : (logs.map Log.markRemoved).filter (fun l => !l.removed) = [] :=
    List.filter_eq_nil_iff.mpr fun l hl => by obtain ⟨l, -, rfl⟩ := List.mem_map.mp hl; simp [Log.markRemoved]
  simp only [orderLogs, hdead, hborn, hdead', hborn', List.insertionSort_nil, List.nil_append, List.append_nil]
  have hperm : (((logs.insertionSort fun a b => logAtOrAfter b a = true).reverse).map Log.markRemoved).Perm
      (logs.map Log.markRemoved) := ((List.reverse_perm _).trans (List.perm_insertionSort _ _)).map _
  have hkeys' : ((logs.map Log.markRemoved).map fun l => (l.blockNumber, l.index)).Nodup := by
    simpa [List.map_map, Function.comp_def, Log.markRemoved] using hkeys
  -- two lists sorted "at or after", of the same logs with distinct keys
  refine List.Perm.eq_of_pairwise ?_ (List.pairwise_insertionSort _ _) ?_
    ((List.perm_insertionSort _ _).trans hperm.symm)
  · intro a b ha hb hab hba
    refine List.inj_on_of_nodup_map hkeys' ((List.perm_insertionSort _ _).subset ha) (hperm.subset hb) ?_
    rw [logAtOrAfter_iff] at hab hba
    simp only [Prod.mk.injEq]
    omega
  · rw [List.pairwise_map, List.pairwise_reverse]
    simp only [logAtOrAfter_markRemoved]
    exact List.pairwise_insertionSort _ _

theorem UndoRun.live : ∀ {events : List Log} {d : InMemoryDatabase}, UndoRun cs events d →
    ∀ event ∈ events, event.removed = false
  | [], _, _ => fun _ h => absurd h List.not_mem_nil
  | _ :: _, _, ⟨hr, _, hrest⟩ => fun _ h => by
    rcases List.mem_cons.mp h with rfl | h
    · exact hr
    · exact UndoRun.live hrest _ h

theorem perm_orderLogs (logs : List Log) : (orderLogs logs).Perm logs :=
  ((List.perm_insertionSort _ _).append (List.perm_insertionSort _ _)).trans (List.filter_append_perm _ _)

/-- **A reorg restores the order book.** When the blocks of a batch are dropped and the node delivers its logs
again as removed, `ProcessEvents` takes them back newest first and leaves the map, the sides and every record the
book reaches as the batch found them, with the records of the orders it accepted left unreachable in the heap;
neither pass panics. This holds for logs at distinct `(BlockNumber, Index)` that, applied in turn, each fill a
positive amount of an order whose fill is reversible and accept only new ids (`UndoRun`). The traders' virtual
reserved margins are not part of the book, and are not restored (`processEvents_reorg_virtualReserved`). -/
theorem processEvents_reorg_restores (hi : BookInv d) {logs : List Log}
    (hkeys : (logs.map fun l => (l.blockNumber, l.index)).Nodup) (hrun : UndoRun cs (orderLogs logs) d) :
    (processEvents cs d logs).panic = none ∧
      (processEvents cs (processEvents cs d logs).state (logs.map Log.markRemoved)).panic = none ∧
      LiveEq d (processEvents cs (processEvents cs d logs).state (logs.map Log.markRemoved)).state := by
  have hlive : ∀ l ∈ logs, l.removed = false := fun l hl => hrun.live cs l ((perm_orderLogs logs).symm.subset hl)
  obtain ⟨hp, hrev⟩ := applyLogs_reorg cs _ d hi hrun
  refine ⟨hp, ?_⟩
  unfold processEvents
  rw [orderLogs_markRemoved hlive hkeys]
  exact hrev _ (.refl _)

end ContractEventsProcessor

open ContractEventsProcessor InMemoryDatabase

/-- `filledLimitOrder` accepted, matched in full and then failing a second match, in one block. -/
def reorgBatch : List Log :=
  [{ event := .limitOrderBook (.orderAccepted 7 1 filledLimitOrder), blockNumber := 1, index := 0, removed := false },
   { event := .orderBook (.orderMatched 7 1 (10 ^ 18)), blockNumber := 1, index := 1, removed := false },
   { event := .orderBook (.orderMatchingError 1 "order already filled"), blockNumber := 1, index := 2,
     removed := false }]

theorem reorgBatch_restored :
    (processEvents {} newInMemoryDatabase reorgBatch).panic = none ∧
      (processEvents {} (processEvents {} newInMemoryDatabase reorgBatch).state
        (reorgBatch.map Log.markRemoved)).panic = none ∧
      LiveEq newInMemoryDatabase (processEvents {} (processEvents {} newInMemoryDatabase reorgBatch).state
        (reorgBatch.map Log.markRemoved)).state :=
  processEvents_reorg_restores {} bookInv_new (by decide) (by decide +kernel)

end Hubblenet
