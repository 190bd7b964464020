import Hubblenet.Orderbook.AcceptedEvents

/-!
# The order book of a run

The validator applies the order book's logs and the accepted logs on two subscriptions, one batch at a time under
one lock, in whatever order the batches arrive. `run_accounts_eq_acceptedOnly` shows that the accounts of a run are
those of its accepted batches alone; this module shows the other half: the order book of a run, with every trader's
virtual reserved margin, is one the order book's writes reach alone (`run_book_reachable`).

`SameBook d d'` says that two states hold the same records, map, sides and virtual reserved margins. The order book's
writes read nothing else, so each of them, on two states with the same book, leaves two states with the same book
and panics alike (`SameBook.deleteOrderWithoutLock`, `SameBook.updateFilledBaseAssetQuantity`, the loops of `Accept`
and `RemoveExpiredSignedOrders`); hence a write of one is a write of the other (`Step.simulate`). An accepted log
writes none of it (`sameBook_handleAcceptedEvent`), so in a run the accepted batches stutter.
-/

namespace Hubblenet.InMemoryDatabase

open Go Lib

/-- `d'` holds the order book `d` holds: the records, the map, both sides of every market, and every trader's virtual
reserved margin. -/
structure SameBook (d d' : InMemoryDatabase) : Prop where
  heap : d'.heap = d.heap
  orders : d'.orders = d.orders
  longOrders : d'.longOrders = d.longOrders
  shortOrders : d'.shortOrders = d.shortOrders
  virtualReserved : ∀ trader,
    (d'.accountOf trader).margin.virtualReserved = (d.accountOf trader).margin.virtualReserved

/-- `updateVirtualReservedMargin` moves the virtual reserved margin of its trader only. -/
theorem virtualReserved_updateVirtualReservedMargin (d : InMemoryDatabase) (trader : Address) (a : Int)
    (tr : Address) :
    ((d.updateVirtualReservedMargin trader a).accountOf tr).margin.virtualReserved =
      if tr = trader then (d.accountOf tr).margin.virtualReserved + a
      else (d.accountOf tr).margin.virtualReserved := by
  rw [accountOf_of_traderMap_insert rfl]
  split_ifs with htr
  · subst htr
    rfl
  · rfl

namespace SameBook

variable {d₁ d₂ d₃ : InMemoryDatabase}

theorem refl (d : InMemoryDatabase) : SameBook d d := ⟨rfl, rfl, rfl, rfl, fun _ => rfl⟩

theorem trans (h₁₂ : SameBook d₁ d₂) (h₂₃ : SameBook d₂ d₃) : SameBook d₁ d₃ :=
  ⟨h₂₃.heap.trans h₁₂.heap, h₂₃.orders.trans h₁₂.orders, h₂₃.longOrders.trans h₁₂.longOrders,
    h₂₃.shortOrders.trans h₁₂.shortOrders, fun t => (h₂₃.virtualReserved t).trans (h₁₂.virtualReserved t)⟩

theorem symm (h : SameBook d₁ d₂) : SameBook d₂ d₁ :=
  ⟨h.heap.symm, h.orders.symm, h.longOrders.symm, h.shortOrders.symm, fun t => (h.virtualReserved t).symm⟩

/-! ## What the order book's writes read -/

section Reads

variable (h : SameBook d₁ d₂)
include h

theorem deref_eq : d₂.deref = d₁.deref := by
  funext q
  simp only [InMemoryDatabase.deref, h.heap]

theorem sideOrders_eq (pt : PositionType) (m : Market) : d₂.sideOrders pt m = d₁.sideOrders pt m := by
  cases pt <;> simp only [InMemoryDatabase.sideOrders, h.longOrders, h.shortOrders]

theorem getOrderIdx_eq (orders : List Ptr) (orderId : Hash) :
    d₂.getOrderIdx orders orderId = d₁.getOrderIdx orders orderId := by
  simp only [InMemoryDatabase.getOrderIdx, h.deref_eq]

end Reads

/-! ## The order book's writes -/

section Writes

variable (h : SameBook d₁ d₂)
include h

theorem withHeap {heap₁ heap₂ : Heap Order} (hh : heap₂ = heap₁) :
    SameBook { d₁ with heap := heap₁ } { d₂ with heap := heap₂ } :=
  ⟨hh, h.orders, h.longOrders, h.shortOrders, h.virtualReserved⟩

theorem withOrders {orders₁ orders₂ : GoMap Hash Ptr} (ho : orders₂ = orders₁) :
    SameBook { d₁ with orders := orders₁ } { d₂ with orders := orders₂ } :=
  ⟨h.heap, ho, h.longOrders, h.shortOrders, h.virtualReserved⟩

theorem setRecord (p : Ptr) (o : Order) : SameBook (d₁.setRecord p o) (d₂.setRecord p o) :=
  h.withHeap (by rw [h.heap])

theorem setSideOrders (pt : PositionType) (m : Market) (l : List Ptr) :
    SameBook (d₁.setSideOrders pt m l) (d₂.setSideOrders pt m l) := by
  cases pt
  · exact ⟨h.heap, h.orders, by simp only [InMemoryDatabase.setSideOrders, h.longOrders], h.shortOrders,
      h.virtualReserved⟩
  · exact ⟨h.heap, h.orders, h.longOrders, by simp only [InMemoryDatabase.setSideOrders, h.shortOrders],
      h.virtualReserved⟩

theorem updateVirtualReservedMargin (trader : Address) (a : Int) :
    SameBook (d₁.updateVirtualReservedMargin trader a) (d₂.updateVirtualReservedMargin trader a) :=
  ⟨h.heap, h.orders, h.longOrders, h.shortOrders, fun tr => by
    simp only [virtualReserved_updateVirtualReservedMargin, h.virtualReserved]⟩

theorem addInSortedArray (p : Ptr) : SameBook (d₁.addInSortedArray p) (d₂.addInSortedArray p) := by
  unfold InMemoryDatabase.addInSortedArray
  simp only [h.deref_eq, h.sideOrders_eq]
  exact h.setSideOrders _ _ _

theorem addOrderWithoutLock (order : Order) :
    SameBook (d₁.addOrderWithoutLock order) (d₂.addOrderWithoutLock order) := by
  unfold InMemoryDatabase.addOrderWithoutLock
  simp only [h.heap]
  let heap := d₁.heap.alloc (placedRecord order)
  have halloc := (h.withHeap (rfl : heap = heap)).addInSortedArray d₁.heap.length
  exact halloc.withOrders (by rw [halloc.orders])

theorem add (order : Order) : SameBook (d₁.add order) (d₂.add order) := by
  unfold InMemoryDatabase.add
  split_ifs
  · exact h
  · exact h.addOrderWithoutLock order

theorem addSignedOrder (order : Order) (requiredMargin : Int) :
    SameBook (d₁.addSignedOrder order requiredMargin) (d₂.addSignedOrder order requiredMargin) := by
  unfold InMemoryDatabase.addSignedOrder
  split_ifs
  · exact h
  · exact (h.addOrderWithoutLock order).updateVirtualReservedMargin _ _

theorem deleteOrderWithoutLock (cs : ConfigService) (orderId : Hash) :
    SameBook (d₁.deleteOrderWithoutLock cs orderId) (d₂.deleteOrderWithoutLock cs orderId) := by
  unfold InMemoryDatabase.deleteOrderWithoutLock
  rw [h.orders]
  cases d₁.orders.lookup orderId with
  | none => exact h
  | some p =>
    simp only [h.deref_eq, h.sideOrders_eq, h.getOrderIdx_eq]
    -- the side and the map lose the order on both states alike
    have hunlink : ∀ {e₁ e₂ : InMemoryDatabase}, SameBook e₁ e₂ →
        SameBook { e₁ with orders := e₁.orders.erase orderId } { e₂ with orders := e₂.orders.erase orderId } :=
      fun he => he.withOrders (by rw [he.orders])
    cases d₁.getOrderIdx (d₁.sideOrders (d₁.deref p).positionType (d₁.deref p).market) orderId with
    | none =>
      split_ifs
      · exact (hunlink h).updateVirtualReservedMargin _ _
      · exact hunlink h
    | some idx =>
      split_ifs
      · exact (hunlink (h.setSideOrders _ _ _)).updateVirtualReservedMargin _ _
      · exact hunlink (h.setSideOrders _ _ _)

theorem fillMargin (cs : ConfigService) (o : Order) (quantity : Int) :
    SameBook (d₁.fillMargin cs o quantity) (d₂.fillMargin cs o quantity) := by
  unfold InMemoryDatabase.fillMargin
  split_ifs
  · exact h.updateVirtualReservedMargin _ _
  · exact h

theorem updateFilledBaseAssetQuantity (cs : ConfigService) (quantity : Int) (orderId : Hash) (blockNumber : Nat) :
    SameBook (d₁.updateFilledBaseAssetQuantity cs quantity orderId blockNumber).state
        (d₂.updateFilledBaseAssetQuantity cs quantity orderId blockNumber).state ∧
      (d₁.updateFilledBaseAssetQuantity cs quantity orderId blockNumber).panic =
        (d₂.updateFilledBaseAssetQuantity cs quantity orderId blockNumber).panic := by
  unfold InMemoryDatabase.updateFilledBaseAssetQuantity
  rw [h.orders]
  cases d₁.orders.lookup orderId with
  | none => exact ⟨h, rfl⟩
  | some p =>
    simp only [h.deref_eq]
    split_ifs
    · -- a reorg pops a `FulFilled` top, and panics on an empty lifecycle stack
      split
      · exact ⟨h.setRecord _ _, rfl⟩
      · exact ⟨(h.setRecord _ _).fillMargin cs _ quantity, rfl⟩
    · exact ⟨(h.setRecord _ _).fillMargin cs _ quantity, rfl⟩

theorem setOrderStatus {orderId : Hash} {status : Status} {info : String} {blockNumber : Nat} {d₁' : InMemoryDatabase}
    (hs : d₁.setOrderStatus orderId status info blockNumber = .ok d₁') :
    ∃ d₂', d₂.setOrderStatus orderId status info blockNumber = .ok d₂' ∧ SameBook d₁' d₂' := by
  unfold InMemoryDatabase.setOrderStatus at hs ⊢
  rw [h.orders]
  cases hp : d₁.orders.lookup orderId with
  | none => simp [hp] at hs
  | some p =>
    simp only [hp, Except.ok.injEq] at hs
    subst hs
    exact ⟨_, rfl, by simpa only [h.deref_eq] using h.setRecord p _⟩

theorem revertLastStatus {orderId : Hash} {d₁' : InMemoryDatabase} (hs : d₁.revertLastStatus orderId = .ok d₁') :
    ∃ d₂', d₂.revertLastStatus orderId = .ok d₂' ∧ SameBook d₁' d₂' := by
  unfold InMemoryDatabase.revertLastStatus at hs ⊢
  rw [h.orders]
  cases hp : d₁.orders.lookup orderId with
  | none => simp [hp] at hs
  | some p =>
    simp only [hp, h.deref_eq] at hs ⊢
    split_ifs at hs ⊢
    · cases hs
      exact ⟨_, rfl, h.setRecord p _⟩
    · cases hs
      exact ⟨_, rfl, h⟩

end Writes

/-! ## The loops -/

theorem acceptOrders (cs : ConfigService) (acceptedBlockNumber blockTimestamp : Nat) :
    ∀ (os : List Order) {d₁ d₂ : InMemoryDatabase}, SameBook d₁ d₂ →
      SameBook (InMemoryDatabase.acceptOrders cs acceptedBlockNumber blockTimestamp os d₁).state
          (InMemoryDatabase.acceptOrders cs acceptedBlockNumber blockTimestamp os d₂).state ∧
        (InMemoryDatabase.acceptOrders cs acceptedBlockNumber blockTimestamp os d₁).panic =
          (InMemoryDatabase.acceptOrders cs acceptedBlockNumber blockTimestamp os d₂).panic
  | [], _, _, h => ⟨h, rfl⟩
  | o :: os, d₁, d₂, h => by
    simp only [InMemoryDatabase.acceptOrders]
    -- the verdict reads the copied record only
    cases shouldRemove acceptedBlockNumber blockTimestamp o with
    | error e => exact ⟨h, rfl⟩
    | ok r =>
      cases r with
      | REMOVE => exact acceptOrders cs acceptedBlockNumber blockTimestamp os (h.deleteOrderWithoutLock cs o.id)
      | KEEP => exact acceptOrders cs acceptedBlockNumber blockTimestamp os h

theorem acceptMarkets (cs : ConfigService) (acceptedBlockNumber blockTimestamp : Nat) :
    ∀ (ms : List Market) {d₁ d₂ : InMemoryDatabase}, SameBook d₁ d₂ →
      SameBook (InMemoryDatabase.acceptMarkets cs acceptedBlockNumber blockTimestamp ms d₁).state
          (InMemoryDatabase.acceptMarkets cs acceptedBlockNumber blockTimestamp ms d₂).state ∧
        (InMemoryDatabase.acceptMarkets cs acceptedBlockNumber blockTimestamp ms d₁).panic =
          (InMemoryDatabase.acceptMarkets cs acceptedBlockNumber blockTimestamp ms d₂).panic
  | [], _, _, h => ⟨h, rfl⟩
  | m :: ms, d₁, d₂, h => by
    simp only [InMemoryDatabase.acceptMarkets, h.sideOrders_eq, h.deref_eq]
    -- both states copy the same sides, so the loops over them stop alike
    obtain ⟨hl, hlp⟩ := acceptOrders cs acceptedBlockNumber blockTimestamp
      ((d₁.sideOrders .long m).map d₁.deref) h
    generalize InMemoryDatabase.acceptOrders cs acceptedBlockNumber blockTimestamp
      ((d₁.sideOrders .long m).map d₁.deref) d₁ = r₁ at hl hlp ⊢
    generalize InMemoryDatabase.acceptOrders cs acceptedBlockNumber blockTimestamp
      ((d₁.sideOrders .long m).map d₁.deref) d₂ = r₂ at hl hlp ⊢
    obtain ⟨e₁, p₁⟩ := r₁
    obtain ⟨e₂, p₂⟩ := r₂
    dsimp only at hl hlp
    subst hlp
    cases p₁ with
    | some e => exact ⟨hl, rfl⟩
    | none =>
      dsimp only
      obtain ⟨hs, hsp⟩ := acceptOrders cs acceptedBlockNumber blockTimestamp
        ((d₁.sideOrders .short m).map d₁.deref) hl
      generalize InMemoryDatabase.acceptOrders cs acceptedBlockNumber blockTimestamp
        ((d₁.sideOrders .short m).map d₁.deref) e₁ = s₁ at hs hsp ⊢
      generalize InMemoryDatabase.acceptOrders cs acceptedBlockNumber blockTimestamp
        ((d₁.sideOrders .short m).map d₁.deref) e₂ = s₂ at hs hsp ⊢
      obtain ⟨f₁, q₁⟩ := s₁
      obtain ⟨f₂, q₂⟩ := s₂
      dsimp only at hs hsp
      subst hsp
      cases q₁ with
      | some e => exact ⟨hs, rfl⟩
      | none =>
        dsimp only
        exact acceptMarkets cs acceptedBlockNumber blockTimestamp ms hs

theorem removeExpired (cs : ConfigService) (now : Int) :
    ∀ (es : List (Σ _ : Hash, Ptr)) {d₁ d₂ : InMemoryDatabase}, SameBook d₁ d₂ →
      SameBook (InMemoryDatabase.removeExpired cs now es d₁).state (InMemoryDatabase.removeExpired cs now es d₂).state ∧
        (InMemoryDatabase.removeExpired cs now es d₁).panic = (InMemoryDatabase.removeExpired cs now es d₂).panic
  | [], _, _, h => ⟨h, rfl⟩
  | e :: es, d₁, d₂, h => by
    simp only [InMemoryDatabase.removeExpired, h.deref_eq]
    split_ifs
    · split
      · exact ⟨h, rfl⟩
      · split_ifs
        · exact removeExpired cs now es (h.deleteOrderWithoutLock cs _)
        · exact removeExpired cs now es h
    · exact removeExpired cs now es h

end SameBook

/-- **A write of the order book on one state is a write on every state with the same book**, leaving the same book. -/
theorem Step.simulate {d₁ d₁' d₂ : InMemoryDatabase} (hs : Step d₁ d₁') (h : SameBook d₁ d₂) :
    ∃ d₂', Step d₂ d₂' ∧ SameBook d₁' d₂' := by
  cases hs with
  | add order hfresh => exact ⟨_, .add d₂ order (by rw [h.orders]; exact hfresh), h.add order⟩
  | addSignedOrder order requiredMargin hfresh =>
    exact ⟨_, .addSignedOrder d₂ order requiredMargin (by rw [h.orders]; exact hfresh),
      h.addSignedOrder order requiredMargin⟩
  | delete cs orderId => exact ⟨_, .delete d₂ cs orderId, h.deleteOrderWithoutLock cs orderId⟩
  | accept cs a t => exact ⟨_, .accept d₂ cs a t, (SameBook.acceptMarkets cs a t _ h).1⟩
  | removeExpiredSignedOrders cs now visit =>
    exact ⟨_, .removeExpiredSignedOrders d₂ cs now visit, (SameBook.removeExpired cs now visit h).1⟩
  | updateFilledBaseAssetQuantity cs q orderId b =>
    exact ⟨_, .updateFilledBaseAssetQuantity d₂ cs q orderId b, (h.updateFilledBaseAssetQuantity cs q orderId b).1⟩
  | setOrderStatus _ _ _ _ _ hok =>
    obtain ⟨d₂', hd₂', hsame⟩ := h.setOrderStatus hok
    exact ⟨d₂', .setOrderStatus d₂ d₂' _ _ _ _ hd₂', hsame⟩
  | revertLastStatus _ _ hok =>
    obtain ⟨d₂', hd₂', hsame⟩ := h.revertLastStatus hok
    exact ⟨d₂', .revertLastStatus d₂ d₂' _ hd₂', hsame⟩

/-! ## The accepted logs stutter -/

section Accepted

variable {sortSlice : (AcceptedLog → AcceptedLog → Bool) → List AcceptedLog → List AcceptedLog}
  {d₀ d : InMemoryDatabase} {batches : List (ConfigService × List AcceptedLog)} {handled : List AcceptedLog}

/-- No accepted log moves a virtual reserved margin: the margin account's logs write deposits and reservations, the
clearing house's no margin at all. -/
theorem virtualReserved_handleAcceptedEvent (cs : ConfigService) (event : AcceptedLog) (tr : Address) :
    ((ContractEventsProcessor.handleAcceptedEvent cs d event).state.accountOf tr).margin.virtualReserved =
      (d.accountOf tr).margin.virtualReserved := by
  obtain ⟨ev, _, _⟩ := event
  cases ev with
  | marginAccount e =>
    simp only [ContractEventsProcessor.handleAcceptedEvent]
    cases e <;> simp only [ContractEventsProcessor.handleMarginAccountEvent] <;>
      first
      | rfl
      | (rw [accountOf_of_traderMap_insert rfl]; split_ifs with htr <;> [(subst htr; rfl); rfl])
  | clearingHouse e => exact congrArg Margin.virtualReserved (margin_handleClearingHouseEvent e tr)
  | other => rfl

theorem sameBook_handleAcceptedEvent (cs : ConfigService) (event : AcceptedLog) :
    SameBook d (ContractEventsProcessor.handleAcceptedEvent cs d event).state := by
  obtain ⟨hh, ho, hl, hs⟩ := book_handleAcceptedEvent (d := d) cs event
  exact ⟨hh, ho, hl, hs, virtualReserved_handleAcceptedEvent cs event⟩

theorem sameBook_applyAcceptedLogs (cs : ConfigService) :
    ∀ (events : List AcceptedLog) (d : InMemoryDatabase),
      SameBook d (ContractEventsProcessor.applyAcceptedLogs cs events d).state
  | [], d => .refl d
  | event :: events, d => by
    have hstep := sameBook_handleAcceptedEvent (d := d) cs event
    simp only [ContractEventsProcessor.applyAcceptedLogs]
    -- a panic ends the batch at the state its log left
    split
    · rename_i heq
      rw [heq] at hstep
      exact hstep
    · rename_i d' heq
      rw [heq] at hstep
      exact hstep.trans (sameBook_applyAcceptedLogs cs events d')

/-- **The order book does not depend on the accepted logs**: in every run, the records, the map, the sides and every
trader's virtual reserved margin are those of a state that the order book's writes reach alone from the run's start.
So every property of the book that the writes keep holds of every run, whatever accepted batches came between them. -/
theorem run_book_reachable (h : Run sortSlice d₀ batches handled d) :
    ∃ d', Relation.ReflTransGen Step d₀ d' ∧ SameBook d' d := by
  induction h with
  | refl => exact ⟨d₀, .refl, .refl d₀⟩
  | book _ hs ih =>
    -- the write of the run is matched by the same write on the book-only state
    obtain ⟨e, he, hsame⟩ := ih
    obtain ⟨e', hs', hsame'⟩ := hs.simulate hsame.symm
    exact ⟨e', he.tail hs', hsame'.symm⟩
  | accepted cs logs _ ih =>
    obtain ⟨e, he, hsame⟩ := ih
    exact ⟨e, he, hsame.trans (sameBook_applyAcceptedLogs cs _ _)⟩

theorem sampleRun_book :
    ∃ d', Relation.ReflTransGen Step newInMemoryDatabase d' ∧ SameBook d' sampleState :=
  run_book_reachable sampleRun

end Accepted

end Hubblenet.InMemoryDatabase
