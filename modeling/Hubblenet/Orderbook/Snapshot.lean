import Hubblenet.Orderbook.Events

/-!
# Copies and snapshots of the order book

`GetOrderBookDataCopy` copies the database through `gob`, which follows every pointer and decodes each into a record
of its own, so the copy's map and its sides no longer share records (`getOrderBookDataCopy`). At the moment of the
copy every read agrees, but no pointer of the copy's map is in a side (`getOrderBookDataCopy_reads_unshared`): a
status written through the map is not seen through the sides (`getOrderBookDataCopy_cancel_unseen`).

`saveMemoryDBSnapshot` writes the copy without its sides; `LoadFromSnapshot` takes the map, the traders, the prices
and the times, and rebuilds the sides by `AddInSortedArray`, visiting the map in the runtime's order. The rebuilt
sides hold the same records in the same book order, but orders the book cannot tell apart (same price, block and IOC
rank) come in the order of the visit (`loadFromSnapshot_tie_reordered`, `loadFromSnapshot_saved`).
-/

namespace Hubblenet

open Go Lib ContractEventsProcessor

namespace InMemoryDatabase

variable (db : InMemoryDatabase)

/-! ## The gob copy -/

/-- A slice through `gob`: its records appended to the heap `h`, the new slice pointing at them. -/
def cloneSlice (h : Heap Order) (ps : List Ptr) : Heap Order × List Ptr :=
  (h ++ ps.map db.deref, (List.range ps.length).map (h.length + ·))

/-- The slices of a map through `gob`, entry by entry. -/
def cloneSlices : List (Σ _ : Market, List Ptr) → Heap Order → Heap Order × List (Σ _ : Market, List Ptr)
  | [], h => (h, [])
  | e :: es, h =>
    let c := db.cloneSlice h e.2
    let rest := cloneSlices es c.1
    (rest.1, ⟨e.1, c.2⟩ :: rest.2)

theorem keys_cloneSlices : ∀ (es : List (Σ _ : Market, List Ptr)) (h : Heap Order),
    (db.cloneSlices es h).2.keys = es.keys
  | [], _ => rfl
  | e :: es, h => by
    simp only [cloneSlices, List.keys_cons, keys_cloneSlices es]

/-- A map of slices through `gob`: the same markets, new slices. -/
def cloneSliceMap (m : GoMap Market (List Ptr)) (h : Heap Order) : Heap Order × GoMap Market (List Ptr) :=
  ((db.cloneSlices m.entries h).1, ⟨(db.cloneSlices m.entries h).2, by
    unfold List.NodupKeys
    rw [keys_cloneSlices]
    exact m.nodupKeys⟩)

/-- `GetOrderBookDataCopy`. The map's records keep their places (the heap is copied whole) and the slices' records
are decoded once more, after them; traders, prices and times are values. -/
def getOrderBookDataCopy : InMemoryDatabase :=
  let long := db.cloneSliceMap db.longOrders db.heap
  let short := db.cloneSliceMap db.shortOrders long.1
  { db with heap := short.1, longOrders := long.2, shortOrders := short.2 }

theorem cloneSlices_fst : ∀ (es : List (Σ _ : Market, List Ptr)) (h : Heap Order),
    (db.cloneSlices es h).1 = h ++ es.flatMap fun e => e.2.map db.deref
  | [], h => by simp [cloneSlices]
  | e :: es, h => by simp [cloneSlices, cloneSlice, cloneSlices_fst es, List.append_assoc]

/-- A map's slices read through `r`. -/
def viewSlices (r : Ptr → Order) (es : List (Σ _ : Market, List Ptr)) : List (Σ _ : Market, List Order) :=
  es.map fun e => ⟨e.1, e.2.map r⟩

theorem dlookup_viewSlices (r : Ptr → Order) (k : Market) :
    ∀ es : List (Σ _ : Market, List Ptr), (viewSlices r es).dlookup k = (es.dlookup k).map (List.map r)
  | [] => rfl
  | ⟨a, b⟩ :: es => by
    by_cases hk : k = a
    · subst hk
      simp [viewSlices, List.dlookup_cons_eq]
    · rw [viewSlices, List.map_cons, List.dlookup_cons_ne _ _ hk, List.dlookup_cons_ne _ _ hk]
      exact dlookup_viewSlices r k es

/-- The copied slices read, in any heap that extends the copy's, the records of the originals. -/
theorem read_cloneSlices : ∀ (es : List (Σ _ : Market, List Ptr)) (h extra : Heap Order),
    viewSlices (Heap.read ((db.cloneSlices es h).1 ++ extra)) (db.cloneSlices es h).2 = viewSlices db.deref es
  | [], _, _ => rfl
  | e :: es, h, extra => by
    have hrest := cloneSlices_fst db es (h ++ e.2.map db.deref)
    have htail := read_cloneSlices es (h ++ e.2.map db.deref) extra
    have hblock := Heap.map_read_append_range h (e.2.map db.deref)
      ((es.flatMap fun e => e.2.map db.deref) ++ extra)
    rw [List.length_map] at hblock
    simp only [cloneSlices, cloneSlice, viewSlices, List.map_cons, List.cons.injEq] at htail ⊢
    refine ⟨?_, htail⟩
    rw [hrest, List.map_map]
    simpa [List.append_assoc, Function.comp_def] using congrArg (Sigma.mk (β := fun _ : Market => List Order) e.1) hblock

theorem lookup_cloneSliceMap (m : GoMap Market (List Ptr)) (h extra : Heap Order) (k : Market) :
    ((db.cloneSliceMap m h).2.lookup k).map (List.map (Heap.read ((db.cloneSliceMap m h).1 ++ extra))) =
      (m.lookup k).map (List.map db.deref) := by
  have hview := congrArg (List.dlookup k) (db.read_cloneSlices m.entries h extra)
  rw [dlookup_viewSlices, dlookup_viewSlices] at hview
  exact hview

/-- Every pointer of a copied slice is fresh. -/
theorem le_of_mem_cloneSlices : ∀ (es : List (Σ _ : Market, List Ptr)) (h : Heap Order),
    ∀ e ∈ (db.cloneSlices es h).2, ∀ q ∈ e.2, h.length ≤ q
  | [], _ => by simp [cloneSlices]
  | e :: es, h => by
    intro e' he' q hq
    simp only [cloneSlices, cloneSlice, List.mem_cons] at he'
    rcases he' with rfl | he'
    · simp only [List.mem_map, List.mem_range] at hq
      obtain ⟨i, -, rfl⟩ := hq
      omega
    · have := le_of_mem_cloneSlices es _ e' he' q hq
      simp only [List.length_append] at this
      omega

theorem heap_getOrderBookDataCopy : db.getOrderBookDataCopy.heap =
    (db.heap ++ db.longOrders.entries.flatMap fun e => e.2.map db.deref) ++
      db.shortOrders.entries.flatMap fun e => e.2.map db.deref := by
  simp only [getOrderBookDataCopy, cloneSliceMap, cloneSlices_fst]

@[simp] theorem orders_getOrderBookDataCopy : db.getOrderBookDataCopy.orders = db.orders := rfl

theorem deref_getOrderBookDataCopy {q : Ptr} (hq : q < db.heap.length) :
    db.getOrderBookDataCopy.deref q = db.deref q := by
  have hq' : q < (db.heap ++ db.longOrders.entries.flatMap fun e => e.2.map db.deref).length := by
    rw [List.length_append]
    exact Nat.lt_add_right _ hq
  rw [deref, heap_getOrderBookDataCopy, Heap.read_append_left hq', Heap.read_append_left hq]
  rfl

/-- **The copy reads the same sides** as the original, at the moment of the copy. -/
theorem held_getOrderBookDataCopy (pt : PositionType) (m : Market) :
    db.getOrderBookDataCopy.held pt m = db.held pt m := by
  have hgetD : ∀ (o : Option (List Ptr)) (f : Ptr → Order), (o.getD []).map f = (o.map (List.map f)).getD [] :=
    fun o f => by cases o <;> rfl
  cases pt with
  | long =>
    have hderef : db.getOrderBookDataCopy.deref = Heap.read ((db.cloneSliceMap db.longOrders db.heap).1 ++
        db.shortOrders.entries.flatMap fun e => e.2.map db.deref) := by
      funext q
      simp only [deref, getOrderBookDataCopy, cloneSliceMap, cloneSlices_fst]
    have hlook := db.lookup_cloneSliceMap db.longOrders db.heap
      (db.shortOrders.entries.flatMap fun e => e.2.map db.deref) m
    simp only [held, sideOrders]
    rw [hgetD, hgetD, hderef]
    exact congrArg (Option.getD · []) hlook
  | short =>
    have hlook := db.lookup_cloneSliceMap db.shortOrders (db.cloneSliceMap db.longOrders db.heap).1 [] m
    rw [List.append_nil] at hlook
    simp only [held, sideOrders]
    rw [hgetD, hgetD]
    exact congrArg (Option.getD · []) hlook

theorem getOrderById_getOrderBookDataCopy (hi : BookInv db) (orderId : Hash) :
    db.getOrderBookDataCopy.getOrderById orderId = db.getOrderById orderId := by
  unfold getOrderById
  rw [orders_getOrderBookDataCopy]
  cases hp : db.orders.lookup orderId with
  | none => rfl
  | some p => exact congrArg some (db.deref_getOrderBookDataCopy (hi.orders_ptr _ _ hp).1)

/-- Every pointer of a copied side is past the original heap. -/
theorem le_of_mem_sideOrders_getOrderBookDataCopy {pt : PositionType} {m : Market} {q : Ptr}
    (hq : q ∈ db.getOrderBookDataCopy.sideOrders pt m) : db.heap.length ≤ q := by
  have hmem : ∀ (s : GoMap Market (List Ptr)), q ∈ (s.lookup m).getD [] → ∃ ps, ⟨m, ps⟩ ∈ s.entries ∧ q ∈ ps := by
    intro s hs
    cases hl : s.lookup m with
    | none => rw [hl] at hs; cases hs
    | some ps => rw [hl] at hs; exact ⟨ps, AList.mem_lookup_iff.mp hl, hs⟩
  cases pt with
  | long =>
    obtain ⟨ps, hps, hq⟩ := hmem _ hq
    exact db.le_of_mem_cloneSlices _ _ _ hps q hq
  | short =>
    obtain ⟨ps, hps, hq⟩ := hmem _ hq
    have := db.le_of_mem_cloneSlices db.shortOrders.entries (db.cloneSliceMap db.longOrders db.heap).1 _ hps q hq
    simp only [cloneSliceMap, cloneSlices_fst, List.length_append] at this
    omega

/-- **The copy shares no record between its map and its sides**: the record the copy's map reaches for any order of
a consistent book is in no side of the copy. -/
theorem getOrderBookDataCopy_unshared (hi : BookInv db) {orderId : Hash} {p : Ptr}
    (hp : db.getOrderBookDataCopy.orders.lookup orderId = some p) (pt : PositionType) (m : Market) :
    p ∉ db.getOrderBookDataCopy.sideOrders pt m := by
  intro hmem
  have hlt := (hi.orders_ptr _ _ hp).1
  exact Nat.not_le.mpr hlt (db.le_of_mem_sideOrders_getOrderBookDataCopy hmem)

/-- **The gob copy reads like the book it copies, without sharing its records.** For every reachable book, the copy
holds the same orders in the same book order on every side and answers every lookup by id with the same order,
yet no record its map reaches is one its sides hold, so the two views of the copy part at its first write. -/
theorem getOrderBookDataCopy_reads_unshared (h : Reachable db) :
    (∀ pt m, db.getOrderBookDataCopy.held pt m = db.held pt m) ∧
      (∀ orderId, db.getOrderBookDataCopy.getOrderById orderId = db.getOrderById orderId) ∧
      ∀ orderId p, db.getOrderBookDataCopy.orders.lookup orderId = some p →
        ∀ pt m, p ∉ db.getOrderBookDataCopy.sideOrders pt m := by
  have hi := h.bookInv
  exact ⟨db.held_getOrderBookDataCopy, db.getOrderById_getOrderBookDataCopy hi,
    fun _ _ hp => db.getOrderBookDataCopy_unshared hi hp⟩

/-- A limit long and an IOC long tied at `1` in block 0, and a short at `2`, in market `0`. -/
def copyBook : InMemoryDatabase :=
  ((newInMemoryDatabase.add { (default : Order) with id := 1, baseAssetQuantity := 10 ^ 18, price := 10 ^ 6 }).add
    { mixedIOC with id := 2 }).add
    { (default : Order) with id := 3, positionType := .short, baseAssetQuantity := -10 ^ 18, price := 2 * 10 ^ 6 }

/-- The copy of `copyBook` keeps the IOC long ahead of its tie. -/
theorem copyBook_reads_unshared :
    Reachable copyBook ∧
      ((∀ pt m, copyBook.getOrderBookDataCopy.held pt m = copyBook.held pt m) ∧
        (∀ orderId, copyBook.getOrderBookDataCopy.getOrderById orderId = copyBook.getOrderById orderId) ∧
        ∀ orderId p, copyBook.getOrderBookDataCopy.orders.lookup orderId = some p →
          ∀ pt m, p ∉ copyBook.getOrderBookDataCopy.sideOrders pt m) ∧
      (copyBook.getOrderBookDataCopy.held .long 0).map (·.id) = [2, 1] := by
  have h : Reachable copyBook := .tail (.tail (.single (.add _ _ rfl)) (.add _ _ rfl)) (.add _ _ rfl)
  exact ⟨h, getOrderBookDataCopy_reads_unshared copyBook h, by decide +kernel⟩

/-- A limit long of one unit at price `1`, placed in block 1. -/
def copyOrder : Order :=
  { (default : Order) with id := 1, baseAssetQuantity := 10 ^ 18, price := 10 ^ 6, blockNumber := 1 }

/-- Cancelling an order of the copy is not seen by the copy's `GetLongOrders`, while the original stops returning
it. -/
theorem getOrderBookDataCopy_cancel_unseen :
    let D : InMemoryDatabase := newInMemoryDatabase.add copyOrder
    let afterCancel := fun d : InMemoryDatabase =>
      ((d.setOrderStatus 1 .cancelled "" 2).toOption.bind fun d => (d.getLongOrders 0 none none 0).toOption).map
        (List.map (·.id))
    Reachable D ∧ afterCancel D = some [] ∧ afterCancel D.getOrderBookDataCopy = some [1] :=
  ⟨.single (.add _ _ rfl), by decide +kernel, by decide +kernel⟩

/-! ## Snapshots -/

/-- `orderbook.Snapshot`. -/
structure Snapshot where
  data : InMemoryDatabase
  acceptedBlockNumber : Nat

/-- `saveMemoryDBSnapshot`: the copy, rolled back by the removed logs of the blocks after the accepted one, without
its sides. A panic of the rollback aborts the save. -/
def saveMemoryDBSnapshot (cs : ConfigService) (acceptedBlockNumber : Nat) (logsToRemove : List Log) :
    Except Panic Snapshot :=
  let r := processEvents cs db.getOrderBookDataCopy (logsToRemove.map fun l => { l with removed := true })
  match r.panic with
  | some e => .error e
  | none => .ok ⟨{ r.state with longOrders := ∅, shortOrders := ∅ }, acceptedBlockNumber⟩

/-- A snapshot written with `gob` and read back. -/
def Snapshot.roundTrip (s : Snapshot) : Snapshot := { s with data := s.data.getOrderBookDataCopy }

/-- The map `LoadFromSnapshot` installs: the snapshot's, its records placed after the database's own. -/
def loadedOrders (snapshot : Snapshot) : GoMap Hash Ptr := mapVals (db.heap.length + ·) snapshot.data.orders

/-- `LoadFromSnapshot`, the runtime visiting the installed map's entries in the order `visit`. -/
def loadFromSnapshot (snapshot : Snapshot) (visit : List (Σ _ : Hash, Ptr)) : InMemoryDatabase :=
  let loaded : InMemoryDatabase :=
    { db with
      heap := db.heap ++ snapshot.data.heap
      orders := db.loadedOrders snapshot
      traderMap := snapshot.data.traderMap
      lastPrice := snapshot.data.lastPrice
      nextFundingTime := snapshot.data.nextFundingTime
      nextSamplePITime := snapshot.data.nextSamplePITime
      cumulativePremiumFraction := snapshot.data.cumulativePremiumFraction }
  visit.foldl (fun d e => d.addInSortedArray e.2) loaded

/-- With nothing to roll back, the snapshot is the copy without its sides. -/
theorem saveMemoryDBSnapshot_nil (cs : ConfigService) (acceptedBlockNumber : Nat) :
    db.saveMemoryDBSnapshot cs acceptedBlockNumber [] =
      .ok ⟨{ db.getOrderBookDataCopy with longOrders := ∅, shortOrders := ∅ }, acceptedBlockNumber⟩ := rfl

/-! ## Rebuilding the sides -/

/-- The loop of `LoadFromSnapshot` writes the sides only. -/
theorem foldl_addInSortedArray_eq_sides : ∀ (visit : List (Σ _ : Hash, Ptr)) (d : InMemoryDatabase),
    ∃ l s, visit.foldl (fun d e => d.addInSortedArray e.2) d = { d with longOrders := l, shortOrders := s }
  | [], d => ⟨d.longOrders, d.shortOrders, rfl⟩
  | e :: es, d => by
    obtain ⟨l₁, s₁, h₁⟩ := d.addInSortedArray_eq_sides e.2
    obtain ⟨l₂, s₂, h₂⟩ := foldl_addInSortedArray_eq_sides es (d.addInSortedArray e.2)
    rw [List.foldl_cons, h₂, h₁]
    exact ⟨l₂, s₂, rfl⟩

/-- Each side of the loop's result is the old side and the visited pointers on that side. -/
theorem sideOrders_foldl_addInSortedArray (pt : PositionType) (m : Market) :
    ∀ (visit : List (Σ _ : Hash, Ptr)) (d : InMemoryDatabase),
      ((visit.foldl (fun d e => d.addInSortedArray e.2) d).sideOrders pt m).Perm
        (d.sideOrders pt m ++ (visit.map (·.2)).filter (d.onSide pt m))
  | [], d => by simp
  | e :: es, d => by
    have ih := sideOrders_foldl_addInSortedArray pt m es (d.addInSortedArray e.2)
    have honSide : (d.addInSortedArray e.2).onSide pt m = d.onSide pt m :=
      funext fun q => by simp only [onSide, deref_addInSortedArray]
    rw [List.foldl_cons]
    refine ih.trans ?_
    rw [honSide, List.map_cons, List.filter_cons]
    by_cases hs : pt = (d.deref e.2).positionType ∧ m = (d.deref e.2).market
    · obtain ⟨rfl, rfl⟩ := hs
      rw [sideOrders_addInSortedArray, if_pos (by simp [onSide])]
      exact ((insertAt_perm _ _ _).append_right _).trans List.perm_middle.symm
    · have hoff : d.onSide pt m e.2 = false := by
        simp only [onSide, decide_eq_false_iff_not]
        exact fun h => hs ⟨h.1.symm, h.2.symm⟩
      rw [sideOrders_addInSortedArray_of_ne _ _ hs, if_neg (by simp [hoff])]

/-- The loop keeps every side sorted. -/
theorem held_foldl_addInSortedArray : ∀ (visit : List (Σ _ : Hash, Ptr)) (d : InMemoryDatabase),
    (∀ pt m, (d.held pt m).Pairwise (bookBefore pt)) →
      ∀ pt m, ((visit.foldl (fun d e => d.addInSortedArray e.2) d).held pt m).Pairwise (bookBefore pt)
  | [], _, h => h
  | e :: es, d, h => by
    rw [List.foldl_cons]
    apply held_foldl_addInSortedArray es
    intro pt m
    by_cases hs : pt = (d.deref e.2).positionType ∧ m = (d.deref e.2).market
    · obtain ⟨rfl, rfl⟩ := hs
      exact d.pairwise_addInSortedArray e.2 (h _ _)
    · have hheld : (d.addInSortedArray e.2).held pt m = d.held pt m := by
        rw [held, held, sideOrders_addInSortedArray_of_ne _ _ hs]
        exact List.map_congr_left fun q _ => deref_addInSortedArray ..
      rw [hheld]
      exact h pt m

/-! ## The round trip -/

theorem length_le_getOrderBookDataCopy : db.heap.length ≤ db.getOrderBookDataCopy.heap.length := by
  rw [heap_getOrderBookDataCopy, List.length_append, List.length_append]
  omega

/-- `LoadFromSnapshot` installs the snapshot's data and writes the sides only. -/
theorem loadFromSnapshot_eq_sides (snapshot : Snapshot) (visit : List (Σ _ : Hash, Ptr)) :
    ∃ l s, db.loadFromSnapshot snapshot visit =
      { db with
        heap := db.heap ++ snapshot.data.heap
        orders := db.loadedOrders snapshot
        traderMap := snapshot.data.traderMap
        lastPrice := snapshot.data.lastPrice
        nextFundingTime := snapshot.data.nextFundingTime
        nextSamplePITime := snapshot.data.nextSamplePITime
        cumulativePremiumFraction := snapshot.data.cumulativePremiumFraction
        longOrders := l
        shortOrders := s } :=
  foldl_addInSortedArray_eq_sides visit _

/-- What a snapshot carries of a database `D`: its map, traders, prices and times, and its records at their
places. -/
structure Restores (D data : InMemoryDatabase) : Prop where
  orders : data.orders = D.orders
  traderMap : data.traderMap = D.traderMap
  lastPrice : data.lastPrice = D.lastPrice
  cumulativePremiumFraction : data.cumulativePremiumFraction = D.cumulativePremiumFraction
  nextFundingTime : data.nextFundingTime = D.nextFundingTime
  nextSamplePITime : data.nextSamplePITime = D.nextSamplePITime
  deref : ∀ q, q < D.heap.length → data.deref q = D.deref q

/-- A snapshot saved with nothing to roll back and read back carries the database. -/
theorem restores_saved {cs : ConfigService} {a : Nat} {s : Snapshot} (hs : db.saveMemoryDBSnapshot cs a [] = .ok s) :
    Restores db s.roundTrip.data := by
  rw [saveMemoryDBSnapshot_nil] at hs
  cases hs
  refine ⟨rfl, rfl, rfl, rfl, rfl, rfl, fun q hq => ?_⟩
  have hq' : q < ({ db.getOrderBookDataCopy with longOrders := ∅, shortOrders := ∅ } : InMemoryDatabase).heap.length :=
    Nat.lt_of_lt_of_le hq db.length_le_getOrderBookDataCopy
  exact (deref_getOrderBookDataCopy _ hq').trans (db.deref_getOrderBookDataCopy hq)

/-- **Snapshot round trip**: for every reachable book, saving it as `saveMemoryDBSnapshot` does with nothing to roll
back, reading the snapshot back and loading it into a fresh database, whatever order the runtime visits the map in,
gives the same orders, traders, prices and times, and sides that hold the same records, in the same book order: each
side is a permutation of the original with the same sequence of price, block and IOC rank. -/
theorem loadFromSnapshot_saved {D : InMemoryDatabase} (h : Reachable D) {cs : ConfigService} {a : Nat}
    {s : Snapshot} (hs : D.saveMemoryDBSnapshot cs a [] = .ok s) {visit : List (Σ _ : Hash, Ptr)}
    (hvisit : visit.Perm (newInMemoryDatabase.loadedOrders s.roundTrip).entries) :
    let L := newInMemoryDatabase.loadFromSnapshot s.roundTrip visit
    (∀ orderId, L.getOrderById orderId = D.getOrderById orderId) ∧ L.traderMap = D.traderMap ∧
      L.lastPrice = D.lastPrice ∧ L.cumulativePremiumFraction = D.cumulativePremiumFraction ∧
      L.nextFundingTime = D.nextFundingTime ∧ L.nextSamplePITime = D.nextSamplePITime ∧
      ∀ pt m, (L.held pt m).Perm (D.held pt m) ∧ (L.held pt m).map bookKey = (D.held pt m).map bookKey := by
  have hi := h.bookInv
  have hr := D.restores_saved hs
  generalize s.roundTrip = s' at hvisit hr ⊢
  obtain ⟨l, sh, hL⟩ := newInMemoryDatabase.loadFromSnapshot_eq_sides s' visit
  -- below the original heap's length, the loaded heap holds the original's records
  have hread : ∀ q, q < D.heap.length → Heap.read (newInMemoryDatabase.heap ++ s'.data.heap) q = D.deref q :=
    fun q hq => hr.deref q hq
  have hderef : ∀ q, q < D.heap.length → (newInMemoryDatabase.loadFromSnapshot s' visit).deref q = D.deref q := by
    intro q hq
    rw [hL]
    exact hread q hq
  have hlt : ∀ e ∈ D.orders.entries, e.2 < D.heap.length := fun e he =>
    (hi.orders_ptr e.1 e.2 (AList.mem_lookup_iff.mpr he)).1
  refine ⟨fun orderId => ?_, by rw [hL]; exact hr.traderMap, by rw [hL]; exact hr.lastPrice,
    by rw [hL]; exact hr.cumulativePremiumFraction, by rw [hL]; exact hr.nextFundingTime,
    by rw [hL]; exact hr.nextSamplePITime, fun pt m => ?_⟩
  · have horders : (newInMemoryDatabase.loadFromSnapshot s' visit).orders = mapVals (0 + ·) D.orders := by
      rw [hL, ← hr.orders]
      rfl
    unfold getOrderById
    rw [horders, lookup_mapVals]
    cases hp : D.orders.lookup orderId with
    | none => rfl
    | some p =>
      simp only [Option.map_some, Nat.zero_add]
      exact congrArg some (hderef p (hi.orders_ptr _ _ hp).1)
  · -- the visited pointers are the original map's
    have hptrs : (visit.map (·.2)).Perm (D.orders.entries.map (·.2)) := by
      refine (hvisit.map _).trans (List.Perm.of_eq ?_)
      rw [loadedOrders, hr.orders]
      simp [mapVals, newInMemoryDatabase, Function.comp_def, Sigma.map]
    -- the fresh database has no sides to start from
    have hnil : ∀ (d : InMemoryDatabase) pt m, d.longOrders = ∅ → d.shortOrders = ∅ → d.sideOrders pt m = [] := by
      intro d pt m hl hs
      cases pt <;> simp [sideOrders, hl, hs]
    have hside : ((newInMemoryDatabase.loadFromSnapshot s' visit).sideOrders pt m).Perm (D.sideOrders pt m) := by
      refine (sideOrders_foldl_addInSortedArray pt m visit _).trans ?_
      rw [hnil _ pt m rfl rfl, List.nil_append]
      refine ((hptrs.filter _).trans (List.Perm.of_eq (List.filter_congr fun q hq => ?_))).trans
        (hi.sideOrders_perm pt m).symm
      obtain ⟨e, he, rfl⟩ := List.mem_map.mp hq
      have he' := hread e.2 (hlt e he)
      simp only [onSide, deref] at he' ⊢
      exact congrArg (fun o : Order => decide (o.positionType = pt ∧ o.market = m)) he'
    have hheld : ((newInMemoryDatabase.loadFromSnapshot s' visit).held pt m).Perm (D.held pt m) := by
      rw [held, held]
      refine (hside.map _).trans (List.Perm.of_eq (List.map_congr_left fun q hq => hderef q (hi.side_lt hq)))
    have hsorted : ((newInMemoryDatabase.loadFromSnapshot s' visit).held pt m).Pairwise (bookBefore pt) := by
      refine held_foldl_addInSortedArray visit _ (fun pt' m' => ?_) pt m
      rw [held, hnil _ pt' m' rfl rfl]
      exact List.Pairwise.nil
    have hk₁ : (((newInMemoryDatabase.loadFromSnapshot s' visit).held pt m).map bookKey).Pairwise (keyBefore pt) :=
      List.pairwise_map.mpr (hsorted.imp (bookBefore_iff_keyBefore _ _ _).mp)
    have hk₂ : ((D.held pt m).map bookKey).Pairwise (keyBefore pt) :=
      List.pairwise_map.mpr ((hi.side_sorted pt m).imp (bookBefore_iff_keyBefore _ _ _).mp)
    refine ⟨hheld, List.Perm.eq_of_pairwise ?_ hk₁ hk₂ (hheld.map bookKey)⟩
    exact fun _ _ _ _ hxy hyx => keyBefore_antisymm hxy hyx

/-- Two limit longs at the same price, placed in the same block. -/
def tieOrder (orderId : Hash) : Order :=
  { (default : Order) with id := orderId, baseAssetQuantity := 10 ^ 18, price := 10 ^ 6, blockNumber := 1 }

/-- The book after adding `tieOrder 1`, then `tieOrder 2`. -/
def tieBook : InMemoryDatabase := (newInMemoryDatabase.add (tieOrder 1)).add (tieOrder 2)

theorem tieBook_reachable : Reachable tieBook :=
  .tail (.single (.add _ _ rfl)) (.add _ _ rfl)

/-- The snapshot of `tieBook` at block 1. -/
def tieSaved : Snapshot := ⟨{ tieBook.getOrderBookDataCopy with longOrders := ∅, shortOrders := ∅ }, 1⟩

/-- Loading the snapshot of `tieBook`, visiting the map in the order it is stored, swaps the two ties. -/
theorem loadFromSnapshot_tie_reordered :
    let L := newInMemoryDatabase.loadFromSnapshot tieSaved.roundTrip
      (newInMemoryDatabase.loadedOrders tieSaved.roundTrip).entries
    Reachable tieBook ∧ tieBook.saveMemoryDBSnapshot {} 1 [] = .ok tieSaved ∧
      (tieBook.held .long 0).map (·.id) = [1, 2] ∧ (L.held .long 0).map (·.id) = [2, 1] :=
  ⟨tieBook_reachable, rfl, by decide +kernel, by decide +kernel⟩

/-- The round trip at the ties: the sides agree on their book keys. -/
theorem loadFromSnapshot_saved_tieBook :
    let L := newInMemoryDatabase.loadFromSnapshot tieSaved.roundTrip
      (newInMemoryDatabase.loadedOrders tieSaved.roundTrip).entries
    Reachable tieBook ∧ tieBook.saveMemoryDBSnapshot {} 1 [] = .ok tieSaved ∧
      (L.held .long 0).map bookKey = (tieBook.held .long 0).map bookKey :=
  ⟨tieBook_reachable, rfl,
    ((loadFromSnapshot_saved tieBook_reachable (saveMemoryDBSnapshot_nil _ {} 1) (List.Perm.refl _)).2.2.2.2.2.2
      .long 0).2⟩

end InMemoryDatabase

end Hubblenet
