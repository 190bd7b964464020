import Hubblenet.Orderbook.MemoryDb

/-!
# The representation invariant of the order book

`BookInv db` says that the map and the sorted slices describe one set of records:

* the map reaches records in the heap that carry the map's id (`orders_ptr`);
* every mapped pointer sits in the side of its position type and market (`mapped_side`), and every pointer of a
  side is mapped under its record's id and belongs to that side (`side_mapped`); no side repeats a pointer
  (`side_nodup`);
* every side is sorted for `bookBefore` (`side_sorted`): bids by price down and asks by price up, then by block,
  then IOC orders first (`iocRank`).

`bookBefore` is a total preorder on each side (`bookBefore_total`, `bookBefore_trans`), and the search predicate
of `AddInSortedArray` agrees with it (`bookBefore_of_insertBefore`, `bookBefore_of_insertBefore_false`,
`insertBefore_mono`), so inserting keeps a side sorted. Every write keeps the invariant: adding a fresh id
(`bookInv_addOrderWithoutLock`), deleting (`bookInv_deleteOrderWithoutLock`), rewriting a record without touching
its keys (`BookInv.setRecord`), and the loops of `Accept` and `RemoveExpiredSignedOrders` built from deletions.
-/

namespace Hubblenet.InMemoryDatabase

open Go Lib

/-! ## The book order -/

/-- The place of an order in its (price, block) group: IOC orders first. -/
def iocRank (o : Order) : Nat := if o.orderType = .ioc then 0 else 1

theorem iocRank_le (o : Order) : iocRank o ≤ 1 := by
  unfold iocRank; split <;> omega

/-- `a` may stand before `b` in a side: a better price, or the same price and an earlier block, or the same
price and block and `a` not ranked after `b`. -/
def bookBefore : PositionType → Order → Order → Prop
  | .long, a, b => b.price < a.price ∨ a.price = b.price ∧
      (a.blockNumber < b.blockNumber ∨ a.blockNumber = b.blockNumber ∧ iocRank a ≤ iocRank b)
  | .short, a, b => a.price < b.price ∨ a.price = b.price ∧
      (a.blockNumber < b.blockNumber ∨ a.blockNumber = b.blockNumber ∧ iocRank a ≤ iocRank b)

theorem bookBefore_total (pt : PositionType) (a b : Order) : bookBefore pt a b ∨ bookBefore pt b a := by
  cases pt <;> simp only [bookBefore] <;> omega

theorem bookBefore_trans {pt : PositionType} {a b c : Order} (hab : bookBefore pt a b) (hbc : bookBefore pt b c) :
    bookBefore pt a c := by
  cases pt <;> simp only [bookBefore] at * <;> omega

/-- What `bookBefore` compares: price, block and IOC rank. -/
def bookKey (o : Order) : Int × Int × Nat := (o.price, o.blockNumber, iocRank o)

/-- `bookBefore` on keys. -/
def keyBefore : PositionType → Int × Int × Nat → Int × Int × Nat → Prop
  | .long, (p, b, r), (p', b', r') => p' < p ∨ p = p' ∧ (b < b' ∨ b = b' ∧ r ≤ r')
  | .short, (p, b, r), (p', b', r') => p < p' ∨ p = p' ∧ (b < b' ∨ b = b' ∧ r ≤ r')

theorem bookBefore_iff_keyBefore (pt : PositionType) (a b : Order) :
    bookBefore pt a b ↔ keyBefore pt (bookKey a) (bookKey b) := by
  cases pt <;> rfl

theorem keyBefore_antisymm {pt : PositionType} {x y : Int × Int × Nat} (hxy : keyBefore pt x y)
    (hyx : keyBefore pt y x) : x = y := by
  obtain ⟨p, b, r⟩ := x
  obtain ⟨p', b', r'⟩ := y
  have h : p = p' ∧ b = b' ∧ r = r' := by
    cases pt <;> simp only [keyBefore] at hxy hyx <;> omega
  rw [h.1, h.2.1, h.2.2]

/-- The search predicate of `AddInSortedArray`, spelled out. -/
theorem insertBefore_eq_true_iff (x y : Order) : insertBefore x y = true ↔
    ((x.positionType = .long ∧ y.price < x.price) ∨ (x.positionType = .short ∧ x.price < y.price)) ∨
      x.price = y.price ∧ (x.blockNumber < y.blockNumber ∨ x.blockNumber = y.blockNumber ∧ x.orderType = .ioc) := by
  unfold insertBefore
  cases hp : x.positionType
  · by_cases h1 : y.price < x.price <;> simp [h1]
  · by_cases h1 : x.price < y.price <;> simp [h1]

/-- The search predicate as a comparison: an IOC order goes before every order it may precede, any other order
before every order that may not precede it. -/
theorem insertBefore_eq_true (x y : Order) :
    insertBefore x y = true ↔ if iocRank x = 0 then bookBefore x.positionType x y
      else ¬ bookBefore x.positionType y x := by
  rw [insertBefore_eq_true_iff]
  have hy := iocRank_le y
  cases hp : x.positionType <;> by_cases hx : x.orderType = .ioc <;> simp [bookBefore, iocRank, hx] at * <;> omega

theorem bookBefore_of_insertBefore {x y : Order} (h : insertBefore x y = true) : bookBefore x.positionType x y := by
  rw [insertBefore_eq_true] at h
  split_ifs at h
  · exact h
  · exact (bookBefore_total _ x y).resolve_right h

theorem bookBefore_of_insertBefore_false {x y : Order} (h : insertBefore x y = false) :
    bookBefore x.positionType y x := by
  have h' : ¬ insertBefore x y = true := by simp [h]
  rw [insertBefore_eq_true] at h'
  split_ifs at h'
  · exact (bookBefore_total _ x y).resolve_left h'
  · exact not_not.mp h'

theorem insertBefore_mono {x y z : Order} (hy : insertBefore x y = true) (hyz : bookBefore x.positionType y z) :
    insertBefore x z = true := by
  rw [insertBefore_eq_true] at hy ⊢
  split_ifs at hy ⊢
  · exact bookBefore_trans hy hyz
  · exact fun hzx => hy (bookBefore_trans hyz hzx)

/-! ## The invariant -/

variable (db : InMemoryDatabase)

/-- The records of a side, in book order. -/
def held (pt : PositionType) (m : Market) : List Order := (db.sideOrders pt m).map db.deref

/-- A pointer's record is on the side of the position type and market. -/
def onSide (pt : PositionType) (m : Market) (q : Ptr) : Bool :=
  decide ((db.deref q).positionType = pt ∧ (db.deref q).market = m)

/-- The representation invariant of `InMemoryDatabase`. -/
structure BookInv (db : InMemoryDatabase) : Prop where
  orders_ptr : ∀ id q, db.orders.lookup id = some q → q < db.heap.length ∧ (db.deref q).id = id
  mapped_side : ∀ id q, db.orders.lookup id = some q →
    q ∈ db.sideOrders (db.deref q).positionType (db.deref q).market
  side_mapped : ∀ pt m q, q ∈ db.sideOrders pt m →
    db.orders.lookup (db.deref q).id = some q ∧ (db.deref q).positionType = pt ∧ (db.deref q).market = m
  side_nodup : ∀ pt m, (db.sideOrders pt m).Nodup
  side_sorted : ∀ pt m, (db.held pt m).Pairwise (bookBefore pt)

theorem bookInv_new : BookInv newInMemoryDatabase where
  orders_ptr := by simp [newInMemoryDatabase]
  mapped_side := by simp [newInMemoryDatabase]
  side_mapped := by intro pt m q; cases pt <;> simp [newInMemoryDatabase, sideOrders]
  side_nodup := by intro pt m; cases pt <;> simp [newInMemoryDatabase, sideOrders]
  side_sorted := by intro pt m; cases pt <;> simp [newInMemoryDatabase, held, sideOrders]

variable {db}

/-- Every pointer a side holds is in the heap. -/
theorem BookInv.side_lt (hi : BookInv db) {pt : PositionType} {m : Market} {q : Ptr}
    (hq : q ∈ db.sideOrders pt m) : q < db.heap.length :=
  (hi.orders_ptr _ q (hi.side_mapped pt m q hq).1).1

/-- Two pointers of the book with the same id are the same pointer. -/
theorem BookInv.eq_of_id (hi : BookInv db) {pt pt' : PositionType} {m m' : Market} {q r : Ptr}
    (hq : q ∈ db.sideOrders pt m) (hr : r ∈ db.sideOrders pt' m') (h : (db.deref q).id = (db.deref r).id) :
    q = r := by
  have h1 := (hi.side_mapped pt m q hq).1
  have h2 := (hi.side_mapped pt' m' r hr).1
  rw [h] at h1
  exact Option.some.inj (h1.symm.trans h2)


/-- The pointers of the map's entries. -/
theorem BookInv.nodup_ptrs (hi : BookInv db) : (db.orders.entries.map (·.2)).Nodup := by
  refine List.Nodup.map_on ?_ db.orders.nodupKeys.nodup
  intro x hx y hy hxy
  have hxid := (hi.orders_ptr x.1 x.2 (AList.mem_lookup_iff.mpr hx)).2
  have hyid := (hi.orders_ptr y.1 y.2 (AList.mem_lookup_iff.mpr hy)).2
  rw [hxy] at hxid
  exact Sigma.ext (hxid.symm.trans hyid) (heq_of_eq hxy)

/-- **A side is the map's pointers on that side**, up to order. -/
theorem BookInv.sideOrders_perm (hi : BookInv db) (pt : PositionType) (m : Market) :
    (db.sideOrders pt m).Perm ((db.orders.entries.map (·.2)).filter (db.onSide pt m)) := by
  refine (List.perm_ext_iff_of_nodup (hi.side_nodup pt m) (hi.nodup_ptrs.filter _)).mpr fun q => ?_
  rw [List.mem_filter, List.mem_map, onSide, decide_eq_true_eq]
  constructor
  · intro hq
    obtain ⟨h₁, h₂, h₃⟩ := hi.side_mapped pt m q hq
    exact ⟨⟨⟨_, q⟩, AList.mem_lookup_iff.mp h₁, rfl⟩, h₂, h₃⟩
  · rintro ⟨⟨e, he, rfl⟩, h₂, h₃⟩
    have hmem := hi.mapped_side e.1 e.2 (AList.mem_lookup_iff.mpr he)
    rwa [h₂, h₃] at hmem

/-! ## Rewriting records -/

/-- The fields of a record the invariant reads. -/
structure SameKeys (a b : Order) : Prop where
  id : a.id = b.id
  positionType : a.positionType = b.positionType
  market : a.market = b.market
  price : a.price = b.price
  blockNumber : a.blockNumber = b.blockNumber
  orderType : a.orderType = b.orderType

theorem SameKeys.rfl' (a : Order) : SameKeys a a := ⟨rfl, rfl, rfl, rfl, rfl, rfl⟩

theorem SameKeys.trans {a b c : Order} (hab : SameKeys a b) (hbc : SameKeys b c) : SameKeys a c :=
  ⟨hab.id.trans hbc.id, hab.positionType.trans hbc.positionType, hab.market.trans hbc.market,
    hab.price.trans hbc.price, hab.blockNumber.trans hbc.blockNumber, hab.orderType.trans hbc.orderType⟩

/-- A new lifecycle stack keeps the keys. -/
theorem sameKeys_lifecycle (o : Order) (l : List Lifecycle) : SameKeys { o with lifecycleList := l } o :=
  ⟨rfl, rfl, rfl, rfl, rfl, rfl⟩

theorem bookBefore_congr {pt : PositionType} {a a' b b' : Order} (ha : SameKeys a a') (hb : SameKeys b b') :
    bookBefore pt a b ↔ bookBefore pt a' b' := by
  cases pt <;> simp only [bookBefore, iocRank, ha.price, ha.blockNumber, ha.orderType, hb.price, hb.blockNumber,
    hb.orderType]

/-- A database with the same map, the same sides and records with the same keys keeps the invariant. -/
theorem BookInv.of_sameKeys {db' : InMemoryDatabase} (hi : BookInv db) (horders : db'.orders = db.orders)
    (hside : ∀ pt m, db'.sideOrders pt m = db.sideOrders pt m) (hlen : db'.heap.length = db.heap.length)
    (hk : ∀ q, SameKeys (db'.deref q) (db.deref q)) : BookInv db' where
  orders_ptr id q h := by
    rw [horders] at h
    obtain ⟨hq, hid⟩ := hi.orders_ptr id q h
    exact ⟨hlen ▸ hq, (hk q).id.trans hid⟩
  mapped_side id q h := by
    rw [horders] at h
    rw [hside, (hk q).positionType, (hk q).market]
    exact hi.mapped_side id q h
  side_mapped pt m q h := by
    rw [hside] at h
    obtain ⟨h1, h2, h3⟩ := hi.side_mapped pt m q h
    exact ⟨by rw [horders, (hk q).id]; exact h1, (hk q).positionType.trans h2, (hk q).market.trans h3⟩
  side_nodup pt m := hside pt m ▸ hi.side_nodup pt m
  side_sorted pt m := by
    have h := hi.side_sorted pt m
    simp only [held, List.pairwise_map, hside] at h ⊢
    exact h.imp fun hab => (bookBefore_congr (hk _) (hk _)).mpr hab

theorem BookInv.setRecord (hi : BookInv db) {p : Ptr} (hp : p < db.heap.length) {o : Order}
    (ho : SameKeys o (db.deref p)) : BookInv (db.setRecord p o) := by
  refine hi.of_sameKeys rfl (fun _ _ => setRecord_sideOrders ..) (length_setRecord ..) fun q => ?_
  rw [deref_setRecord _ _ _ _ hp]
  split_ifs with hq
  · subst hq; exact ho
  · exact SameKeys.rfl' _

theorem BookInv.updateVirtualReservedMargin (hi : BookInv db) (trader : Address) (a : Int) :
    BookInv (db.updateVirtualReservedMargin trader a) :=
  hi.of_sameKeys rfl (fun _ _ => updateVirtualReservedMargin_sideOrders ..) rfl fun _ => SameKeys.rfl' _

theorem sameKeys_filledRecord (o : Order) (quantity : Int) (blockNumber : Nat) :
    SameKeys (filledRecord o quantity blockNumber) o := by
  unfold filledRecord
  dsimp only
  split_ifs <;> exact ⟨rfl, rfl, rfl, rfl, rfl, rfl⟩

theorem BookInv.fillMargin (hi : BookInv db) (cs : ConfigService) (o : Order) (quantity : Int) :
    BookInv (db.fillMargin cs o quantity) := by
  unfold InMemoryDatabase.fillMargin
  split_ifs
  · exact hi.updateVirtualReservedMargin _ _
  · exact hi

theorem bookInv_updateFilledBaseAssetQuantity (hi : BookInv db) (cs : ConfigService) (quantity : Int)
    (orderId : Hash) (blockNumber : Nat) :
    BookInv (db.updateFilledBaseAssetQuantity cs quantity orderId blockNumber).state := by
  unfold updateFilledBaseAssetQuantity
  split
  · exact hi
  · rename_i p hp
    have hlt := (hi.orders_ptr _ _ hp).1
    have hk := sameKeys_filledRecord (db.deref p) quantity blockNumber
    -- the reorg branch may pop a `FulFilled`, which keeps the keys too
    dsimp only
    split_ifs
    · split
      · exact hi.setRecord hlt hk
      · exact (hi.setRecord hlt (by split_ifs; exacts [(sameKeys_lifecycle _ _).trans hk, hk])).fillMargin ..
    · exact (hi.setRecord hlt hk).fillMargin ..

theorem bookInv_setOrderStatus (hi : BookInv db) {orderId : Hash} {status : Status} {info : String}
    {blockNumber : Nat} {db' : InMemoryDatabase} (h : db.setOrderStatus orderId status info blockNumber = .ok db') :
    BookInv db' := by
  unfold setOrderStatus at h
  split at h
  · cases h
  · rename_i p hp
    cases h
    exact hi.setRecord (hi.orders_ptr _ _ hp).1 (sameKeys_lifecycle _ _)

theorem bookInv_revertLastStatus (hi : BookInv db) {orderId : Hash} {db' : InMemoryDatabase}
    (h : db.revertLastStatus orderId = .ok db') : BookInv db' := by
  unfold revertLastStatus at h
  split at h
  · cases h
  · rename_i p hp
    dsimp only at h
    split_ifs at h
    · cases h
      exact hi.setRecord (hi.orders_ptr _ _ hp).1 (sameKeys_lifecycle _ _)
    · cases h
      exact hi


/-! ## Deleting -/

/-- Unlinking a mapped pointer: a database whose map lost the id and whose pointer's side lost the pointer, with
the records in place, keeps the invariant. -/
theorem BookInv.unlink (hi : BookInv db) {orderId : Hash} {p : Ptr} (hp : db.orders.lookup orderId = some p)
    {db' : InMemoryDatabase} (hheap : db'.heap = db.heap) (horders : db'.orders = db.orders.erase orderId)
    (hdel : db'.sideOrders (db.deref p).positionType (db.deref p).market =
      (db.sideOrders (db.deref p).positionType (db.deref p).market).erase p)
    (hside : ∀ pt m, ¬(pt = (db.deref p).positionType ∧ m = (db.deref p).market) →
      db'.sideOrders pt m = db.sideOrders pt m) : BookInv db' := by
  have hderef : ∀ q, db'.deref q = db.deref q := fun q => by simp only [deref, hheap]
  -- a pointer of the book other than `p` has another id
  have hid : ∀ pt m q, q ∈ db.sideOrders pt m → q ≠ p → (db.deref q).id ≠ orderId := by
    intro pt m q hq hqp hqid
    have h₁ := (hi.side_mapped pt m q hq).1
    rw [hqid, hp] at h₁
    exact hqp (Option.some.inj h₁).symm
  -- the side `p` left is the old side minus `p`, every other side is the old one
  have hsub : ∀ pt m q, q ∈ db'.sideOrders pt m → q ∈ db.sideOrders pt m ∧ q ≠ p := by
    intro pt m q hq
    by_cases hs : pt = (db.deref p).positionType ∧ m = (db.deref p).market
    · obtain ⟨rfl, rfl⟩ := hs
      rw [hdel] at hq
      exact ((hi.side_nodup _ _).mem_erase_iff.mp hq).symm
    · rw [hside pt m hs] at hq
      refine ⟨hq, fun hqp => hs ?_⟩
      subst hqp
      obtain ⟨-, h₂, h₃⟩ := hi.side_mapped pt m q hq
      exact ⟨h₂.symm, h₃.symm⟩
  refine ⟨?_, ?_, ?_, ?_, ?_⟩
  · intro id q h
    rw [horders] at h
    have hne : id ≠ orderId := by rintro rfl; simp at h
    rw [AList.lookup_erase_ne hne] at h
    rw [hheap, hderef]
    exact hi.orders_ptr id q h
  · intro id q h
    rw [horders] at h
    have hne : id ≠ orderId := by rintro rfl; simp at h
    rw [AList.lookup_erase_ne hne] at h
    have hmem := hi.mapped_side id q h
    have hqp : q ≠ p := by
      rintro rfl
      exact hne (((hi.orders_ptr id q h).2).symm.trans (hi.orders_ptr orderId q hp).2)
    rw [hderef]
    by_cases hs : (db.deref q).positionType = (db.deref p).positionType ∧ (db.deref q).market = (db.deref p).market
    · rw [hs.1, hs.2] at hmem ⊢
      rw [hdel]
      exact (List.mem_erase_of_ne hqp).mpr hmem
    · rw [hside _ _ hs]
      exact hmem
  · intro pt m q h
    obtain ⟨hq, hqp⟩ := hsub pt m q h
    obtain ⟨h₁, h₂, h₃⟩ := hi.side_mapped pt m q hq
    rw [horders, hderef, AList.lookup_erase_ne (hid pt m q hq hqp)]
    exact ⟨h₁, h₂, h₃⟩
  · intro pt m
    by_cases hs : pt = (db.deref p).positionType ∧ m = (db.deref p).market
    · obtain ⟨rfl, rfl⟩ := hs
      rw [hdel]
      exact (hi.side_nodup _ _).erase p
    · rw [hside pt m hs]
      exact hi.side_nodup pt m
  · intro pt m
    have hmap : db'.held pt m = (db'.sideOrders pt m).map db.deref := List.map_congr_left fun q _ => hderef q
    rw [hmap]
    by_cases hs : pt = (db.deref p).positionType ∧ m = (db.deref p).market
    · obtain ⟨rfl, rfl⟩ := hs
      rw [hdel]
      exact (hi.side_sorted _ _).sublist (List.erase_sublist.map _)
    · rw [hside pt m hs]
      exact hi.side_sorted pt m

/-- Under the invariant, `getOrderIdx` finds a mapped id in its side, and removing there erases its pointer. -/
theorem BookInv.getOrderIdx_eq (hi : BookInv db) {orderId : Hash} {p : Ptr} (hp : db.orders.lookup orderId = some p) :
    ∃ idx, db.getOrderIdx (db.sideOrders (db.deref p).positionType (db.deref p).market) orderId = some idx ∧
      removeAt (db.sideOrders (db.deref p).positionType (db.deref p).market) idx =
        (db.sideOrders (db.deref p).positionType (db.deref p).market).erase p := by
  have hmem := hi.mapped_side _ _ hp
  have hpid := (hi.orders_ptr _ _ hp).2
  have hpick : ∀ y ∈ db.sideOrders (db.deref p).positionType (db.deref p).market,
      ((db.deref y).id == orderId) = true ↔ y = p := by
    intro y hy
    rw [beq_iff_eq]
    constructor
    · intro h
      exact hi.eq_of_id hy hmem (h.trans hpid.symm)
    · rintro rfl
      exact hpid
  have herase := removeFirst_eq_erase hpick
  unfold getOrderIdx
  cases hidx : List.findIdx? (fun q => (db.deref q).id == orderId)
      (db.sideOrders (db.deref p).positionType (db.deref p).market) with
  | none =>
    rw [List.findIdx?_eq_none_iff] at hidx
    exact absurd ((hpick p hmem).mpr rfl) (by simp [hidx p hmem])
  | some idx =>
    refine ⟨idx, rfl, ?_⟩
    rw [← herase, removeFirst, hidx]

theorem bookInv_deleteOrderWithoutLock (hi : BookInv db) (cs : ConfigService) (orderId : Hash) :
    BookInv (db.deleteOrderWithoutLock cs orderId) := by
  unfold deleteOrderWithoutLock
  split
  · exact hi
  · rename_i p hp
    obtain ⟨idx, hidx, hrm⟩ := hi.getOrderIdx_eq hp
    dsimp only
    rw [hidx]
    dsimp only
    rw [hrm]
    have h₂ : BookInv { db.setSideOrders (db.deref p).positionType (db.deref p).market
        ((db.sideOrders (db.deref p).positionType (db.deref p).market).erase p) with
        orders := (db.setSideOrders (db.deref p).positionType (db.deref p).market
          ((db.sideOrders (db.deref p).positionType (db.deref p).market).erase p)).orders.erase orderId } := by
      refine hi.unlink hp (by simp) (by simp) ?_ ?_
      · rw [sideOrders_withOrders, sideOrders_setSideOrders, if_pos ⟨rfl, rfl⟩]
      · intro pt m hs
        rw [sideOrders_withOrders, sideOrders_setSideOrders, if_neg hs]
    split_ifs
    · exact h₂.updateVirtualReservedMargin _ _
    · exact h₂


/-! ## Adding -/

/-- Linking a fresh record: a database whose heap gained `o` at pointer `db.heap.length`, whose map gained that
pointer under `o`'s id and whose side of `o` gained it somewhere keeps the invariant, once that side is sorted. -/
theorem BookInv.link (hi : BookInv db) {o : Order} (hfresh : db.orders.lookup o.id = none) {db' : InMemoryDatabase}
    (hheap : db'.heap = db.heap.alloc o) (horders : db'.orders = db.orders.insert o.id db.heap.length)
    (hins : ∃ k, db'.sideOrders o.positionType o.market =
      insertAt (db.sideOrders o.positionType o.market) k db.heap.length)
    (hside : ∀ pt m, ¬(pt = o.positionType ∧ m = o.market) → db'.sideOrders pt m = db.sideOrders pt m)
    (hsorted : (db'.held o.positionType o.market).Pairwise (bookBefore o.positionType)) : BookInv db' := by
  obtain ⟨k, hk⟩ := hins
  have hnew : db'.deref db.heap.length = o := by simp only [deref, hheap, Heap.read_alloc_new]
  have hold : ∀ q, q < db.heap.length → db'.deref q = db.deref q := fun q hq => by
    simp only [deref, hheap]
    exact Heap.read_alloc_old hq o
  have hid : ∀ pt m q, q ∈ db.sideOrders pt m → (db.deref q).id ≠ o.id := by
    intro pt m q hq hqid
    have h₁ := (hi.side_mapped pt m q hq).1
    rw [hqid, hfresh] at h₁
    cases h₁
  -- a side of `db'` holds the new pointer, in the side of `o`, or an old pointer of the same side
  have hsub : ∀ pt m q, q ∈ db'.sideOrders pt m →
      (q = db.heap.length ∧ pt = o.positionType ∧ m = o.market) ∨ q ∈ db.sideOrders pt m := by
    intro pt m q hq
    by_cases hs : pt = o.positionType ∧ m = o.market
    · obtain ⟨rfl, rfl⟩ := hs
      rw [hk, mem_insertAt] at hq
      rcases hq with rfl | hq
      · exact .inl ⟨rfl, rfl, rfl⟩
      · exact .inr hq
    · rw [hside pt m hs] at hq
      exact .inr hq
  refine ⟨?_, ?_, ?_, ?_, ?_⟩
  · intro id q h
    rw [horders] at h
    by_cases hido : id = o.id
    · subst hido
      rw [AList.lookup_insert] at h
      cases h
      exact ⟨by simp [hheap], by rw [hnew]⟩
    · rw [AList.lookup_insert_ne hido] at h
      obtain ⟨hq, hqid⟩ := hi.orders_ptr id q h
      exact ⟨by rw [hheap, Heap.length_alloc]; exact Nat.lt_succ_of_lt hq, by rw [hold q hq]; exact hqid⟩
  · intro id q h
    rw [horders] at h
    by_cases hido : id = o.id
    · subst hido
      rw [AList.lookup_insert] at h
      cases h
      rw [hnew, hk]
      exact mem_insertAt.mpr (.inl rfl)
    · rw [AList.lookup_insert_ne hido] at h
      have hmem := hi.mapped_side id q h
      rw [hold q (hi.orders_ptr id q h).1]
      by_cases hs : (db.deref q).positionType = o.positionType ∧ (db.deref q).market = o.market
      · rw [hs.1, hs.2] at hmem ⊢
        rw [hk]
        exact mem_insertAt.mpr (.inr hmem)
      · rw [hside _ _ hs]
        exact hmem
  · intro pt m q h
    rcases hsub pt m q h with ⟨rfl, rfl, rfl⟩ | hq
    · rw [horders, hnew, AList.lookup_insert]
      exact ⟨rfl, rfl, rfl⟩
    · obtain ⟨h₁, h₂, h₃⟩ := hi.side_mapped pt m q hq
      rw [horders, hold q (hi.side_lt hq), AList.lookup_insert_ne (hid pt m q hq)]
      exact ⟨h₁, h₂, h₃⟩
  · intro pt m
    by_cases hs : pt = o.positionType ∧ m = o.market
    · obtain ⟨rfl, rfl⟩ := hs
      rw [hk]
      exact nodup_insertAt (hi.side_nodup _ _) fun h => Nat.lt_irrefl _ (hi.side_lt h)
    · rw [hside pt m hs]
      exact hi.side_nodup pt m
  · intro pt m
    by_cases hs : pt = o.positionType ∧ m = o.market
    · obtain ⟨rfl, rfl⟩ := hs
      exact hsorted
    · have hmap : db'.held pt m = db.held pt m := by
        rw [held, held, hside pt m hs]
        exact List.map_congr_left fun q hq => hold q (hi.side_lt hq)
      rw [hmap]
      exact hi.side_sorted pt m

/-- **`AddInSortedArray` keeps the side it inserts into sorted**: `sort.Search` stops at the first order the new
one goes before, and everything after it comes after the new order. -/
theorem pairwise_addInSortedArray (p : Ptr)
    (hs : (db.held (db.deref p).positionType (db.deref p).market).Pairwise (bookBefore (db.deref p).positionType)) :
    ((db.addInSortedArray p).held (db.deref p).positionType (db.deref p).market).Pairwise
      (bookBefore (db.deref p).positionType) := by
  have hderef : (db.addInSortedArray p).deref = db.deref := funext (deref_addInSortedArray db p)
  rw [held, hderef, sideOrders_addInSortedArray, List.pairwise_map]
  rw [held, List.pairwise_map] at hs
  exact pairwise_insertAt_search (f := fun q => insertBefore (db.deref p) (db.deref q)) hs
    (fun _ _ hy => bookBefore_of_insertBefore hy) (fun _ _ hy => bookBefore_of_insertBefore_false hy)
    (fun _ _ _ _ hy hyz => insertBefore_mono hy hyz)

theorem bookInv_addOrderWithoutLock (hi : BookInv db) {order : Order} (hfresh : db.orders.lookup order.id = none) :
    BookInv (db.addOrderWithoutLock order) := by
  -- the database after the allocation, before the insertion
  let d₀ : InMemoryDatabase := { db with heap := db.heap.alloc (placedRecord order) }
  have hn : d₀.deref db.heap.length = placedRecord order := Heap.read_alloc_new _ _
  have hside₀ : ∀ pt m, d₀.sideOrders pt m = db.sideOrders pt m := fun pt m => by cases pt <;> rfl
  have hheld₀ : ∀ pt m, d₀.held pt m = db.held pt m := fun pt m => by
    rw [held, held, hside₀]
    exact List.map_congr_left fun q hq => Heap.read_alloc_old (hi.side_lt hq) _
  have hsides : ∀ pt m, (db.addOrderWithoutLock order).sideOrders pt m =
      (d₀.addInSortedArray db.heap.length).sideOrders pt m := fun pt m => sideOrders_withOrders _ _ _ _
  have hheld : ∀ pt m, (db.addOrderWithoutLock order).held pt m = (d₀.addInSortedArray db.heap.length).held pt m :=
    fun pt m => by rw [held, held, hsides]; rfl
  refine hi.link (o := placedRecord order) hfresh (by simp [addOrderWithoutLock])
    (by simp [addOrderWithoutLock, placedRecord]) (sideOrders_addOrderWithoutLock db order)
    (fun pt m hs => sideOrders_addOrderWithoutLock_of_ne db order hs) ?_
  rw [hheld, ← hn]
  apply pairwise_addInSortedArray
  rw [hn, hheld₀]
  exact hi.side_sorted _ _

theorem bookInv_add (hi : BookInv db) {order : Order} (hfresh : db.orders.lookup order.id = none) :
    BookInv (db.add order) := by
  unfold add
  split_ifs
  · exact hi
  · exact bookInv_addOrderWithoutLock hi hfresh

theorem bookInv_addSignedOrder (hi : BookInv db) {order : Order} (hfresh : db.orders.lookup order.id = none)
    (requiredMargin : Int) : BookInv (db.addSignedOrder order requiredMargin) := by
  unfold addSignedOrder
  split_ifs
  · exact hi
  · exact (bookInv_addOrderWithoutLock hi hfresh).updateVirtualReservedMargin _ _

/-! ## The loops of `Accept` and `RemoveExpiredSignedOrders` -/

theorem bookInv_acceptOrders (cs : ConfigService) (acceptedBlockNumber blockTimestamp : Nat) :
    ∀ (os : List Order) (d : InMemoryDatabase), BookInv d →
      BookInv (acceptOrders cs acceptedBlockNumber blockTimestamp os d).state
  | [], _, hd => hd
  | o :: os, d, hd => by
    rw [acceptOrders]
    split
    · exact hd
    · exact bookInv_acceptOrders cs acceptedBlockNumber blockTimestamp os _ (bookInv_deleteOrderWithoutLock hd cs o.id)
    · exact bookInv_acceptOrders cs acceptedBlockNumber blockTimestamp os d hd

theorem bookInv_acceptMarkets (cs : ConfigService) (acceptedBlockNumber blockTimestamp : Nat) :
    ∀ (ms : List Market) (d : InMemoryDatabase), BookInv d →
      BookInv (acceptMarkets cs acceptedBlockNumber blockTimestamp ms d).state
  | [], _, hd => hd
  | m :: ms, d, hd => by
    have hl := bookInv_acceptOrders cs acceptedBlockNumber blockTimestamp ((d.sideOrders .long m).map d.deref) d hd
    rw [acceptMarkets]
    split
    · rename_i heq
      rw [heq] at hl
      exact hl
    · rename_i d₁ heq
      rw [heq] at hl
      have hs := bookInv_acceptOrders cs acceptedBlockNumber blockTimestamp ((d.sideOrders .short m).map d.deref) d₁ hl
      split
      · rename_i heq'
        rw [heq'] at hs
        exact hs
      · rename_i d₂ heq'
        rw [heq'] at hs
        exact bookInv_acceptMarkets cs acceptedBlockNumber blockTimestamp ms d₂ hs

theorem bookInv_accept (hi : BookInv db) (cs : ConfigService) (acceptedBlockNumber blockTimestamp : Nat) :
    BookInv (db.accept cs acceptedBlockNumber blockTimestamp).state :=
  bookInv_acceptMarkets cs acceptedBlockNumber blockTimestamp _ db hi

theorem bookInv_removeExpired (cs : ConfigService) (now : Int) :
    ∀ (es : List (Σ _ : Hash, Ptr)) (d : InMemoryDatabase), BookInv d → BookInv (removeExpired cs now es d).state
  | [], _, hd => hd
  | e :: es, d, hd => by
    rw [removeExpired]
    split_ifs
    · split
      · exact hd
      · split_ifs
        · exact bookInv_removeExpired cs now es _ (bookInv_deleteOrderWithoutLock hd cs _)
        · exact bookInv_removeExpired cs now es d hd
    · exact bookInv_removeExpired cs now es d hd

/-! ## Reachable states -/

/-- The writes of the order book, one call each. `Add` and `AddSignedOrder` get an id that is not in the book;
`RemoveExpiredSignedOrders` may visit the map's entries in any order. -/
inductive Step : InMemoryDatabase → InMemoryDatabase → Prop
  | add (d : InMemoryDatabase) (order : Order) (hfresh : d.orders.lookup order.id = none) : Step d (d.add order)
  | addSignedOrder (d : InMemoryDatabase) (order : Order) (requiredMargin : Int)
      (hfresh : d.orders.lookup order.id = none) : Step d (d.addSignedOrder order requiredMargin)
  | delete (d : InMemoryDatabase) (cs : ConfigService) (orderId : Hash) : Step d (d.delete cs orderId)
  | accept (d : InMemoryDatabase) (cs : ConfigService) (acceptedBlockNumber blockTimestamp : Nat) :
      Step d (d.accept cs acceptedBlockNumber blockTimestamp).state
  | removeExpiredSignedOrders (d : InMemoryDatabase) (cs : ConfigService) (now : Int)
      (visit : List (Σ _ : Hash, Ptr)) : Step d (d.removeExpiredSignedOrders cs now visit).state
  | updateFilledBaseAssetQuantity (d : InMemoryDatabase) (cs : ConfigService) (quantity : Int) (orderId : Hash)
      (blockNumber : Nat) : Step d (d.updateFilledBaseAssetQuantity cs quantity orderId blockNumber).state
  | setOrderStatus (d d' : InMemoryDatabase) (orderId : Hash) (status : Status) (info : String) (blockNumber : Nat)
      (h : d.setOrderStatus orderId status info blockNumber = .ok d') : Step d d'
  | revertLastStatus (d d' : InMemoryDatabase) (orderId : Hash) (h : d.revertLastStatus orderId = .ok d') :
      Step d d'

/-- The states `NewInMemoryDatabase` reaches by the writes. -/
def Reachable (db : InMemoryDatabase) : Prop := Relation.ReflTransGen Step newInMemoryDatabase db

theorem BookInv.step (hi : BookInv db) {db' : InMemoryDatabase} (hs : Step db db') : BookInv db' := by
  cases hs with
  | add _ hfresh => exact bookInv_add hi hfresh
  | addSignedOrder _ _ hfresh => exact bookInv_addSignedOrder hi hfresh _
  | delete cs orderId => exact bookInv_deleteOrderWithoutLock hi cs orderId
  | accept cs a t => exact bookInv_accept hi cs a t
  | removeExpiredSignedOrders cs now visit => exact bookInv_removeExpired cs now visit db hi
  | updateFilledBaseAssetQuantity cs q orderId b => exact bookInv_updateFilledBaseAssetQuantity hi cs q orderId b
  | setOrderStatus _ _ _ _ _ h => exact bookInv_setOrderStatus hi h
  | revertLastStatus _ _ h => exact bookInv_revertLastStatus hi h

/-- Every reachable state keeps the invariant. -/
theorem Reachable.bookInv (h : Reachable db) : BookInv db := by
  induction h with
  | refl => exact bookInv_new
  | tail _ hs ih => exact ih.step hs

/-- **The order book's map and sides agree, and every side is sorted**, in every reachable state: a mapped pointer
sits exactly once in the side of its position type and market and in no other, every pointer of a side is mapped
under its record's id, and every side is sorted for `bookBefore`. -/
theorem reachable_orderbook_consistent (h : Reachable db) :
    (∀ id p, db.orders.lookup id = some p → ∀ pt m,
      (db.sideOrders pt m).count p = if pt = (db.deref p).positionType ∧ m = (db.deref p).market then 1 else 0) ∧
    (∀ pt m q, q ∈ db.sideOrders pt m → db.orders.lookup (db.deref q).id = some q) ∧
    (∀ pt m, (db.held pt m).Pairwise (bookBefore pt)) := by
  have hi := h.bookInv
  refine ⟨fun id p hp pt m => ?_, fun pt m q hq => (hi.side_mapped pt m q hq).1, hi.side_sorted⟩
  split_ifs with hs
  · obtain ⟨rfl, rfl⟩ := hs
    exact List.count_eq_one_of_mem (hi.side_nodup _ _) (hi.mapped_side id p hp)
  · apply List.count_eq_zero_of_not_mem
    intro hmem
    obtain ⟨-, h₂, h₃⟩ := hi.side_mapped pt m p hmem
    exact hs ⟨h₂.symm, h₃.symm⟩


/-- An IOC long of market `0` for one unit at `1`, placed in block `0`. -/
def mixedIOC : Order :=
  { (default : Order) with
    id := 3, baseAssetQuantity := 10 ^ 18, price := 10 ^ 6, orderType := .ioc,
    rawOrder := .ioc ⟨⟨0, 0, 10 ^ 18, 10 ^ 6, 3, false⟩, 1, 0⟩ }

/-- Four orders of market `0`, added in this order: a limit long at `1`, a limit long at `2`, the IOC long `mixedIOC`
at `1` in the same block as the first, and a limit short at `3`. -/
def mixedBook : InMemoryDatabase :=
  (((newInMemoryDatabase.add { (default : Order) with id := 1, baseAssetQuantity := 10 ^ 18, price := 10 ^ 6 }).add
    { (default : Order) with id := 2, baseAssetQuantity := 10 ^ 18, price := 2 * 10 ^ 6 }).add mixedIOC).add
    { (default : Order) with id := 4, positionType := .short, baseAssetQuantity := -10 ^ 18, price := 3 * 10 ^ 6 }

/-- The book of `mixedBook` is consistent; its bids run from the higher price down, with the IOC long ahead of the
limit long it ties with. -/
theorem orderbook_consistent_after_add :
    Reachable mixedBook ∧
      ((∀ id p, mixedBook.orders.lookup id = some p → ∀ pt m,
        (mixedBook.sideOrders pt m).count p =
          if pt = (mixedBook.deref p).positionType ∧ m = (mixedBook.deref p).market then 1 else 0) ∧
      (∀ pt m q, q ∈ mixedBook.sideOrders pt m → mixedBook.orders.lookup (mixedBook.deref q).id = some q) ∧
      (∀ pt m, (mixedBook.held pt m).Pairwise (bookBefore pt))) ∧
      (mixedBook.held .long 0).map (·.id) = [2, 3, 1] := by
  have h : Reachable mixedBook :=
    .tail (.tail (.tail (.single (.add _ _ rfl)) (.add _ _ rfl)) (.add _ _ rfl)) (.add _ _ rfl)
  exact ⟨h, reachable_orderbook_consistent h, by decide +kernel⟩

end Hubblenet.InMemoryDatabase
