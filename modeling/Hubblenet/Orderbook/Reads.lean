import Hubblenet.Orderbook.Invariant
import Hubblenet.Lib.Abi

/-!
# Reading a side of the book

`GetLongOrders` and `GetShortOrders` walk one side of a market in book order, break at the first order past the
bound, and keep what `getCleanOrder` makes of each order before it (`collectOrders_clean`). On a side sorted for
`bookBefore` every order after one past the bound is past it too (`pastBound_of_bookBefore`), so the break misses
no order within the bound: the walk keeps what `getCleanOrder` makes of every order of the side within the bound,
in book order (`getOrdersWithoutLock_clean`), in every reachable state.

`getCleanOrder` keeps an order only if it is `Eligible`, as it is unless it is reduce-only, and a reduce-only one
only against a non-zero position of the other sign, cut down to that position's size (`ClippedToPosition`,
`getCleanOrder_eq_some`); it keeps every eligible order that is not reduce-only (`getCleanOrder_of_eligible`).
It panics on an order whose lifecycle is empty, and reverting the `Placed` status of an order reaches such a state
(`getLongOrders_reverted_panics`).
-/

namespace Hubblenet

open Go Lib.Abi

namespace InMemoryDatabase

variable (db : InMemoryDatabase)

/-- Past the bound stays past the bound along the book's order. -/
theorem pastBound_of_bookBefore {pt : PositionType} {a b : Order} (bound : Option Int) (h : bookBefore pt a b)
    (ha : pastBound pt a.price bound = true) : pastBound pt b.price bound = true := by
  cases pt <;> cases bound <;> simp only [pastBound, bookBefore, decide_eq_true_eq] at h ha ⊢ <;> omega

@[simp] theorem not_pastBound_long (price : Int) (bound : Option Int) :
    (!pastBound .long price bound) = bound.all (· ≤ price) := by
  cases bound <;> simp [pastBound, ← decide_not]

@[simp] theorem not_pastBound_short (price : Int) (bound : Option Int) :
    (!pastBound .short price bound) = bound.all (price ≤ ·) := by
  cases bound <;> simp [pastBound, ← decide_not]

/-- The cleaning walk keeps what `getCleanOrder` makes of each order up to the first one past the bound, in order,
and panics with the first of them that panics. -/
theorem collectOrders_clean (pt : PositionType) (bound blockNumber : Option Int) (now : Int) :
    ∀ ps, db.collectOrders pt bound blockNumber now true ps =
      ((ps.takeWhile fun p => !pastBound pt (db.deref p).price bound).map db.deref).filterMapM
        (db.getCleanOrder · blockNumber now)
  | [] => rfl
  | p :: ps => by
    rw [collectOrders]
    by_cases h : pastBound pt (db.deref p).price bound
    · simp [h]
      rfl
    · rw [if_neg h, if_pos rfl, List.takeWhile_cons_of_pos (by simpa using h), List.map_cons, List.filterMapM_cons,
        ← collectOrders_clean pt bound blockNumber now ps]
      -- both sides clean the order first and walk the rest after it
      cases db.getCleanOrder (db.deref p) blockNumber now with
      | error e => rfl
      | ok clean => cases clean <;> cases db.collectOrders pt bound blockNumber now true ps <;> rfl

variable {db}

/-- On a sorted side the break at the first order past the bound misses nothing: the walk keeps what
`getCleanOrder` makes of every order within the bound, in book order. -/
theorem getOrdersWithoutLock_clean (hi : BookInv db) (pt : PositionType) (market : Market)
    (bound blockNumber : Option Int) (now : Int) :
    db.getOrdersWithoutLock pt market bound blockNumber now true =
      ((db.held pt market).filter fun o => !pastBound pt o.price bound).filterMapM
        (db.getCleanOrder · blockNumber now) := by
  have hstop : (db.held pt market).takeWhile (fun o => !pastBound pt o.price bound) =
      (db.held pt market).filter fun o => !pastBound pt o.price bound :=
    Lib.takeWhile_eq_filter_of_pairwise (fun a b hab ha => by
      simpa using pastBound_of_bookBefore bound hab (by simpa using ha)) (hi.side_sorted pt market)
  rw [getOrdersWithoutLock, collectOrders_clean, ← hstop, held, List.takeWhile_map]
  rfl

/-! ## What `getCleanOrder` keeps -/

/-- An order `getCleanOrder` offers at block `blockNumber` and time `now`: its last status is `Placed`, or
`Execution_Failed` from at least `RETRY_AFTER_BLOCKS` blocks before (as the source compares them, in 64 bits), and
it has not expired. -/
def Eligible (o : Order) (blockNumber : Option Int) (now : Int) : Prop :=
  (∃ s ∈ o.lifecycleList.getLast?, s.status = .placed ∨ s.status = .executionFailed ∧
      ∃ bn ∈ blockNumber, (s.blockNumber + RETRY_AFTER_BLOCKS) % 2 ^ 64 ≤ toUint64 bn) ∧
    ∃ expireAt, o.getExpireAt = .ok expireAt ∧ (0 < expireAt → now < toInt64 expireAt)

variable (db) in
/-- `o'` is the reduce-only order `o` as far as it still reduces its trader's position: the position in `o`'s market
is non-zero and of a sign other than `o`'s, and `o'` is `o` with what is left unfilled cut down to the position's
size. -/
def ClippedToPosition (o o' : Order) : Prop :=
  ∃ t position size, db.traderMap.lookup o.trader = some t ∧ t.positions.lookup o.market = some position ∧
    position.size = some size ∧ size ≠ 0 ∧ size.sign ≠ o.baseAssetQuantity.sign ∧
    o' = { o with filledBaseAssetQuantity := o'.filledBaseAssetQuantity } ∧
    o'.getUnFilledBaseAssetQuantity.natAbs = min o.getUnFilledBaseAssetQuantity.natAbs size.natAbs

theorem getOrderStatus_eq_ok {o : Order} {s : Lifecycle} :
    o.getOrderStatus = .ok s ↔ o.lifecycleList.getLast? = some s := by
  unfold Order.getOrderStatus
  split <;> simp_all

theorem getReduceOnlyOrderDisplay_eq_some {o o' : Order} (h : db.getReduceOnlyOrderDisplay o = .ok (some o')) :
    db.ClippedToPosition o o' := by
  unfold getReduceOnlyOrderDisplay at h
  split at h
  · cases h
  rename_i t ht
  split at h
  · cases h
  rename_i position hposition
  split at h
  · cases h
  rename_i size hsize
  split_ifs at h with hnone hfits <;> cases h
  all_goals
    obtain ⟨hsize0, hsign⟩ := not_or.mp hnone
    refine ⟨t, position, size, ht, hposition, hsize, fun h0 => hsize0 (by simp [h0]), hsign, rfl, ?_⟩
  · exact (min_eq_left hfits).symm
  · -- the copy is filled up to the position, so what is left of it is the position's size
    have hleft : (o.baseAssetQuantity - (o.baseAssetQuantity + size)).natAbs = size.natAbs := by
      rw [sub_add_cancel_left, Int.natAbs_neg]
    exact hleft.trans (min_eq_right (le_of_not_ge hfits)).symm

/-- What `getCleanOrder` keeps is eligible; it is the order itself unless the order is reduce-only, and then the
order clipped to its trader's position. -/
theorem getCleanOrder_eq_some {o o' : Order} {blockNumber : Option Int} {now : Int}
    (h : db.getCleanOrder o blockNumber now = .ok (some o')) :
    Eligible o blockNumber now ∧ (o.reduceOnly = false → o' = o) ∧
      (o.reduceOnly = true → db.ClippedToPosition o o') := by
  unfold getCleanOrder at h
  obtain ⟨s, hs, h⟩ := bind_eq_ok.mp h
  obtain ⟨e, he, h⟩ := bind_eq_ok.mp h
  dsimp only at h
  split_ifs at h with hel hro
  all_goals first | cases h | skip
  all_goals
    have helig : Eligible o blockNumber now := by
      refine ⟨⟨s, getOrderStatus_eq_ok.mp hs, ?_⟩, e, he, ?_⟩
      · revert hel; cases s.status <;> cases blockNumber <;> simp +contextual
      · intro he0; simp at hel; omega
  · exact ⟨helig, fun hro' => by simp [hro] at hro', fun _ => getReduceOnlyOrderDisplay_eq_some h⟩
  · exact ⟨helig, fun _ => rfl, fun hro' => absurd hro' hro⟩

/-- `getCleanOrder` keeps every eligible order that is not reduce-only, as it is. -/
theorem getCleanOrder_of_eligible {o : Order} {blockNumber : Option Int} {now : Int}
    (helig : Eligible o blockNumber now) (hro : o.reduceOnly = false) :
    db.getCleanOrder o blockNumber now = .ok (some o) := by
  obtain ⟨⟨s, hs, hstatus⟩, e, he, hexp⟩ := helig
  rw [getCleanOrder, getOrderStatus_eq_ok.mpr hs]
  simp only [bind, Except.bind, he]
  have hlive : (!(decide (0 < e) && decide (toInt64 e ≤ now))) = true := by
    simp only [Bool.not_eq_true', Bool.and_eq_false_iff, decide_eq_false_iff_not]
    omega
  rw [if_pos, if_neg (by simp [hro])]
  · rfl
  rcases hstatus with hst | ⟨hst, bn, rfl, hle⟩
  · simp only [hst, hlive, Bool.true_and]
  · simp only [hst, hle, hlive, decide_true, Bool.true_and]

/-- **`GetLongOrders` and `GetShortOrders`**, in every reachable state: what `getCleanOrder` makes of every order of
the side with a price within the bound, in book order; an order kept is eligible and, if reduce-only, clipped to its
trader's position, and every eligible order that is not reduce-only is kept as it is. -/
theorem getOrders_eligible_within_bound (hdb : Reachable db) (market : Market)
    (lowerbound upperbound blockNumber : Option Int) (now : Int) :
    db.getLongOrders market lowerbound blockNumber now =
        ((db.held .long market).filter fun o => lowerbound.all (· ≤ o.price)).filterMapM
          (db.getCleanOrder · blockNumber now) ∧
      db.getShortOrders market upperbound blockNumber now =
        ((db.held .short market).filter fun o => upperbound.all (o.price ≤ ·)).filterMapM
          (db.getCleanOrder · blockNumber now) ∧
      (∀ o o', db.getCleanOrder o blockNumber now = .ok (some o') →
        Eligible o blockNumber now ∧ (o.reduceOnly = false → o' = o) ∧
          (o.reduceOnly = true → db.ClippedToPosition o o')) ∧
      ∀ o, Eligible o blockNumber now → o.reduceOnly = false →
        db.getCleanOrder o blockNumber now = .ok (some o) := by
  have hi := hdb.bookInv
  refine ⟨?_, ?_, fun _ _ => getCleanOrder_eq_some, fun _ => getCleanOrder_of_eligible⟩
  · simpa [getLongOrders, getLongOrdersWithoutLock] using getOrdersWithoutLock_clean hi .long market lowerbound
      blockNumber now
  · simpa [getShortOrders, getShortOrdersWithoutLock] using getOrdersWithoutLock_clean hi .short market upperbound
      blockNumber now

end InMemoryDatabase

open InMemoryDatabase

/-- An IOC bid of market `0` for two units at `2`, expiring at time `10`. -/
def iocBid : Order :=
  { (default : Order) with
    id := 3, baseAssetQuantity := 2, price := 2, orderType := .ioc, rawOrder := .ioc ⟨⟨0, 0, 2, 2, 3, false⟩, 1, 10⟩ }

/-- A book of market `0`, added in this order: limit bids of one unit at `2` and of four units at `1`, an IOC bid of
two units at `2` placed in the same block as the first and expiring at time `10`, and a limit ask of three units at
`3`. -/
def bidBook : InMemoryDatabase :=
  (((newInMemoryDatabase.add { (default : Order) with id := 1, baseAssetQuantity := 1, price := 2 }).add
    { (default : Order) with id := 2, baseAssetQuantity := 4, price := 1 }).add iocBid).add
    { (default : Order) with id := 4, positionType := .short, baseAssetQuantity := -3, price := 3 }

theorem bidBook_reachable : Reachable bidBook :=
  .tail (.tail (.tail (.single (.add _ _ rfl)) (.add _ _ rfl)) (.add _ _ rfl)) (.add _ _ rfl)

/-- Above the lower bound `2` the bids are the IOC bid, then the limit bid it ties with; the bid at `1` is left out
and the ask is within the upper bound `3`. -/
theorem getOrders_eligible_bidBook :
    Reachable bidBook ∧
      (bidBook.getLongOrders 0 (some 2) (some 20) 0 =
          ((bidBook.held .long 0).filter fun o => (some 2).all (· ≤ o.price)).filterMapM
            (bidBook.getCleanOrder · (some 20) 0) ∧
        bidBook.getShortOrders 0 (some 3) (some 20) 0 =
          ((bidBook.held .short 0).filter fun o => (some 3).all (o.price ≤ ·)).filterMapM
            (bidBook.getCleanOrder · (some 20) 0) ∧
        (∀ o o', bidBook.getCleanOrder o (some 20) 0 = .ok (some o') →
          Eligible o (some 20) 0 ∧ (o.reduceOnly = false → o' = o) ∧
            (o.reduceOnly = true → bidBook.ClippedToPosition o o')) ∧
        ∀ o, Eligible o (some 20) 0 → o.reduceOnly = false →
          bidBook.getCleanOrder o (some 20) 0 = .ok (some o)) ∧
      (bidBook.getLongOrders 0 (some 2) (some 20) 0).map (List.map (·.id)) = .ok [3, 1] ∧
      (bidBook.getShortOrders 0 (some 3) (some 20) 0).map (List.map (·.id)) = .ok [4] :=
  ⟨bidBook_reachable, getOrders_eligible_within_bound bidBook_reachable 0 (some 2) (some 3) (some 20) 0,
    by decide +kernel, by decide +kernel⟩

/-- **`GetLongOrders` panics on a reachable book**: the `Placed` status of `bidBook`'s first order reverted, its
lifecycle is empty and `getOrderStatus` indexes past it. -/
theorem getLongOrders_reverted_panics :
    ∃ db, Reachable db ∧ db.getLongOrders 0 none none 0 = .error .indexOutOfRange :=
  ⟨_, .tail bidBook_reachable (.revertLastStatus _ _ 1 rfl), by decide +kernel⟩

end Hubblenet
