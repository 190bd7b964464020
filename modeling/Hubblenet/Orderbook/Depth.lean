import Hubblenet.Orderbook.Reads
import Hubblenet.Lib.MapRange

/-!
# The depth stream

`StreamDepthUpdateForMarket` sends a subscriber, at every tick, what changed in a market's depth since the tick
before. `getDepthForMarket` reads both sides of the book through `GetLongOrders` and `GetShortOrders` and adds up the
unfilled quantities of the orders at each price, prices and quantities written as decimal strings
(`aggregateOrdersByPrice`); `getUpdateInDepth` keeps the levels that changed, and writes `"0"` for a level that is
gone. A subscriber sets every level of an update and deletes a level of `"0"` (`applyDepthUpdateSide`).

* The aggregation never panics: every quantity it parses back is one it wrote. Each level it writes is the sum of
  the unfilled quantities of the orders at its price, and it writes no other key (`aggregateOrdersByPrice_levels`).
* One tick keeps what the subscriber shows equal to the depth read last, a level of `"0"` not shown
  (`Shows.tick`): the update is the difference of the two depths, whatever order the runtime visits the maps in.
* Over every run of the stream, whatever the book does between the ticks, the subscriber shows the depth of the book
  at the last tick (`depthStream_shows_book`): at every price the sum of the unfilled quantities of the orders there,
  unless no order is there or the sum is `0`.
-/

namespace Hubblenet

open Go Lib Lib.Abi

/-- `MarketDepth`: the levels of a market's two sides, price to quantity, both as decimal strings. -/
structure MarketDepth where
  market : Market
  longs : GoMap String String
  shorts : GoMap String String

/-- `&MarketDepth{}`: market `0`, and nil maps, which read as no level. -/
def emptyMarketDepth : MarketDepth := ⟨0, ∅, ∅⟩

/-- `big.NewInt(0).SetString(s, 10)`: `nil` when `s` is not a decimal integer. -/
def setString (s : String) : Option Int := s.toInt?

/-- `big.NewInt(0).String()`, the quantity `getUpdateInDepth` writes for a level that is gone. -/
def zeroLevel : String := (0 : Int).repr

/-- One pass of the loop of `aggregateOrdersByPrice`: a price seen before gets its quantity parsed back and the
order's unfilled quantity added; `quantity.Add` on the `nil` of a failed `SetString` panics. -/
def aggregateStep (aggregatedOrders : GoMap String String) (order : Order) : Except Panic (GoMap String String) :=
  match aggregatedOrders.lookup order.price.repr with
  | some aggregatedBaseAssetQuantity =>
    match setString aggregatedBaseAssetQuantity with
    | some quantity =>
      .ok (aggregatedOrders.insert order.price.repr (quantity + order.getUnFilledBaseAssetQuantity).repr)
    | none => .error .nilDereference
  | none => .ok (aggregatedOrders.insert order.price.repr order.getUnFilledBaseAssetQuantity.repr)

/-- `aggregateOrdersByPrice`. -/
def aggregateOrdersByPrice (orders : List Order) : Except Panic (GoMap String String) :=
  orders.foldlM aggregateStep ∅

/-- `getDepthForMarket`, at the time `now` that `getCleanOrder` reads. -/
def getDepthForMarket (db : InMemoryDatabase) (market : Market) (now : Int) : Except Panic MarketDepth := do
  let longOrders ← db.getLongOrders market none none now
  let shortOrders ← db.getShortOrders market none none now
  let longs ← aggregateOrdersByPrice longOrders
  let shorts ← aggregateOrdersByPrice shortOrders
  return ⟨market, longs, shorts⟩

/-- The orders in which the runtime visits the two maps of one side in `getUpdateInDepth`: permutations of their
entries. -/
structure SideVisits (newSide oldSide : GoMap String String) where
  visitNew : List (Σ _ : String, String)
  visitOld : List (Σ _ : String, String)
  visitNew_perm : visitNew.Perm newSide.entries
  visitOld_perm : visitOld.Perm oldSide.entries

/-- The visits of the maps in their own entry order. -/
def SideVisits.entries (newSide oldSide : GoMap String String) : SideVisits newSide oldSide :=
  ⟨newSide.entries, oldSide.entries, .refl _, .refl _⟩

/-- The visit orders of one `getUpdateInDepth`. -/
structure DepthVisits (new old : MarketDepth) where
  longs : SideVisits new.longs old.longs
  shorts : SideVisits new.shorts old.shorts

/-- The two loops of `getUpdateInDepth` over one side: a level of the new side that differs from the old one's (a
missing level reads `""`), then `"0"` for a level of the old side that the new one lacks. -/
def depthUpdateSide (newSide oldSide : GoMap String String) (visits : SideVisits newSide oldSide) :
    GoMap String String :=
  let diff := visits.visitNew.foldl (insertIf (fun e => (oldSide.lookup e.1).getD "" != e.2) (·.2)) ∅
  visits.visitOld.foldl (insertIf (fun e => (newSide.lookup e.1).getD "" == "") fun _ => zeroLevel) diff

/-- `getUpdateInDepth`. -/
def getUpdateInDepth (newMarketDepth oldMarketDepth : MarketDepth) (visits : DepthVisits newMarketDepth oldMarketDepth) :
    MarketDepth where
  market := newMarketDepth.market
  longs := depthUpdateSide newMarketDepth.longs oldMarketDepth.longs visits.longs
  shorts := depthUpdateSide newMarketDepth.shorts oldMarketDepth.shorts visits.shorts

/-- What a subscriber makes of an update of one side: a level of `"0"` is gone, any other is set. The subscriber is
not part of this repository: this is the meaning `getUpdateInDepth` gives the levels it writes. -/
def applyDepthUpdateSide (view update : GoMap String String) : GoMap String String :=
  update.entries.foldl (setOrErase zeroLevel) view

/-- The two sides a subscriber shows after a list of updates, from nothing. -/
def subscriberView (updates : List MarketDepth) : GoMap String String × GoMap String String :=
  updates.foldl (fun view u => (applyDepthUpdateSide view.1 u.longs, applyDepthUpdateSide view.2 u.shorts)) (∅, ∅)

/-- A view shows a side: the same level at every price, except that a level of `"0"` is not shown. -/
def Shows (view side : GoMap String String) : Prop :=
  ∀ price, view.lookup price = (side.lookup price).filter (· != zeroLevel)

/-- The runs of the loop of `StreamDepthUpdateForMarket` on one market: the updates sent so far, and the depth read
last (`oldMarketDepth`). A tick reads the book as it then is, at the time it then is; a read that panics ends the
goroutine (`executeFuncAndRecoverPanic` recovers it), so a run only grows by ticks whose read returns. -/
inductive DepthStream (market : Market) : List MarketDepth → MarketDepth → Prop
  | start : DepthStream market [] emptyMarketDepth
  | tick {updates : List MarketDepth} {old new : MarketDepth} (db : InMemoryDatabase) (now : Int)
      (visits : DepthVisits new old) :
      DepthStream market updates old → getDepthForMarket db market now = .ok new →
      DepthStream market (updates ++ [getUpdateInDepth new old visits]) new

/-! ## Decimal strings -/

theorem repr_ne_empty (a : Int) : a.repr ≠ "" := by
  cases a with
  | ofNat m => exact Nat.repr_ne_empty
  | negSucc m =>
    intro h
    have hlen := congrArg String.length h
    simp [Int.repr] at hlen

/-- Every level of a side is a decimal integer. -/
def Decimal (side : GoMap String String) : Prop := ∀ k v, side.lookup k = some v → ∃ q : Int, v = q.repr

theorem Decimal.empty : Decimal ∅ := fun _ _ h => by simp at h

theorem Decimal.ne_empty {side : GoMap String String} (h : Decimal side) (k : String) : side.lookup k ≠ some "" := by
  intro hk
  obtain ⟨q, hq⟩ := h k "" hk
  exact repr_ne_empty q hq.symm

/-- The quantity a side holds at a price, read back. -/
def amountAt (side : GoMap String String) (price : Int) : Option Int := (side.lookup price.repr).bind setString

/-- The quantity of a level: the unfilled quantities of the orders at a price, added up. -/
def levelQuantity (orders : List Order) (price : Int) : Int :=
  ((orders.filter (·.price = price)).map Order.getUnFilledBaseAssetQuantity).sum

/-! ## Aggregating a side -/

section Aggregate

variable {acc : GoMap String String}

/-- One pass writes the decimal sum at the order's price, and never panics on a side of decimals. -/
theorem aggregateStep_spec (hacc : Decimal acc) (order : Order) :
    aggregateStep acc order =
      .ok (acc.insert order.price.repr ((amountAt acc order.price).getD 0 + order.getUnFilledBaseAssetQuantity).repr) := by
  unfold aggregateStep amountAt
  cases hk : acc.lookup order.price.repr with
  | none => simp
  | some v =>
    -- what the side holds there is a decimal it wrote, so `SetString` reads it back
    obtain ⟨q, rfl⟩ := hacc _ _ hk
    simp [setString, Int.toInt?_repr]

theorem Decimal.insert (hacc : Decimal acc) (k : String) (q : Int) : Decimal (acc.insert k q.repr) := by
  intro k' v hv
  by_cases hk : k' = k
  · subst hk
    rw [AList.lookup_insert, Option.some.injEq] at hv
    exact ⟨q, hv.symm⟩
  · rw [AList.lookup_insert_ne hk] at hv
    exact hacc k' v hv

theorem amountAt_insert (k : Int) (q : Int) (price : Int) :
    amountAt (acc.insert k.repr q.repr) price = if price = k then some q else amountAt acc price := by
  unfold amountAt
  split_ifs with hp
  · subst hp
    simp [setString, Int.toInt?_repr]
  · rw [AList.lookup_insert_ne (fun h => hp (Int.repr_injective h))]

theorem levelQuantity_cons (order : Order) (orders : List Order) (price : Int) :
    levelQuantity (order :: orders) price =
      (if order.price = price then order.getUnFilledBaseAssetQuantity else 0) + levelQuantity orders price := by
  unfold levelQuantity
  by_cases hp : order.price = price <;> simp [hp]

/-- The loop of `aggregateOrdersByPrice` from any side of decimals: it returns a side of decimals that adds, at
every price, the unfilled quantities of the orders there, and keeps every key no order has. -/
theorem aggregate_loop : ∀ (orders : List Order) {acc : GoMap String String}, Decimal acc →
    ∃ side, orders.foldlM aggregateStep acc = .ok side ∧ Decimal side ∧
      (∀ price, amountAt side price =
        if (amountAt acc price).isSome ∨ ∃ o ∈ orders, o.price = price then
          some ((amountAt acc price).getD 0 + levelQuantity orders price)
        else none) ∧
      ∀ k, (∀ o ∈ orders, k ≠ o.price.repr) → side.lookup k = acc.lookup k
  | [], acc, hacc => ⟨acc, rfl, hacc, fun price => by
      cases h : amountAt acc price <;> simp [levelQuantity], fun _ _ => rfl⟩
  | order :: orders, acc, hacc => by
    have hacc' := hacc.insert order.price.repr ((amountAt acc order.price).getD 0 + order.getUnFilledBaseAssetQuantity)
    obtain ⟨side, hrun, hdec, hamount, hkeep⟩ := aggregate_loop orders hacc'
    refine ⟨side, by rw [List.foldlM_cons, aggregateStep_spec hacc]; exact hrun, hdec, fun price => ?_,
      fun k hk => ?_⟩
    · rw [hamount, amountAt_insert, levelQuantity_cons]
      -- the order's own price is seen now; any other price is where it was
      by_cases hp : price = order.price
      · subst hp
        have hseen : ∃ o ∈ order :: orders, o.price = order.price := ⟨order, List.mem_cons_self, rfl⟩
        simp only [if_true, Option.isSome_some, true_or, Option.getD_some, hseen, or_true]
        congr 1
        ring
      · have hne : order.price ≠ price := Ne.symm hp
        simp only [hp, if_false, hne, zero_add, List.mem_cons, exists_eq_or_imp, false_or]
    · rw [hkeep k fun o ho => hk o (List.mem_cons_of_mem _ ho),
        AList.lookup_insert_ne (hk order List.mem_cons_self)]

/-- **Each level of a side is the sum of the unfilled quantities of the orders at its price**: the aggregation
never panics, writes a level at every price some order has, and no other key. -/
theorem aggregateOrdersByPrice_levels (orders : List Order) :
    ∃ side, aggregateOrdersByPrice orders = .ok side ∧ Decimal side ∧
      (∀ price, side.lookup price.repr =
        if ∃ o ∈ orders, o.price = price then some (levelQuantity orders price).repr else none) ∧
      ∀ k, (∀ o ∈ orders, k ≠ o.price.repr) → side.lookup k = none := by
  obtain ⟨side, hrun, hdec, hamount, hkeep⟩ := aggregate_loop orders Decimal.empty
  refine ⟨side, hrun, hdec, fun price => ?_, fun k hk => by rw [hkeep k hk]; rfl⟩
  have hp := hamount price
  simp only [amountAt, AList.lookup_empty, Option.bind_none, Option.isSome_none, Bool.false_eq_true, false_or,
    Option.getD_none, zero_add] at hp
  -- the level is a decimal, so it is the decimal of the amount read back
  cases hl : side.lookup price.repr with
  | none =>
    rw [hl, Option.bind_none] at hp
    by_cases h : ∃ o ∈ orders, o.price = price
    · rw [if_pos h] at hp
      cases hp
    · rw [if_neg h]
  | some v =>
    obtain ⟨q, rfl⟩ := hdec _ _ hl
    rw [hl] at hp
    simp only [Option.bind_some, setString, Int.toInt?_repr] at hp
    by_cases h : ∃ o ∈ orders, o.price = price
    · rw [if_pos h, Option.some.injEq] at hp
      rw [if_pos h, hp]
    · rw [if_neg h] at hp
      cases hp

end Aggregate

/-- What a depth read from the book is: the aggregation of what the two walks returned. -/
theorem getDepthForMarket_eq_ok {db : InMemoryDatabase} {market : Market} {now : Int} {depth : MarketDepth}
    (h : getDepthForMarket db market now = .ok depth) :
    ∃ longOrders shortOrders, db.getLongOrders market none none now = .ok longOrders ∧
      db.getShortOrders market none none now = .ok shortOrders ∧
      aggregateOrdersByPrice longOrders = .ok depth.longs ∧ aggregateOrdersByPrice shortOrders = .ok depth.shorts := by
  unfold getDepthForMarket at h
  obtain ⟨longOrders, hl, h⟩ := bind_eq_ok.mp h
  obtain ⟨shortOrders, hs, h⟩ := bind_eq_ok.mp h
  obtain ⟨longs, hlongs, h⟩ := bind_eq_ok.mp h
  obtain ⟨shorts, hshorts, h⟩ := bind_eq_ok.mp h
  cases h
  exact ⟨longOrders, shortOrders, hl, hs, hlongs, hshorts⟩

/-- A depth read from the book holds decimals on both sides. -/
theorem getDepthForMarket_decimal {db : InMemoryDatabase} {market : Market} {now : Int} {depth : MarketDepth}
    (h : getDepthForMarket db market now = .ok depth) : Decimal depth.longs ∧ Decimal depth.shorts := by
  obtain ⟨longOrders, shortOrders, -, -, hlongs, hshorts⟩ := getDepthForMarket_eq_ok h
  obtain ⟨longs, hlongs', hdl, -⟩ := aggregateOrdersByPrice_levels longOrders
  obtain ⟨shorts, hshorts', hds, -⟩ := aggregateOrdersByPrice_levels shortOrders
  rw [hlongs, Except.ok.injEq] at hlongs'
  rw [hshorts, Except.ok.injEq] at hshorts'
  rw [hlongs', hshorts']
  exact ⟨hdl, hds⟩

/-! ## One tick -/

section Tick

variable {newSide oldSide view : GoMap String String}

theorem depthUpdateSide_eq (visits : SideVisits newSide oldSide) :
    depthUpdateSide newSide oldSide visits =
      visits.visitOld.foldl (insertIf (fun e => (newSide.lookup e.1).getD "" == "") fun _ => zeroLevel)
        (visits.visitNew.foldl (insertIf (fun e => (oldSide.lookup e.1).getD "" != e.2) (·.2)) ∅) := rfl

theorem SideVisits.nodupKeys_visitNew (visits : SideVisits newSide oldSide) : visits.visitNew.NodupKeys :=
  (List.perm_nodupKeys visits.visitNew_perm).mpr newSide.nodupKeys

theorem SideVisits.nodupKeys_visitOld (visits : SideVisits newSide oldSide) : visits.visitOld.NodupKeys :=
  (List.perm_nodupKeys visits.visitOld_perm).mpr oldSide.nodupKeys

theorem SideVisits.dlookup_visitNew (visits : SideVisits newSide oldSide) (k : String) :
    visits.visitNew.dlookup k = newSide.lookup k :=
  List.perm_dlookup k visits.nodupKeys_visitNew visits.visitNew_perm

theorem SideVisits.dlookup_visitOld (visits : SideVisits newSide oldSide) (k : String) :
    visits.visitOld.dlookup k = oldSide.lookup k :=
  List.perm_dlookup k visits.nodupKeys_visitOld visits.visitOld_perm

/-- The first loop of `depthUpdateSide`: the levels of the new side that differ from the old side's. -/
theorem lookup_changedLevels (visits : SideVisits newSide oldSide) (k : String) :
    (visits.visitNew.foldl (insertIf (fun e => (oldSide.lookup e.1).getD "" != e.2) (·.2)) ∅).lookup k =
      (newSide.lookup k).filter fun v => (oldSide.lookup k).getD "" != v := by
  cases hn : visits.visitNew.dlookup k with
  | none =>
    rw [lookup_foldl_of_dlookup_none (writesKey_insertIf _ _) visits.nodupKeys_visitNew ∅ hn,
      ← visits.dlookup_visitNew, hn]
    rfl
  | some v =>
    rw [lookup_foldl_insertIf _ _ visits.nodupKeys_visitNew ∅ hn, ← visits.dlookup_visitNew, hn, Option.filter_some]
    rfl

/-- The second loop of `depthUpdateSide`: `"0"` where the old side has a level and the new one reads `""`. -/
theorem lookup_goneLevels (visits : SideVisits newSide oldSide) (diff : GoMap String String) (k : String) :
    (visits.visitOld.foldl (insertIf (fun e => (newSide.lookup e.1).getD "" == "") fun _ => zeroLevel) diff).lookup k =
      if (oldSide.lookup k).isSome ∧ (newSide.lookup k).getD "" = "" then some zeroLevel else diff.lookup k := by
  cases ho : visits.visitOld.dlookup k with
  | none =>
    rw [lookup_foldl_of_dlookup_none (writesKey_insertIf _ _) visits.nodupKeys_visitOld diff ho]
    rw [visits.dlookup_visitOld] at ho
    simp [ho]
  | some w =>
    rw [lookup_foldl_insertIf _ _ visits.nodupKeys_visitOld diff ho]
    rw [visits.dlookup_visitOld] at ho
    simp [ho]

/-- **The update of a side is the difference of the two sides**, whatever order the runtime visits them in: `"0"`
where a level is gone, the new level where it changed or is new, nothing where nothing changed. -/
theorem lookup_depthUpdateSide (hnew : Decimal newSide) (visits : SideVisits newSide oldSide) (k : String) :
    (depthUpdateSide newSide oldSide visits).lookup k =
      if (newSide.lookup k).isNone ∧ (oldSide.lookup k).isSome then some zeroLevel
      else (newSide.lookup k).filter fun v => oldSide.lookup k != some v := by
  rw [depthUpdateSide_eq, lookup_goneLevels, lookup_changedLevels]
  -- a level of the new side is never `""`, so the second loop writes only where the new side has no level
  cases hn : newSide.lookup k with
  | none => cases oldSide.lookup k <;> simp
  | some v =>
    have hv : v ≠ "" := fun h => hnew.ne_empty k (by rw [hn, h])
    cases oldSide.lookup k with
    | none => simp [Option.filter_some, hv, Ne.symm hv]
    | some w => simp [Option.filter_some, hv]

/-- **A tick keeps the subscriber showing the depth read last.** -/
theorem Shows.tick (h : Shows view oldSide) (hnew : Decimal newSide) (visits : SideVisits newSide oldSide) :
    Shows (applyDepthUpdateSide view (depthUpdateSide newSide oldSide visits)) newSide := by
  intro k
  unfold applyDepthUpdateSide
  have hwrites := writesKey_setOrErase (K := String) zeroLevel
  have hnodup := (depthUpdateSide newSide oldSide visits).nodupKeys
  -- one case per way a level can have changed
  cases hn : newSide.lookup k with
  | none =>
    cases ho : oldSide.lookup k with
    | none =>
      -- no level before or after: nothing is sent
      have hu : (depthUpdateSide newSide oldSide visits).lookup k = none := by
        simp [lookup_depthUpdateSide hnew, hn, ho]
      rw [lookup_foldl_of_dlookup_none hwrites hnodup view hu, h k, ho]
    | some w =>
      -- a level gone: `"0"` is sent, and the subscriber deletes the level
      have hu : (depthUpdateSide newSide oldSide visits).lookup k = some zeroLevel := by
        simp [lookup_depthUpdateSide hnew, hn, ho]
      rw [lookup_foldl_setOrErase zeroLevel hnodup view hu, if_pos rfl, Option.filter_none]
  | some v =>
    by_cases hwv : oldSide.lookup k = some v
    · -- an unchanged level: nothing is sent, and the subscriber keeps showing it
      have hu : (depthUpdateSide newSide oldSide visits).lookup k = none := by
        simp [lookup_depthUpdateSide hnew, hn, hwv]
      rw [lookup_foldl_of_dlookup_none hwrites hnodup view hu, h k, hwv]
    · -- a new or changed level is sent as it is, and shown unless it is `"0"`
      have hu : (depthUpdateSide newSide oldSide visits).lookup k = some v := by
        simp [lookup_depthUpdateSide hnew, hn, hwv]
      rw [lookup_foldl_setOrErase zeroLevel hnodup view hu, Option.filter_some]
      by_cases hv : v = zeroLevel <;> simp [hv]

end Tick

/-! ## Runs of the stream -/

theorem subscriberView_append (updates : List MarketDepth) (u : MarketDepth) :
    subscriberView (updates ++ [u]) =
      (applyDepthUpdateSide (subscriberView updates).1 u.longs,
        applyDepthUpdateSide (subscriberView updates).2 u.shorts) := by
  simp [subscriberView, List.foldl_append]

/-- Over every run of the stream the subscriber shows the depth read last, on both sides. -/
theorem depthStream_shows {market : Market} {updates : List MarketDepth} {old : MarketDepth}
    (h : DepthStream market updates old) :
    Shows (subscriberView updates).1 old.longs ∧ Shows (subscriberView updates).2 old.shorts := by
  induction h with
  | start => exact ⟨fun k => by simp [subscriberView, emptyMarketDepth], fun k => by
      simp [subscriberView, emptyMarketDepth]⟩
  | tick db now visits _ hread ih =>
    obtain ⟨hdl, hds⟩ := getDepthForMarket_decimal hread
    rw [subscriberView_append]
    exact ⟨ih.1.tick hdl visits.longs, ih.2.tick hds visits.shorts⟩

/-- A level of an aggregated side, as a subscriber shows it: the sum of the unfilled quantities at the price, unless
no order is there or the sum is `0`. -/
theorem shows_aggregate {view side : GoMap String String} {orders : List Order} (hshow : Shows view side)
    (hside : aggregateOrdersByPrice orders = .ok side) (price : Int) :
    view.lookup price.repr =
      if (∃ o ∈ orders, o.price = price) ∧ levelQuantity orders price ≠ 0 then
        some (levelQuantity orders price).repr
      else none := by
  obtain ⟨side', hside', -, hlevels, -⟩ := aggregateOrdersByPrice_levels orders
  rw [hside, Except.ok.injEq] at hside'
  subst hside'
  rw [hshow, hlevels]
  by_cases ho : ∃ o ∈ orders, o.price = price
  · -- a level of `"0"` is exactly a zero sum
    have hzero : ((levelQuantity orders price).repr != zeroLevel) = decide (levelQuantity orders price ≠ 0) := by
      by_cases hq : levelQuantity orders price = 0
      · simp [hq, zeroLevel]
      · simp [hq, zeroLevel, Int.repr_inj]
    simp only [ho, if_true, true_and, Option.filter_some, hzero]
    by_cases hq : levelQuantity orders price = 0 <;> simp [hq]
  · simp [ho]

/-- **The subscriber sees the book's depth.** In every run of the depth stream of a market, whatever the book went
through between the ticks, after the updates sent so far the subscriber shows, at every price of each side, the sum
of the unfilled quantities of the orders `GetLongOrders` (or `GetShortOrders`) returned there at the last tick, and
nothing where no order was or the sum is `0`. -/
theorem depthStream_shows_book {market : Market} {updates : List MarketDepth} {old : MarketDepth}
    (h : DepthStream market updates old) {db : InMemoryDatabase} {now : Int}
    (hlast : getDepthForMarket db market now = .ok old) {longOrders shortOrders : List Order}
    (hl : db.getLongOrders market none none now = .ok longOrders)
    (hs : db.getShortOrders market none none now = .ok shortOrders) (price : Int) :
    (subscriberView updates).1.lookup price.repr =
        (if (∃ o ∈ longOrders, o.price = price) ∧ levelQuantity longOrders price ≠ 0 then
          some (levelQuantity longOrders price).repr
        else none) ∧
      (subscriberView updates).2.lookup price.repr =
        if (∃ o ∈ shortOrders, o.price = price) ∧ levelQuantity shortOrders price ≠ 0 then
          some (levelQuantity shortOrders price).repr
        else none := by
  obtain ⟨hlong, hshort⟩ := depthStream_shows h
  -- the depth read last is the aggregation of what the two walks returned
  obtain ⟨longOrders', shortOrders', hl', hs', hlongs, hshorts⟩ := getDepthForMarket_eq_ok hlast
  rw [hl, Except.ok.injEq] at hl'
  rw [hs, Except.ok.injEq] at hs'
  subst hl' hs'
  exact ⟨shows_aggregate hlong hlongs price, shows_aggregate hshort hshorts price⟩

/-- The first tick of a stream of market `0` on `bidBook`: at `2` the subscriber shows the IOC bid and the limit bid
it ties with as one level of three units, and no ask. -/
theorem bidBook_depthStream_shows_book :
    ∃ depth, getDepthForMarket bidBook 0 0 = .ok depth ∧
      levelQuantity [bidBook.deref 2, bidBook.deref 0, bidBook.deref 1] 2 = 3 ∧
      (subscriberView ([] ++ [getUpdateInDepth depth emptyMarketDepth ⟨.entries _ _, .entries _ _⟩])).1.lookup
          (2 : Int).repr =
        (if (∃ o ∈ [bidBook.deref 2, bidBook.deref 0, bidBook.deref 1], o.price = 2) ∧
            levelQuantity [bidBook.deref 2, bidBook.deref 0, bidBook.deref 1] 2 ≠ 0 then
          some (levelQuantity [bidBook.deref 2, bidBook.deref 0, bidBook.deref 1] 2).repr
        else none) ∧
      (subscriberView ([] ++ [getUpdateInDepth depth emptyMarketDepth ⟨.entries _ _, .entries _ _⟩])).2.lookup
          (2 : Int).repr =
        if (∃ o ∈ [bidBook.deref 3], o.price = 2) ∧ levelQuantity [bidBook.deref 3] 2 ≠ 0 then
          some (levelQuantity [bidBook.deref 3] 2).repr
        else none := by
  have hl : bidBook.getLongOrders 0 none none 0 = .ok [bidBook.deref 2, bidBook.deref 0, bidBook.deref 1] := by
    decide +kernel
  have hs : bidBook.getShortOrders 0 none none 0 = .ok [bidBook.deref 3] := by decide +kernel
  -- the depth read at the tick: both sides aggregate without a panic
  obtain ⟨longs, hlongs, -⟩ := aggregateOrdersByPrice_levels [bidBook.deref 2, bidBook.deref 0, bidBook.deref 1]
  obtain ⟨shorts, hshorts, -⟩ := aggregateOrdersByPrice_levels [bidBook.deref 3]
  have hdepth : getDepthForMarket bidBook 0 0 = .ok ⟨0, longs, shorts⟩ := by
    rw [getDepthForMarket, hl, hs]
    simp only [bind, Except.bind, hlongs, hshorts]
    rfl
  exact ⟨_, hdepth, by decide +kernel,
    depthStream_shows_book (.tick bidBook 0 ⟨.entries _ _, .entries _ _⟩ .start hdepth) hdepth hl hs 2⟩

end Hubblenet
