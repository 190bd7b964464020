import Hubblenet.Orderbook.Reads
import Hubblenet.Precompile.Ticks

/-!
# Impact prices: the validator's against the ticks precompile's

`SampleImpactPrice` computes for each market the average price at which the market's impact margin notional would
fill against each side of the book (`calculateImpactPrice`): it walks the orders as `GetLongOrders` and
`GetShortOrders` return them, adds each order's notional rounded down, and stops at the order that reaches the
notional (`impactWalk`). The ticks precompile walks the price levels its storage keeps (`Ticks.sampleImpact`) and
adds each level's notional rounded down.

Where each level holds one order (`OneOrderPerLevel`) the two walks take the same steps (`loop_impactPass_sim`),
the two prices agree for every notional (`calculateImpactPrice_eq_sampleImpactBid`,
`calculateImpactPrice_eq_sampleImpactAsk`), and so `SampleImpactPrice` samples for the market the precompile's impact
bid and ask, or panics where the precompile does (`sampleImpactPriceOf_eq_ticks`). Where a level holds several
orders, rounding each order's notional down loses up to one unit per order, so the validator may find less than the
notional where the precompile finds it (`impactPrice_split_level_diverges`).
-/

namespace Hubblenet

open Go Lib Ticks InMemoryDatabase

/-- `hu.Abs(hu.Sub(order.BaseAssetQuantity, order.FilledBaseAssetQuantity))`: what `calculateImpactPrice` counts of
an order. -/
def Order.unfilledAmount (o : Order) : Int := |o.baseAssetQuantity - o.filledBaseAssetQuantity|

/-- The loop of `calculateImpactPrice` from the sums `s`: an order with nothing unfilled is skipped; at the first
order whose notional brings the sum to `impactMarginNotional` the walk stops (`found`) with its price and the sums
before it; `none` when the orders run out first. -/
def impactWalk (impactMarginNotional : Int) : TickWalk → List Order → Option TickWalk
  | _, [] => none
  | s, order :: orders =>
    let amount := order.unfilledAmount
    if amount = 0 then impactWalk impactMarginNotional s orders
    else
      let accumulator := s.accNotional + div1e6 (amount * order.price)
      if impactMarginNotional ≤ accumulator then some ⟨order.price, s.accNotional, s.accBaseQ⟩
      else impactWalk impactMarginNotional ⟨order.price, accumulator, s.accBaseQ + amount⟩ orders

/-- `calculateImpactPrice`: the average price at which `_impactMarginNotional` would fill against `orders`, `0`
when they do not hold enough. Both `Div`s panic on a zero divisor. -/
def calculateImpactPrice (orders : List Order) (_impactMarginNotional : Int) : Except Panic Int :=
  if _impactMarginNotional = 0 then .ok 0
  else
    let impactMarginNotional := _impactMarginNotional * 10 ^ 12
    match impactWalk impactMarginNotional ⟨0, 0, 0⟩ orders with
    | none => .ok 0
    | some s => do
      let baseQAtTick ← bigDiv (mul1e6 (impactMarginNotional - s.accNotional)) s.tick
      bigDiv (mul1e6 impactMarginNotional) (baseQAtTick + s.accBaseQ)

/-- The impact bid, impact ask and mid price `SampleImpactPrice` computes for market `m` at time `now`, given the
market's impact margin notional. A side with no order samples `0`, and the mid price needs both. -/
def InMemoryDatabase.sampleImpactPriceOf (db : InMemoryDatabase) (m : Market) (impactMarginNotional now : Int) :
    Except Panic (Int × Int × Int) := do
  let longOrders ← db.getLongOrdersWithoutLock m none none now true
  let shortOrders ← db.getShortOrdersWithoutLock m none none now true
  let impactBid ← if longOrders ≠ [] then calculateImpactPrice longOrders impactMarginNotional else pure 0
  let impactAsk ← if shortOrders ≠ [] then calculateImpactPrice shortOrders impactMarginNotional else pure 0
  let midPrice :=
    match longOrders, shortOrders with
    | long :: _, short :: _ => (long.price + short.price) / 2
    | _, _ => 0
  pure (impactBid, impactAsk, midPrice)

/-- `SampleImpactPrice`: the impact bids, impact asks and mid prices of the markets `0, …, GetActiveMarketsCount - 1`;
`impactMarginNotional` is what `GetImpactMarginNotional` reads at each market's AMM. -/
def InMemoryDatabase.sampleImpactPrice (db : InMemoryDatabase) (cs : ConfigService)
    (impactMarginNotional : Market → Int) (now : Int) : Except Panic (List Int × List Int × List Int) := do
  let samples ← ((List.range cs.getActiveMarketsCount.toNat).map Int.ofNat).mapM fun m =>
    db.sampleImpactPriceOf m (impactMarginNotional m) now
  pure (samples.map (·.1), samples.map (·.2.1), samples.map (·.2.2))

section Walk

variable {target : Int} {s : TickWalk} {o : Order} {orders : List Order}

theorem impactWalk_cons_of_eq (h0 : o.unfilledAmount = 0) :
    impactWalk target s (o :: orders) = impactWalk target s orders := by
  simp [impactWalk, h0]

theorem impactWalk_cons_of_ne (h0 : o.unfilledAmount ≠ 0) :
    impactWalk target s (o :: orders) =
      if target ≤ s.accNotional + div1e6 (o.unfilledAmount * o.price) then some ⟨o.price, s.accNotional, s.accBaseQ⟩
      else impactWalk target ⟨o.price, s.accNotional + div1e6 (o.unfilledAmount * o.price),
        s.accBaseQ + o.unfilledAmount⟩ orders := by
  simp [impactWalk, h0]

end Walk

/-! ## One order per level -/

/-- The orders hold the stored levels one each: those with something unfilled are, in order, the levels `levels`
with the sizes `size` stores for them. -/
def OneOrderPerLevel (orders : List Order) (size : Int → Int) (levels : List Int) : Prop :=
  (orders.filter fun o => o.unfilledAmount ≠ 0).map (fun o => (o.price, o.unfilledAmount)) =
    levels.map fun b => (b, size b)

instance (orders : List Order) (size : Int → Int) (levels : List Int) :
    Decidable (OneOrderPerLevel orders size levels) :=
  inferInstanceAs (Decidable (_ = _))

section Sim

variable {size next : Int → Int} {target : Int}

/-- The validator's walk over orders whose non-empty ones are, one for one, the levels of a stored list takes the
precompile's steps: both stop at the same level with the same sums, or both run out. The induction is on the orders;
an empty order is a step of the validator's walk alone. -/
theorem loop_impactPass_sim :
    ∀ (orders : List Order) (l : List Int) (x t a q : Int) (fuel : Nat), ListedFrom next 0 x l →
      (orders.filter fun o => o.unfilledAmount ≠ 0).map (fun o => (o.price, o.unfilledAmount)) =
        l.map (fun b => (b, size b)) → l.length < fuel →
      ∃ r, loop (impactPass size next target) fuel ⟨x, a, q⟩ = some r ∧
        (r.tick = 0 ∧ impactWalk target ⟨t, a, q⟩ orders = none ∨
          r.tick ≠ 0 ∧ impactWalk target ⟨t, a, q⟩ orders = some r)
  | [], l, x, t, a, q, fuel, hl, hlevels, hfuel => by
    -- no level left: the precompile reads the terminating `0`
    obtain rfl : l = [] := by simpa using hlevels.symm
    obtain rfl : x = 0 := hl
    obtain ⟨f, rfl⟩ := Nat.exists_eq_add_one_of_ne_zero (by omega : fuel ≠ 0)
    exact ⟨⟨0, a, q⟩, loop_succ_done f (by simp [impactPass]), .inl ⟨rfl, rfl⟩⟩
  | o :: orders, l, x, t, a, q, fuel, hl, hlevels, hfuel => by
    by_cases h0 : o.unfilledAmount = 0
    · rw [List.filter_cons_of_neg (by simpa using h0)] at hlevels
      obtain ⟨r, hr, hsim⟩ := loop_impactPass_sim orders l x t a q fuel hl hlevels hfuel
      rw [impactWalk_cons_of_eq h0]
      exact ⟨r, hr, hsim⟩
    · -- the order is the level at the head of the list
      rw [List.filter_cons_of_pos (by simpa using h0), List.map_cons] at hlevels
      obtain ⟨b, l, rfl⟩ : ∃ b l', l = b :: l' := List.exists_cons_of_ne_nil (by rintro rfl; simp at hlevels)
      simp only [List.map_cons, List.cons.injEq, Prod.mk.injEq] at hlevels
      obtain ⟨⟨hprice, hsize⟩, hlevels⟩ := hlevels
      obtain ⟨rfl, hb, hl⟩ := hl
      obtain ⟨f, rfl⟩ := Nat.exists_eq_add_one_of_ne_zero (by omega : fuel ≠ 0)
      rw [impactWalk_cons_of_ne h0, hprice, hsize]
      by_cases hreach : target ≤ a + div1e6 (size x * x)
      · rw [if_pos hreach]
        exact ⟨⟨x, a, q⟩, loop_succ_done f (by simp [impactPass, hb, hreach]), .inr ⟨hb, rfl⟩⟩
      · have hpass : impactPass size next target ⟨x, a, q⟩ = .yield ⟨next x, a + div1e6 (size x * x), q + size x⟩ := by
          simp [impactPass, hb, hreach]
        rw [if_neg hreach, loop_succ_yield f hpass]
        exact loop_impactPass_sim orders l (next x) x _ _ f hl hlevels (by simpa using hfuel)

/-- Over a stored list whose levels the orders hold one each, the precompile's sampler is the validator's, for
every notional. -/
theorem sampleImpact_eq_calculateImpactPrice {head : Int} {l : List Int} {orders : List Order} {fuel : Nat}
    (hl : ListedFrom next 0 head l) (hlevels : OneOrderPerLevel orders size l)
    (hfuel : l.length < fuel) (n : Int) :
    sampleImpact head size next n fuel = some (calculateImpactPrice orders n) := by
  by_cases hn : n = 0
  · simp [sampleImpact, calculateImpactPrice, hn]
  · obtain ⟨r, hr, hsim⟩ := @loop_impactPass_sim size next (n * 10 ^ 12) orders l head 0 0 0 fuel hl hlevels
      hfuel
    rw [sampleImpact_of_ne hn, hr, Option.map_some]
    rcases hsim with ⟨h0, hwalk⟩ | ⟨h0, hwalk⟩
    · simp only [calculateImpactPrice, if_neg hn, hwalk, h0, if_true]
    · -- the precompile divides by the level's price directly, the validator through `Div`
      simp only [calculateImpactPrice, if_neg hn, hwalk, h0, if_false, bigDiv]
      rfl

end Sim

section Sides

variable {bibliophile : BibliophileClient} {amm : Address} {orders : List Order} {fuel : Nat}

/-- **The impact bid agrees where each level holds one order.** When the long orders that are not empty are, one
for one and in order, the levels of the AMM's stored bids with their sizes, the validator's impact bid is the
precompile's for every notional. -/
theorem calculateImpactPrice_eq_sampleImpactBid {bids : List Int} (hbids : StoredBids bibliophile amm bids)
    (hlevels : OneOrderPerLevel orders (bibliophile.getBidSize amm) bids) (hfuel : bids.length < fuel) (n : Int) :
    _sampleImpactBid bibliophile amm n fuel = some (calculateImpactPrice orders n) :=
  sampleImpact_eq_calculateImpactPrice hbids.1 hlevels hfuel n

/-- **The impact ask agrees where each level holds one order**, as the impact bid does. -/
theorem calculateImpactPrice_eq_sampleImpactAsk {asks : List Int} (hasks : StoredAsks bibliophile amm asks)
    (hlevels : OneOrderPerLevel orders (bibliophile.getAskSize amm) asks) (hfuel : asks.length < fuel) (n : Int) :
    _sampleImpactAsk bibliophile amm n fuel = some (calculateImpactPrice orders n) :=
  sampleImpact_eq_calculateImpactPrice hasks.1 hlevels hfuel n

theorem calculateImpactPrice_nil (n : Int) : calculateImpactPrice [] n = .ok 0 := by
  simp [calculateImpactPrice, impactWalk]

/-- `SampleImpactPrice` skips a side with no order, which `calculateImpactPrice` samples as `0` anyway; the rest of
its body follows either way. -/
theorem ite_calculateImpactPrice_bind {β : Type} (n : Int) (k : Int → Except Panic β) :
    (if orders ≠ [] then calculateImpactPrice orders n >>= k else pure 0 >>= k) =
      calculateImpactPrice orders n >>= k := by
  by_cases h : orders = []
  · rw [if_neg (not_not.mpr h), h, calculateImpactPrice_nil]
    rfl
  · exact if_pos h

/-- **The validator samples the precompile's impact prices where each level holds one order.** When the long orders
the market's reads return are, one for one, the AMM's stored bids, and the short orders its stored asks,
`SampleImpactPrice` samples for the market the impact bid and the impact ask the ticks precompile samples, for every
notional: the same prices, or the panic the precompile meets first. -/
theorem sampleImpactPriceOf_eq_ticks {db : InMemoryDatabase} {m : Market} {now : Int} {longs shorts : List Order}
    (hlong : db.getLongOrdersWithoutLock m none none now true = .ok longs)
    (hshort : db.getShortOrdersWithoutLock m none none now true = .ok shorts)
    {bids asks : List Int} (hbids : StoredBids bibliophile amm bids) (hasks : StoredAsks bibliophile amm asks)
    (hbidLevels : OneOrderPerLevel longs (bibliophile.getBidSize amm) bids)
    (haskLevels : OneOrderPerLevel shorts (bibliophile.getAskSize amm) asks)
    (hfuel : bids.length < fuel ∧ asks.length < fuel) (n : Int) :
    ∃ impactBid impactAsk, _sampleImpactBid bibliophile amm n fuel = some impactBid ∧
      _sampleImpactAsk bibliophile amm n fuel = some impactAsk ∧
      (fun r => (r.1, r.2.1)) <$> db.sampleImpactPriceOf m n now = (do
        let bid ← impactBid
        let ask ← impactAsk
        pure (bid, ask)) := by
  refine ⟨calculateImpactPrice longs n, calculateImpactPrice shorts n,
    calculateImpactPrice_eq_sampleImpactBid hbids hbidLevels hfuel.1 n,
    calculateImpactPrice_eq_sampleImpactAsk hasks haskLevels hfuel.2 n, ?_⟩
  -- both reads succeed, and each side is then sampled as the precompile samples it
  rw [sampleImpactPriceOf, hlong, hshort]
  simp only [ite_calculateImpactPrice_bind]
  simp only [bind, Except.bind]
  cases calculateImpactPrice longs n <;> cases calculateImpactPrice shorts n <;> rfl

end Sides

/-- An order of market `0`, placed at block `0`. -/
def levelOrder (orderId : Hash) (pt : PositionType) (q price : Int) : Order :=
  { (default : Order) with id := orderId, positionType := pt, baseAssetQuantity := q, price := price }

/-- Longs of two units at `1` and one unit at `2`, shorts of one unit at `4` and at `3`, added in that order. -/
def levelBook : InMemoryDatabase :=
  (((newInMemoryDatabase.add (levelOrder 1 .long (2 * 10 ^ 18) 1000000)).add (levelOrder 2 .long (10 ^ 18) 2000000)).add
    (levelOrder 3 .short (-10 ^ 18) 4000000)).add (levelOrder 4 .short (-10 ^ 18) 3000000)

/-- The same levels as the AMM stores them: bids `2, 1`, asks `3, 4`. -/
def levelTicks : BibliophileClient :=
  { (default : BibliophileClient) with
    getBidsHead := fun _ => 2000000
    getNextBidPrice := fun _ p => if p = 2000000 then 1000000 else 0
    getBidSize := fun _ p => if p = 2000000 then 10 ^ 18 else if p = 1000000 then 2 * 10 ^ 18 else 0
    getAsksHead := fun _ => 3000000
    getNextAskPrice := fun _ p => if p = 3000000 then 4000000 else 0
    getAskSize := fun _ p => if p = 3000000 ∨ p = 4000000 then 10 ^ 18 else 0 }

/-- A notional of `3` fills one unit at `2` and one at `1` of the bids (impact bid `1.5`), and one unit at `3` of the
asks; the validator samples both, with the mid price `2.5`. -/
theorem levelBook_impact_agrees :
    levelBook.getLongOrdersWithoutLock 0 none none 0 true = .ok [levelBook.deref 1, levelBook.deref 0] ∧
      levelBook.getShortOrdersWithoutLock 0 none none 0 true = .ok [levelBook.deref 3, levelBook.deref 2] ∧
      StoredBids levelTicks 0 [2000000, 1000000] ∧ StoredAsks levelTicks 0 [3000000, 4000000] ∧
      OneOrderPerLevel [levelBook.deref 1, levelBook.deref 0] (levelTicks.getBidSize 0) [2000000, 1000000] ∧
      OneOrderPerLevel [levelBook.deref 3, levelBook.deref 2] (levelTicks.getAskSize 0) [3000000, 4000000] ∧
      (∃ impactBid impactAsk, _sampleImpactBid levelTicks 0 3000000 3 = some impactBid ∧
        _sampleImpactAsk levelTicks 0 3000000 3 = some impactAsk ∧
        (fun r => (r.1, r.2.1)) <$> levelBook.sampleImpactPriceOf 0 3000000 0 = (do
          let bid ← impactBid
          let ask ← impactAsk
          pure (bid, ask))) ∧
      levelBook.sampleImpactPriceOf 0 3000000 0 = .ok (1500000, 3000000, 2500000) := by
  have hlong : levelBook.getLongOrdersWithoutLock 0 none none 0 true = .ok [levelBook.deref 1, levelBook.deref 0] := by
    decide +kernel
  have hshort :
      levelBook.getShortOrdersWithoutLock 0 none none 0 true = .ok [levelBook.deref 3, levelBook.deref 2] := by
    decide +kernel
  have hbids : StoredBids levelTicks 0 [2000000, 1000000] := by simp [StoredBids, ListedFrom, levelTicks]
  have hasks : StoredAsks levelTicks 0 [3000000, 4000000] := by simp [StoredAsks, ListedFrom, levelTicks]
  have hbidLevels : OneOrderPerLevel [levelBook.deref 1, levelBook.deref 0] (levelTicks.getBidSize 0)
      [2000000, 1000000] := by decide +kernel
  have haskLevels : OneOrderPerLevel [levelBook.deref 3, levelBook.deref 2] (levelTicks.getAskSize 0)
      [3000000, 4000000] := by decide +kernel
  exact ⟨hlong, hshort, hbids, hasks, hbidLevels, haskLevels,
    sampleImpactPriceOf_eq_ticks hlong hshort hbids hasks hbidLevels haskLevels ⟨by decide, by decide⟩ 3000000,
    by decide +kernel⟩

/-! ## A level split over two orders -/

/-- What `orders` hold at price `p`: the sum of what is unfilled of each order there. -/
def levelSize (orders : List Order) (p : Int) : Int :=
  ((orders.filter fun o => o.price = p).map (·.unfilledAmount)).sum

/-- Two longs at `1.5` in market `0`, of `1e12 - 1` and `1e12 + 1`. -/
def splitBook : InMemoryDatabase :=
  (newInMemoryDatabase.add { (default : Order) with id := 1, baseAssetQuantity := 10 ^ 12 - 1, price := 1500000 }).add
    { (default : Order) with id := 2, baseAssetQuantity := 10 ^ 12 + 1, price := 1500000 }

/-- The bids stored for the same book: one level at `1.5` of `2e12`; an impact margin notional of `3`. -/
def splitTicks : BibliophileClient :=
  { (default : BibliophileClient) with
    getBidsHead := fun _ => 1500000
    getBidSize := fun _ p => if p = 1500000 then 2 * 10 ^ 12 else 0
    getImpactMarginNotional := fun _ => 3 }

/-- **The two impact bids differ on a split level.** The long orders of `splitBook` aggregate, level by level, to
the stored bids of `splitTicks`. Rounded one order at a time, their notionals add up to `3e12 - 1`, short of the
notional `3e12`, so the validator samples no impact bid (`0`, in `SampleImpactPrice` too); rounded for the level,
they reach it, and the precompile samples `1.5`. -/
theorem impactPrice_split_level_diverges :
    Reachable splitBook ∧ StoredBids splitTicks 0 [1500000] ∧
      splitBook.getLongOrders 0 none none 0 = .ok [splitBook.deref 0, splitBook.deref 1] ∧
      (∀ p, levelSize [splitBook.deref 0, splitBook.deref 1] p =
        if p ∈ [1500000] then splitTicks.getBidSize 0 p else 0) ∧
      calculateImpactPrice [splitBook.deref 0, splitBook.deref 1] 3 = .ok 0 ∧
      _sampleImpactBid splitTicks 0 3 2 = some (.ok 1500000) ∧
      splitBook.sampleImpactPrice { getActiveMarketsCount := 1 } (fun _ => splitTicks.getImpactMarginNotional 0) 0 =
        .ok ([0], [0], [0]) ∧
      sampleImpactBid splitTicks 0 2 = some (.ok 1500000) := by
  have hprice : (splitBook.deref 0).price = 1500000 ∧ (splitBook.deref 1).price = 1500000 := by decide
  refine ⟨.tail (.single (.add _ _ rfl)) (.add _ _ rfl), ⟨⟨rfl, by decide, rfl⟩, List.pairwise_singleton _ _, by simp⟩,
    by decide +kernel,
    fun p => ?_, by decide +kernel, by decide +kernel, by decide +kernel, by decide +kernel⟩
  by_cases hp : p = 1500000
  · subst hp
    decide +kernel
  · simp [levelSize, hprice.1, hprice.2, Ne.symm hp, hp]

end Hubblenet
