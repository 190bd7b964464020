import Hubblenet.Orderbook.MarginView
import Hubblenet.Orderbook.Invariant

/-!
# Cancelling the orders of a trader short of margin

For a trader above the maintenance margin, `GetNaughtyTraders` flags every active market where the trader's
reduce-only amount no longer reduces the position (`staleReduceOnlyMarkets`) and, when a market is flagged or the
available margin is negative with margin reserved, hands the trader to `determineOrdersToCancel`
(`cancellationOf`). That sorts the trader's limit orders by their distance from the oracle price, farthest first,
and walks them once (`cancelStep`): it picks one reduce-only order in each flagged market and, while the available
margin is still negative, every other order it meets, adding back the margin that order held.

What the walk picks from a list (`SelectsGreedily`) is a sublist of it; the picked orders that are not reduce-only
are a greedy prefix of those of the list (`Lib.GreedyPrefix`, `nonReduceOnly_foldl_cancelStep`); the picked
reduce-only orders lie in distinct flagged markets (`reduceOnly_foldl_cancelStep`). With negative available margin
and positive reserved margin the trader is always handed over with that margin, and the walk runs on the sorted
orders (`cancellation_selects_greedily`), unless the sort meets an order in a market without an oracle price: with
two or more orders its comparator then reads a nil price and panics (`cancellation_panics_without_oracle_price`).
-/

namespace Hubblenet

open Go Lib

namespace Order

/-- A limit order that is not reduce-only: the walk picks it only while the margin is negative. -/
def nonReduceOnlyLimit (o : Order) : Bool := decide (o.orderType = .limit) && !o.reduceOnly

/-- A reduce-only limit order: the walk picks it only in a flagged market. -/
def reduceOnlyLimit (o : Order) : Bool := decide (o.orderType = .limit) && o.reduceOnly

theorem reduceOnlyLimit_eq_false_of_nonReduceOnlyLimit {o : Order} (h : o.nonReduceOnlyLimit = true) :
    o.reduceOnlyLimit = false := by
  simp_all [nonReduceOnlyLimit, reduceOnlyLimit]

theorem nonReduceOnlyLimit_eq_false_of_reduceOnlyLimit {o : Order} (h : o.reduceOnlyLimit = true) :
    o.nonReduceOnlyLimit = false := by
  simp_all [nonReduceOnlyLimit, reduceOnlyLimit]

end Order

/-! ## The walk -/

/-- What the loop of `determineOrdersToCancel` carries: the orders picked (`ordersToCancel[addr]`), the flagged
markets whose stale reduce-only order is still to be picked, the available margin with the margin released so far,
and whether anything was picked. -/
structure CancelState where
  ordersToCancel : List Order
  marketsToCancelReduceOnlyOrdersIn : Market → Bool
  availableMargin : Int
  foundCancellableOrders : Bool

/-- `marginReleased`: what a cancelled order gives back, `|unfilled · price / 1e18| · minAllowableMargin / 1e6`. -/
def marginReleased (minAllowableMargin : Int) (order : Order) : Int :=
  div1e6 (|div1e18 (order.getUnFilledBaseAssetQuantity * order.price)| * minAllowableMargin)

/-- One pass of the loop of `determineOrdersToCancel`. IOC and signed orders are skipped; a reduce-only order is
picked in a flagged market, whose flag it clears (one stale order per market and run); another order is picked
while the margin is negative. -/
def cancelStep (minAllowableMargin : Int) (s : CancelState) (order : Order) : CancelState :=
  if order.orderType ≠ .limit then s
  else if order.reduceOnly then
    if s.marketsToCancelReduceOnlyOrdersIn order.market then
      { s with
        ordersToCancel := s.ordersToCancel ++ [order]
        marketsToCancelReduceOnlyOrdersIn :=
          Function.update s.marketsToCancelReduceOnlyOrdersIn order.market false
        foundCancellableOrders := true }
    else s
  else if s.availableMargin < 0 then
    { s with
      ordersToCancel := s.ordersToCancel ++ [order]
      foundCancellableOrders := true
      availableMargin := s.availableMargin + marginReleased minAllowableMargin order }
  else s

section Step

variable {mam : Int} {s : CancelState} {o : Order}

/-- Everything one pass can do: pick an order for the margin, pick a stale reduce-only order, or nothing. -/
theorem cancelStep_cases (mam : Int) (s : CancelState) (o : Order) :
    (o.nonReduceOnlyLimit ∧ s.availableMargin < 0 ∧
      cancelStep mam s o =
        { s with
          ordersToCancel := s.ordersToCancel ++ [o]
          foundCancellableOrders := true
          availableMargin := s.availableMargin + marginReleased mam o }) ∨
    (o.reduceOnlyLimit ∧ s.marketsToCancelReduceOnlyOrdersIn o.market ∧
      cancelStep mam s o =
        { s with
          ordersToCancel := s.ordersToCancel ++ [o]
          marketsToCancelReduceOnlyOrdersIn :=
            Function.update s.marketsToCancelReduceOnlyOrdersIn o.market false
          foundCancellableOrders := true }) ∨
    (¬(o.nonReduceOnlyLimit ∧ s.availableMargin < 0) ∧
      ¬(o.reduceOnlyLimit ∧ s.marketsToCancelReduceOnlyOrdersIn o.market) ∧ cancelStep mam s o = s) := by
  unfold cancelStep Order.nonReduceOnlyLimit Order.reduceOnlyLimit
  by_cases hl : o.orderType = .limit
  · cases hr : o.reduceOnly
    · by_cases ha : s.availableMargin < 0 <;> simp [hl, ha]
    · cases hm : s.marketsToCancelReduceOnlyOrdersIn o.market <;> simp [hl, hm]
  · simp [hl]

end Step

/-! ## Whole walks -/

section Walk

variable (mam : Int)

/-- The walk appends to what it carries a sublist of the orders it walks, and has found something exactly when
that sublist is not empty. -/
theorem ordersToCancel_foldl_cancelStep :
    ∀ (l : List Order) (s : CancelState), ∃ p,
      (l.foldl (cancelStep mam) s).ordersToCancel = s.ordersToCancel ++ p ∧ p.Sublist l ∧
        (l.foldl (cancelStep mam) s).foundCancellableOrders = (s.foundCancellableOrders || !p.isEmpty)
  | [], s => ⟨[], by simp⟩
  | o :: l, s => by
    obtain ⟨p, hp, hsub, hfound⟩ := ordersToCancel_foldl_cancelStep l (cancelStep mam s o)
    rw [List.foldl_cons, hp, hfound]
    rcases cancelStep_cases mam s o with ⟨-, -, hs⟩ | ⟨-, -, hs⟩ | ⟨-, -, hs⟩
    · refine ⟨o :: p, ?_, hsub.cons_cons o, ?_⟩ <;> simp [hs]
    · refine ⟨o :: p, ?_, hsub.cons_cons o, ?_⟩ <;> simp [hs]
    · rw [hs]
      exact ⟨p, rfl, hsub.cons o, rfl⟩

/-- The orders the walk picks for the margin are a greedy prefix of the orders it meets that are not reduce-only,
from the margin it starts with. -/
theorem nonReduceOnly_foldl_cancelStep :
    ∀ (l : List Order) (s : CancelState), ∃ p,
      (l.foldl (cancelStep mam) s).ordersToCancel.filter Order.nonReduceOnlyLimit =
          s.ordersToCancel.filter Order.nonReduceOnlyLimit ++ p ∧
        GreedyPrefix (marginReleased mam) s.availableMargin (l.filter Order.nonReduceOnlyLimit) p
  | [], s => ⟨[], by simp, .nil⟩
  | o :: l, s => by
    obtain ⟨p, hp, hg⟩ := nonReduceOnly_foldl_cancelStep l (cancelStep mam s o)
    rw [List.foldl_cons, hp]
    rcases cancelStep_cases mam s o with ⟨ho, ha, hs⟩ | ⟨ho, -, hs⟩ | ⟨hno, -, hs⟩
    · rw [hs] at hg ⊢
      refine ⟨o :: p, by simp [ho], ?_⟩
      rw [List.filter_cons_of_pos ho]
      exact hg.cons ha
    · -- a reduce-only order leaves the margin and the orders picked for it alone
      have hn := Order.nonReduceOnlyLimit_eq_false_of_reduceOnlyLimit ho
      rw [hs] at hg ⊢
      refine ⟨p, by simp [hn], ?_⟩
      rwa [List.filter_cons_of_neg (by simp [hn])]
    · rw [hs] at hg ⊢
      by_cases ho : o.nonReduceOnlyLimit
      · -- skipped at a margin that is not negative: nothing more is picked for the margin
        have ha : 0 ≤ s.availableMargin := not_lt.mp fun h => hno ⟨ho, h⟩
        refine ⟨p, rfl, ?_⟩
        rw [hg.eq_nil_of_nonneg ha]
        exact GreedyPrefix.of_nonneg ha _
      · exact ⟨p, rfl, by rwa [List.filter_cons_of_neg ho]⟩

/-- The reduce-only orders the walk picks lie in distinct markets, each flagged when the walk starts. -/
theorem reduceOnly_foldl_cancelStep :
    ∀ (l : List Order) (s : CancelState), ∃ p,
      (l.foldl (cancelStep mam) s).ordersToCancel.filter Order.reduceOnlyLimit =
          s.ordersToCancel.filter Order.reduceOnlyLimit ++ p ∧
        (p.map (·.market)).Nodup ∧ ∀ o ∈ p, s.marketsToCancelReduceOnlyOrdersIn o.market = true
  | [], s => ⟨[], by simp⟩
  | o :: l, s => by
    obtain ⟨p, hp, hnodup, hflag⟩ := reduceOnly_foldl_cancelStep l (cancelStep mam s o)
    rw [List.foldl_cons, hp]
    rcases cancelStep_cases mam s o with ⟨ho, -, hs⟩ | ⟨ho, hm, hs⟩ | ⟨-, -, hs⟩
    · rw [hs] at hflag ⊢
      exact ⟨p, by simp [Order.reduceOnlyLimit_eq_false_of_nonReduceOnlyLimit ho], hnodup, hflag⟩
    · -- the flag of `o`'s market is cleared, so no later pick shares that market
      rw [hs] at hflag ⊢
      have hne : ∀ o' ∈ p, o'.market ≠ o.market := fun o' ho' heq => by
        simpa [heq] using hflag o' ho'
      refine ⟨o :: p, by simp [ho], ?_, ?_⟩
      · simp only [List.map_cons, List.nodup_cons, List.mem_map, not_exists, not_and]
        exact ⟨fun o' ho' => hne o' ho', hnodup⟩
      · intro o' ho'
        rcases List.mem_cons.mp ho' with rfl | ho'
        · exact hm
        · simpa [Function.update_of_ne (hne o' ho')] using hflag o' ho'
    · rw [hs] at hflag ⊢
      exact ⟨p, rfl, hnodup, hflag⟩

end Walk

/-- What the walk picks from `sorted`, starting from the margin `a` with the flagged markets `markets`. -/
structure SelectsGreedily (mam a : Int) (markets : Market → Bool) (sorted selected : List Order) : Prop where
  sublist : selected.Sublist sorted
  nonReduceOnly :
    GreedyPrefix (marginReleased mam) a (sorted.filter Order.nonReduceOnlyLimit)
      (selected.filter Order.nonReduceOnlyLimit)
  reduceOnly_nodup : ((selected.filter Order.reduceOnlyLimit).map (·.market)).Nodup
  reduceOnly_flagged : ∀ o ∈ selected, o.reduceOnlyLimit = true → markets o.market = true

/-- A whole walk from nothing picked selects greedily. -/
theorem selectsGreedily_foldl (mam a : Int) (markets : Market → Bool) (sorted : List Order) :
    SelectsGreedily mam a markets sorted (sorted.foldl (cancelStep mam) ⟨[], markets, a, false⟩).ordersToCancel := by
  obtain ⟨p, hp, hsub, -⟩ := ordersToCancel_foldl_cancelStep mam sorted ⟨[], markets, a, false⟩
  obtain ⟨q, hq, hg⟩ := nonReduceOnly_foldl_cancelStep mam sorted ⟨[], markets, a, false⟩
  obtain ⟨q', hq', hnodup, hflag⟩ := reduceOnly_foldl_cancelStep mam sorted ⟨[], markets, a, false⟩
  simp only [List.filter_nil, List.nil_append] at hp hq hq'
  refine ⟨by rw [hp]; exact hsub, by rw [hq]; exact hg, by rw [hq']; exact hnodup, fun o ho hro => ?_⟩
  have hmem : o ∈ (sorted.foldl (cancelStep mam) ⟨[], markets, a, false⟩).ordersToCancel.filter
      Order.reduceOnlyLimit := List.mem_filter.mpr ⟨ho, hro⟩
  rw [hq'] at hmem
  exact hflag o hmem

/-! ## The sort and the call -/

/-- `|price - oraclePrices[market]|`, what `determineOrdersToCancel` sorts by; read only where the price is there. -/
def priceDiff (oraclePrices : Market → Option Int) (order : Order) : Int :=
  |order.price - (oraclePrices order.market).getD 0|

/-- The comparator of `determineOrdersToCancel`, `iDiff.Cmp(jDiff) > 0`: the order farther from its oracle price
comes first. -/
def diffLess (oraclePrices : Market → Option Int) (a b : Order) : Bool :=
  decide (priceDiff oraclePrices b < priceDiff oraclePrices a)

/-- `sort.Slice(traderOrders, …)` under `diffLess`. The comparator reads both orders' oracle prices, and `Sub` of a
nil price panics; with two or more orders every order is compared, so one in a market without an oracle price
panics. `sort.Slice` is not stable: the order it leaves is `sortSlice`'s (`SortedByDiff` says what it may be). -/
def sortByDiff (oraclePrices : Market → Option Int) (sortSlice : (Order → Order → Bool) → List Order → List Order)
    (orders : List Order) : Except Panic (List Order) :=
  if 2 ≤ orders.length ∧ ∃ o ∈ orders, oraclePrices o.market = none then .error .nilDereference
  else .ok (sortSlice (diffLess oraclePrices) orders)

/-- `sorted` is an order `sort.Slice` may leave `orders` in under `diffLess`: a permutation of them with the price
differences non-increasing. -/
def SortedByDiff (oraclePrices : Market → Option Int) (orders sorted : List Order) : Prop :=
  sorted.Perm orders ∧ sorted.Pairwise fun a b => priceDiff oraclePrices b ≤ priceDiff oraclePrices a

namespace InMemoryDatabase

variable (db : InMemoryDatabase)

/-- `getTraderOrders`: the orders of `trader` of one type, in the map's iteration order `visit`. -/
def getTraderOrders (trader : Address) (orderType : OrderType) (visit : List (Σ _ : Hash, Ptr)) : List Order :=
  (db.getAllOrders visit).filter fun order => decide (order.trader = trader ∧ order.orderType = orderType)

/-- `determineOrdersToCancel`: whether it found orders to cancel, and `ordersToCancel[addr]` (left unwritten when
the trader has no limit order, and read back empty). The margin an order releases is computed with the config
service's min allowable margin, as the code reads it; the argument of that name goes unread. -/
def determineOrdersToCancel (cs : ConfigService) (addr : Address) (availableMargin : Int)
    (marketsToCancelReduceOnlyOrdersIn : Market → Bool) (oraclePrices : Market → Option Int)
    (visit : List (Σ _ : Hash, Ptr)) (sortSlice : (Order → Order → Bool) → List Order → List Order) :
    Except Panic (Bool × List Order) :=
  let traderOrders := db.getTraderOrders addr .limit visit
  if traderOrders = [] then .ok (false, [])
  else do
    let traderOrders ← sortByDiff oraclePrices sortSlice traderOrders
    let s := traderOrders.foldl (cancelStep cs.getMinAllowableMargin)
      ⟨[], marketsToCancelReduceOnlyOrdersIn, availableMargin, false⟩
    pure (s.foundCancellableOrders, s.ordersToCancel)

end InMemoryDatabase

/-- `hasStaleReduceOnlyOrders` of `GetNaughtyTraders`: the reduce-only amount of a market no longer reduces the
position there (no position, an amount on the position's side, or one beyond its size). -/
def hasStaleReduceOnlyOrders (posSize totalReduceAmount : Int) : Bool :=
  (posSize.sign = 0 && totalReduceAmount.sign ≠ 0) ||
    (posSize.sign > 0 &&
      (totalReduceAmount.sign > 0 || (totalReduceAmount.sign < 0 && -totalReduceAmount > posSize))) ||
    (posSize.sign < 0 &&
      (totalReduceAmount.sign < 0 || (totalReduceAmount.sign > 0 && totalReduceAmount > -posSize)))

/-- One pass of the loop of `GetNaughtyTraders` over the active markets: flag the market when its reduce-only
amount is stale, and note that there is something to look for. `ReduceOnlyAmounts[marketId]` indexes a slice: out
of range it panics. -/
def flagStaleMarket (positions : Market → Option Hu.Position) (reduceOnlyAmounts : List Int)
    (acc : Bool × (Market → Bool)) (marketId : Market) : Except Panic (Bool × (Market → Bool)) :=
  let posSize := ((positions marketId).map (·.size)).getD 0
  match (if 0 ≤ marketId then reduceOnlyAmounts[marketId.toNat]? else none) with
  | none => .error .indexOutOfRange
  | some totalReduceAmount =>
    if hasStaleReduceOnlyOrders posSize totalReduceAmount then .ok (true, Function.update acc.2 marketId true)
    else .ok acc

/-- Whether `GetNaughtyTraders` flagged a market, and the flags it hands to `determineOrdersToCancel`. -/
def staleReduceOnlyMarkets (activeMarkets : List Market) (positions : Market → Option Hu.Position)
    (reduceOnlyAmounts : List Int) : Except Panic (Bool × (Market → Bool)) :=
  activeMarkets.foldlM (flagStaleMarket positions reduceOnlyAmounts) (false, fun _ => false)

/-- What `GetNaughtyTraders` does with a trader above the maintenance margin once its margins are computed:
`available` is the available margin it computed and `reduceOnlyAmounts` what `GetReduceOnlyAmounts` read for the
trader. `none` is the `continue` when there is nothing to look for. -/
def InMemoryDatabase.cancellationOf (db : InMemoryDatabase) (cs : ConfigService) (hState : Hu.HubbleState)
    (addr : Address) (trader : Trader) (userState : Hu.UserState) (reduceOnlyAmounts : List Int) (available : Int)
    (visit : List (Σ _ : Hash, Ptr)) (sortSlice : (Order → Order → Bool) → List Order → List Order) :
    Except Panic (Option (Bool × List Order)) := do
  let (shouldLook, marketsToCancel) ←
    staleReduceOnlyMarkets hState.activeMarkets userState.positions reduceOnlyAmounts
  -- a negative available margin without reserved margin leaves the orders that are not reduce-only alone
  let (shouldLook, availableMargin) :=
    if available < 0 then
      if 0 < trader.margin.reserved then (true, available) else (shouldLook, 0)
    else (shouldLook, available)
  if shouldLook then
    some <$> db.determineOrdersToCancel cs addr availableMargin marketsToCancel hState.oraclePrices visit sortSlice
  else pure none

section Flags

variable {positions : Market → Option Hu.Position} {reduceOnlyAmounts : List Int}

/-- A walk over markets that all index the amounts does not panic, and flags what was flagged before and every
market it walks whose amount is stale. -/
theorem foldlM_flagStaleMarket :
    ∀ (ms : List Market) (acc : Bool × (Market → Bool)), (∀ m ∈ ms, 0 ≤ m ∧ m.toNat < reduceOnlyAmounts.length) →
      ∃ r, ms.foldlM (flagStaleMarket positions reduceOnlyAmounts) acc = .ok r ∧
        ∀ m, r.2 m = true ↔ acc.2 m = true ∨ m ∈ ms ∧ ∃ a, reduceOnlyAmounts[m.toNat]? = some a ∧
          hasStaleReduceOnlyOrders (((positions m).map (·.size)).getD 0) a = true
  | [], acc, _ => ⟨acc, rfl, by simp⟩
  | m :: ms, acc, h => by
    obtain ⟨h0, hlt⟩ := h m List.mem_cons_self
    have ha : reduceOnlyAmounts[m.toNat]? = some reduceOnlyAmounts[m.toNat] := List.getElem?_eq_getElem hlt
    have hstep : flagStaleMarket positions reduceOnlyAmounts acc m =
        .ok (if hasStaleReduceOnlyOrders (((positions m).map (·.size)).getD 0) reduceOnlyAmounts[m.toNat] then
          (true, Function.update acc.2 m true) else acc) := by
      simp only [flagStaleMarket, if_pos h0, ha]
      split <;> rfl
    obtain ⟨r, hr, hflags⟩ := foldlM_flagStaleMarket ms _ fun m' hm' => h m' (List.mem_cons_of_mem _ hm')
    refine ⟨r, by rw [List.foldlM_cons, hstep]; exact hr, fun m' => ?_⟩
    rw [hflags m']
    by_cases hm : m' = m
    · subst hm
      cases hs : hasStaleReduceOnlyOrders (((positions m').map (·.size)).getD 0) reduceOnlyAmounts[m'.toNat] <;>
        simp [ha, hs]
    · by_cases hs : hasStaleReduceOnlyOrders (((positions m).map (·.size)).getD 0) reduceOnlyAmounts[m.toNat] <;>
        simp [hs, hm]

/-- A walk that reaches a market outside the amounts panics, whatever it flagged before. -/
theorem foldlM_flagStaleMarket_panic :
    ∀ (ms : List Market) (acc : Bool × (Market → Bool)),
      (∃ m ∈ ms, ¬(0 ≤ m ∧ m.toNat < reduceOnlyAmounts.length)) →
      ms.foldlM (flagStaleMarket positions reduceOnlyAmounts) acc = .error .indexOutOfRange
  | [], _, ⟨_, hm, _⟩ => absurd hm List.not_mem_nil
  | m :: ms, acc, ⟨m', hm', hout⟩ => by
    rw [List.foldlM_cons]
    by_cases hin : 0 ≤ m ∧ m.toNat < reduceOnlyAmounts.length
    · -- the market indexes the amounts, so the one outside comes later
      have hms : m' ∈ ms := by
        rcases List.mem_cons.mp hm' with rfl | h
        · exact absurd hin hout
        · exact h
      obtain ⟨acc', hstep⟩ : ∃ acc', flagStaleMarket positions reduceOnlyAmounts acc m = .ok acc' := by
        simp only [flagStaleMarket, if_pos hin.1, List.getElem?_eq_getElem hin.2]
        split <;> exact ⟨_, rfl⟩
      rw [hstep]
      exact foldlM_flagStaleMarket_panic ms acc' ⟨m', hms, hout⟩
    · -- `ReduceOnlyAmounts[marketId]` is out of range
      have hstep : flagStaleMarket positions reduceOnlyAmounts acc m = .error .indexOutOfRange := by
        unfold flagStaleMarket
        by_cases h0 : 0 ≤ m
        · have hlen : reduceOnlyAmounts.length ≤ m.toNat := Nat.le_of_not_lt (not_and.mp hin h0)
          simp only [if_pos h0, List.getElem?_eq_none hlen]
        · simp only [if_neg h0]
      rw [hstep]
      rfl

/-- The markets `GetNaughtyTraders` flags, when every active market indexes the amounts: exactly the active
markets whose reduce-only amount is stale against the position there. -/
theorem staleReduceOnlyMarkets_flags {activeMarkets : List Market}
    (h : ∀ m ∈ activeMarkets, 0 ≤ m ∧ m.toNat < reduceOnlyAmounts.length) :
    ∃ look markets, staleReduceOnlyMarkets activeMarkets positions reduceOnlyAmounts = .ok (look, markets) ∧
      ∀ m, markets m = true ↔ m ∈ activeMarkets ∧ ∃ a, reduceOnlyAmounts[m.toNat]? = some a ∧
        hasStaleReduceOnlyOrders (((positions m).map (·.size)).getD 0) a = true := by
  obtain ⟨⟨look, markets⟩, hr, hflags⟩ := foldlM_flagStaleMarket activeMarkets (false, fun _ => false) h
  exact ⟨look, markets, hr, fun m => by simpa using hflags m⟩

end Flags

namespace InMemoryDatabase

variable {db : InMemoryDatabase} {cs : ConfigService} {addr : Address} {visit : List (Σ _ : Hash, Ptr)}
  {sortSlice : (Order → Order → Bool) → List Order → List Order}

/-- Unless the sort panics, `determineOrdersToCancel` is the walk over the sorted orders. -/
theorem determineOrdersToCancel_eq {a : Int} {markets : Market → Bool} {oraclePrices : Market → Option Int}
    (hprices : 2 ≤ (db.getTraderOrders addr .limit visit).length →
      ∀ o ∈ db.getTraderOrders addr .limit visit, oraclePrices o.market ≠ none)
    (hperm : (sortSlice (diffLess oraclePrices) (db.getTraderOrders addr .limit visit)).Perm
      (db.getTraderOrders addr .limit visit)) :
    db.determineOrdersToCancel cs addr a markets oraclePrices visit sortSlice =
      .ok (((sortSlice (diffLess oraclePrices) (db.getTraderOrders addr .limit visit)).foldl
          (cancelStep cs.getMinAllowableMargin) ⟨[], markets, a, false⟩).foundCancellableOrders,
        ((sortSlice (diffLess oraclePrices) (db.getTraderOrders addr .limit visit)).foldl
          (cancelStep cs.getMinAllowableMargin) ⟨[], markets, a, false⟩).ordersToCancel) := by
  unfold determineOrdersToCancel
  by_cases hnil : db.getTraderOrders addr .limit visit = []
  · -- no order: the sort is never called, and sorting nothing leaves nothing
    rw [hnil] at hperm
    simp [hnil, hperm.eq_nil]
  · have hsort : sortByDiff oraclePrices sortSlice (db.getTraderOrders addr .limit visit) =
        .ok (sortSlice (diffLess oraclePrices) (db.getTraderOrders addr .limit visit)) := by
      rw [sortByDiff, if_neg]
      rintro ⟨h2, o, ho, hnone⟩
      exact hprices h2 o ho hnone
    simp only [if_neg hnil, hsort]
    rfl

/-- With negative available margin and margin reserved, `GetNaughtyTraders` always calls `determineOrdersToCancel`,
with the available margin as it is. -/
theorem cancellationOf_of_negative {hState : Hu.HubbleState} {trader : Trader} {userState : Hu.UserState}
    {reduceOnlyAmounts : List Int} {available : Int} {look : Bool} {markets : Market → Bool}
    (hA : available < 0) (hR : 0 < trader.margin.reserved)
    (hstale : staleReduceOnlyMarkets hState.activeMarkets userState.positions reduceOnlyAmounts = .ok (look, markets)) :
    db.cancellationOf cs hState addr trader userState reduceOnlyAmounts available visit sortSlice =
      some <$> db.determineOrdersToCancel cs addr available markets hState.oraclePrices visit sortSlice := by
  simp only [cancellationOf, hstale, if_pos hA, if_pos hR, if_true]
  rfl

/-- **What a trader short of margin gets cancelled.** For a trader with negative available margin `available` and
positive reserved margin, on a book where every active market indexes the trader's reduce-only amounts and the
trader's limit orders all have an oracle price (or are fewer than two), `GetNaughtyTraders` flags exactly the
active markets with stale reduce-only orders and hands the trader to `determineOrdersToCancel` with `available`,
which picks, in the sorted order, only limit orders of the trader: its orders that are not reduce-only are a greedy
prefix of the sorted ones (taken while the margin with what they release is negative, up to the first at which it
is not, or all of them), and its reduce-only orders lie in distinct flagged markets. -/
theorem cancellation_selects_greedily {hState : Hu.HubbleState} {trader : Trader} {userState : Hu.UserState}
    {reduceOnlyAmounts : List Int} {available : Int}
    (hA : available < 0) (hR : 0 < trader.margin.reserved)
    (hamounts : ∀ m ∈ hState.activeMarkets, 0 ≤ m ∧ m.toNat < reduceOnlyAmounts.length)
    (hprices : 2 ≤ (db.getTraderOrders addr .limit visit).length →
      ∀ o ∈ db.getTraderOrders addr .limit visit, hState.oraclePrices o.market ≠ none)
    (hsort : SortedByDiff hState.oraclePrices (db.getTraderOrders addr .limit visit)
      (sortSlice (diffLess hState.oraclePrices) (db.getTraderOrders addr .limit visit))) :
    ∃ look markets found selected,
      staleReduceOnlyMarkets hState.activeMarkets userState.positions reduceOnlyAmounts = .ok (look, markets) ∧
      (∀ m, markets m = true ↔ m ∈ hState.activeMarkets ∧ ∃ a, reduceOnlyAmounts[m.toNat]? = some a ∧
        hasStaleReduceOnlyOrders (((userState.positions m).map (·.size)).getD 0) a = true) ∧
      db.cancellationOf cs hState addr trader userState reduceOnlyAmounts available visit sortSlice =
        .ok (some (found, selected)) ∧
      found = !selected.isEmpty ∧
      (∀ o ∈ selected, o.trader = addr ∧ o.orderType = .limit) ∧
      selected.Pairwise (fun a b => priceDiff hState.oraclePrices b ≤ priceDiff hState.oraclePrices a) ∧
      SelectsGreedily cs.getMinAllowableMargin available markets
        (sortSlice (diffLess hState.oraclePrices) (db.getTraderOrders addr .limit visit)) selected := by
  obtain ⟨look, markets, hstale, hflags⟩ := @staleReduceOnlyMarkets_flags userState.positions _ _ hamounts
  set sorted := sortSlice (diffLess hState.oraclePrices) (db.getTraderOrders addr .limit visit)
  set walk := sorted.foldl (cancelStep cs.getMinAllowableMargin) ⟨[], markets, available, false⟩
  have hwalk : SelectsGreedily cs.getMinAllowableMargin available markets sorted walk.ordersToCancel :=
    selectsGreedily_foldl _ _ _ _
  obtain ⟨p, hp, -, hfound⟩ := ordersToCancel_foldl_cancelStep cs.getMinAllowableMargin sorted
    ⟨[], markets, available, false⟩
  refine ⟨look, markets, walk.foundCancellableOrders, walk.ordersToCancel, hstale, hflags, ?_, ?_,
    fun o ho => ?_, hsort.2.sublist hwalk.sublist, hwalk⟩
  · rw [cancellationOf_of_negative hA hR hstale, determineOrdersToCancel_eq hprices hsort.1]
    rfl
  · rw [hfound, hp]
    simp
  · -- a picked order is one of the sorted ones, hence one of the trader's limit orders
    have hmem := hsort.1.subset (hwalk.sublist.subset ho)
    simpa [getTraderOrders] using (List.mem_filter.mp hmem).2

/-- **Without the amounts for every active market, `GetNaughtyTraders` panics**: an active market outside the
reduce-only amounts read for the trader makes `ReduceOnlyAmounts[marketId]` panic before any order is looked at. -/
theorem cancellationOf_panics_out_of_range {hState : Hu.HubbleState} {trader : Trader} {userState : Hu.UserState}
    {reduceOnlyAmounts : List Int} {available : Int}
    (hout : ∃ m ∈ hState.activeMarkets, ¬(0 ≤ m ∧ m.toNat < reduceOnlyAmounts.length)) :
    db.cancellationOf cs hState addr trader userState reduceOnlyAmounts available visit sortSlice =
      .error .indexOutOfRange := by
  have hstale : staleReduceOnlyMarkets hState.activeMarkets userState.positions reduceOnlyAmounts =
      .error .indexOutOfRange :=
    foldlM_flagStaleMarket_panic _ _ hout
  simp only [cancellationOf, hstale]
  rfl

end InMemoryDatabase

open InMemoryDatabase

/-- Trader `0`'s book: long one unit at three units and at two units, and a reduce-only short of one unit at one
unit, all in market `0`. -/
def cancelBook : InMemoryDatabase :=
  ((newInMemoryDatabase.add { (default : Order) with id := 1, baseAssetQuantity := 10 ^ 18, price := 3000000 }).add
    { (default : Order) with id := 2, baseAssetQuantity := 10 ^ 18, price := 2000000 }).add
    { (default : Order) with
      id := 3
      positionType := .short
      baseAssetQuantity := -10 ^ 18
      price := 1000000
      reduceOnly := true }

theorem cancelBook_reachable : Reachable cancelBook :=
  .tail (.tail (.single (.add _ _ rfl)) (.add _ _ rfl)) (.add _ _ rfl)

/-- One market, priced at one unit, with a min allowable margin of `0.2`. -/
def cancelConfig : ConfigService :=
  { getActiveMarketsCount := 1, getMinAllowableMargin := 200000, getUnderlyingPrices := [1000000] }

/-- A trader with one unit of margin reserved and nothing deposited. -/
def reservedTrader : Trader := ⟨∅, ⟨0, ∅, 1, 0⟩⟩

/-- A `sort.Slice` by insertion: an order goes after every order it is not less than. -/
def insertionSortSlice (less : Order → Order → Bool) (l : List Order) : List Order :=
  l.insertionSort fun a b => less b a = false

/-- At margin `-0.5` with a stale reduce-only amount in market `0`, the trader's orders sorted by distance from
the oracle price are `1`, `2`, `3`; order `1` releases `0.6` and is picked alone for the margin, and the
reduce-only order `3` for the stale market. -/
theorem cancelBook_selects_greedily :
    ∃ look markets found selected,
      staleReduceOnlyMarkets (getHubbleState cancelConfig).activeMarkets (fun _ => none) [-10 ^ 18] =
        .ok (look, markets) ∧
      (∀ m, markets m = true ↔ m ∈ (getHubbleState cancelConfig).activeMarkets ∧
        ∃ a, [-10 ^ 18][m.toNat]? = some a ∧
          hasStaleReduceOnlyOrders ((((fun _ => none) m : Option Hu.Position).map (·.size)).getD 0) a = true) ∧
      cancelBook.cancellationOf cancelConfig (getHubbleState cancelConfig) 0 reservedTrader
          ⟨fun _ => none, [], 0, 1⟩ [-10 ^ 18] (-500000) cancelBook.orders.entries insertionSortSlice =
        .ok (some (found, selected)) ∧
      found = !selected.isEmpty ∧
      (∀ o ∈ selected, o.trader = 0 ∧ o.orderType = .limit) ∧
      selected.Pairwise (fun a b => priceDiff (getHubbleState cancelConfig).oraclePrices b ≤
        priceDiff (getHubbleState cancelConfig).oraclePrices a) ∧
      SelectsGreedily cancelConfig.getMinAllowableMargin (-500000) markets
        (insertionSortSlice (diffLess (getHubbleState cancelConfig).oraclePrices)
          (cancelBook.getTraderOrders 0 .limit cancelBook.orders.entries)) selected :=
  @cancellation_selects_greedily cancelBook cancelConfig 0 cancelBook.orders.entries insertionSortSlice
    (getHubbleState cancelConfig) reservedTrader ⟨fun _ => none, [], 0, 1⟩ [-10 ^ 18] (-500000)
    (by decide) (by decide) (by decide) (by decide +kernel) (by unfold SortedByDiff; decide +kernel)

/-- **A panic instead of a selection.** Once no market is active, `GetHubbleState` reads no oracle price. A trader
above the maintenance margin (no position: the largest fraction) with available margin `-1` and margin reserved is
handed to `determineOrdersToCancel`, whose sort reads the nil oracle price of market `0` and panics, whatever order
the sort would leave. -/
theorem cancellation_panics_without_oracle_price :
    Reachable cancelBook ∧
      getNaughtyTraderMargins (getHubbleState {}) reservedTrader = .ok (9223372036854775807, -1) ∧
      traderUserState (getHubbleState {}) reservedTrader = .ok ⟨fun _ => none, [], 0, 1⟩ ∧
      ∀ sortSlice, cancelBook.cancellationOf {} (getHubbleState {}) 0 reservedTrader ⟨fun _ => none, [], 0, 1⟩ []
        (-1) cancelBook.orders.entries sortSlice = .error .nilDereference :=
  ⟨cancelBook_reachable, rfl, rfl, fun _ => rfl⟩

end Hubblenet
