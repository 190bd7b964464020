import Hubblenet.Orderbook.MatchingPipeline
import Hubblenet.Lib.Abi

/-!
# One run of the matching pipeline

`MatchingPipeline.Run` is what a validator does at each block: it reads the active markets, sends the funding
payment and the premium sample when they are due, and takes from `GetNaughtyTraders` the positions to liquidate, the
orders to cancel and each trader's available margin. It then sends the cancellations (`cancelLimitOrders`), fetches
each market's orders without the cancelled ones (`fetchOrders`), liquidates (`runLiquidations`) and matches market
after market (`runMatchingEngine`). Both loops charge the margin of each IOC and signed fill they issue to one margin
map, which the markets share in turn.

A fill is charged only after a check that it fits in what the trader has left, so a trader whose available margin is
not negative at the start of a run is not negative at its end (`run_margin_solvent`). The liquidations keep this
outright (`runLiquidations_solvent`); the matching engine keeps it unless it matches a trader against itself
(`runMatchingEngine_solventUnlessSelf`), since `areMatchingOrders` checks both orders of a pair against the margin
before the pair and then charges both.
-/

namespace Hubblenet

open Go Lib

namespace MatchingPipeline

/-! ## The run -/

/-- `isFundingPaymentTime`, with `now` the `time.Now().Unix()` it reads. -/
def isFundingPaymentTime (nextFundingTime now : Nat) : Bool :=
  nextFundingTime ≠ 0 && nextFundingTime ≤ now

/-- `isSamplePITime`: five seconds after the last attempt, for its transaction to be mined. `lastAttempt+5` is a
`uint64` sum. -/
def isSamplePITime (nextSamplePITime lastAttempt now : Nat) : Bool :=
  nextSamplePITime ≠ 0 && nextSamplePITime ≤ now && (lastAttempt + 5) % 2 ^ 64 ≤ now

/-- What `GetNaughtyTraders` returns to `Run`: the positions to liquidate, the orders to cancel by trader, in the order
the runtime visits that map, and each trader's available margin. -/
structure NaughtyTraders where
  liquidablePositions : List LiquidablePosition
  ordersToCancel : List (Σ _ : Address, List Order)
  marginMap : GoMap Address Int

/-- `*order.RawOrder.(*LimitOrder)`: the assertion panics on an order of another type. -/
def rawLimitOrder (order : Order) : Except Panic LimitOrder :=
  match order.rawOrder with
  | .limit o => .ok o
  | _ => .error .typeAssertion

/-- `cancelLimitOrders`: for each trader with orders to cancel, an `ExecuteLimitOrderCancel` call with the first five
of them, and the ids of all of them, which are kept out of matching. The state is the calls made and the ids kept
out; a type assertion that panics ends the loop. -/
def cancelLimitOrders : List (Σ _ : Address, List Order) → List (List LimitOrder) × List Hash →
    Outcome (List (List LimitOrder) × List Hash)
  | [], acc => ⟨acc, none⟩
  | ⟨_, orders⟩ :: rest, (calls, ids) =>
    if orders = [] then cancelLimitOrders rest (calls, ids)
    else
      match orders.mapM rawLimitOrder with
      | .error p => ⟨(calls, ids), some p⟩
      | .ok rawOrders => cancelLimitOrders rest (calls ++ [rawOrders.take 5], ids ++ orders.map (·.id))

/-- `removeOrdersWithIds`. -/
def removeOrdersWithIds (orders : List Order) (orderIds : List Hash) : List Order :=
  orders.filter fun order => order.id ∉ orderIds

/-- `fetchOrders`: the long orders down to the oracle's lower bound, and the short orders up to the liquidation upper
bound or, when there are long orders, up to the highest long price capped at the oracle's upper bound; both without
the cancelled orders. `getAcceptableBounds` is the config service's `(upperBound, lowerBound)` of the oracle spread. -/
def fetchOrders (db : InMemoryDatabase) (cs : ConfigService) (getAcceptableBounds : Market → Int × Int)
    (market : Market) (cancellableOrderIds : List Hash) (blockNumber now : Int) : Except Panic Orders := do
  let lowerBoundForLongs := (getAcceptableBounds market).2
  let longOrders ← db.getLongOrders market (some lowerBoundForLongs) (some blockNumber) now
  let longOrders := removeOrdersWithIds longOrders cancellableOrderIds
  let upperBoundforShorts :=
    match longOrders with
    | [] => (cs.getAcceptableBoundsForLiquidation market).1
    | longOrder :: _ =>
      min (max longOrder.price (cs.getAcceptableBoundsForLiquidation market).1) (getAcceptableBounds market).1
  let shortOrders ← db.getShortOrders market (some upperBoundforShorts) (some blockNumber) now
  pure ⟨longOrders, removeOrdersWithIds shortOrders cancellableOrderIds⟩

/-- The loop of `Run` that fetches each market's orders into the order map. -/
def fetchOrderMap (db : InMemoryDatabase) (cs : ConfigService) (getAcceptableBounds : Market → Int × Int)
    (cancellableOrderIds : List Hash) (blockNumber now : Int) :
    List Market → GoMap Market Orders → Except Panic (GoMap Market Orders)
  | [], orderMap => .ok orderMap
  | market :: markets, orderMap => do
    let orders ← fetchOrders db cs getAcceptableBounds market cancellableOrderIds blockNumber now
    fetchOrderMap db cs getAcceptableBounds cancellableOrderIds blockNumber now markets (orderMap.insert market orders)

/-- The loop of `Run` over the markets: the matching engine on each market's orders, charging the margin map the
liquidations and the markets before left, with the market's oracle upper bound. A market missing from the order map
is a nil `*Orders`. -/
def matchMarkets (cs : ConfigService) (getAcceptableBounds : Market → Int × Int) (orderMap : GoMap Market Orders) :
    List Market → EngineState → Outcome EngineState
  | [], state => ⟨state, none⟩
  | market :: markets, state =>
    match orderMap.lookup market with
    | none => ⟨state, some .nilDereference⟩
    | some orders =>
      let engine := runMatchingEngine orders.longOrders orders.shortOrders state.marginMap cs.getMinAllowableMargin
        cs.getTakerFee (getAcceptableBounds market).1
      let state : EngineState := ⟨engine.state.marginMap, state.matchedOrders ++ engine.state.matchedOrders⟩
      match engine.panic with
      | some p => ⟨state, some p⟩
      | none => matchMarkets cs getAcceptableBounds orderMap markets state

/-- What `Run` leaves: the calls it made on the transaction processor, in order (the funding payment and the
premium sample when due, the cancellations, the liquidations, the matches), and the margin map it charged. -/
structure RunState where
  fundingPayment : Bool
  samplePI : Bool
  cancels : List (List LimitOrder)
  liquidations : List LiquidationTx
  matchedOrders : List MatchedOrders
  marginMap : GoMap Address Int

/-- `MatchingPipeline.Run` at block `blockNumber` and time `now`, given what `GetNaughtyTraders` returns: nothing
without active markets. The minimum allowable margin and the taker fee are those of `GetHubbleState`, read from
the config service. -/
def run (db : InMemoryDatabase) (cs : ConfigService) (getAcceptableBounds : Market → Int × Int)
    (naughty : NaughtyTraders) (blockNumber : Int) (now : Nat) : Outcome RunState :=
  let markets := getActiveMarkets cs
  if markets = [] then ⟨⟨false, false, [], [], [], naughty.marginMap⟩, none⟩
  else
    let fundingPayment := isFundingPaymentTime db.nextFundingTime now
    let samplePI := isSamplePITime db.nextSamplePITime db.samplePIAttemptedTime now
    match cancelLimitOrders naughty.ordersToCancel ([], []) with
    | ⟨(cancels, _), some p⟩ => ⟨⟨fundingPayment, samplePI, cancels, [], [], naughty.marginMap⟩, some p⟩
    | ⟨(cancels, cancellableOrderIds), none⟩ =>
      match fetchOrderMap db cs getAcceptableBounds cancellableOrderIds blockNumber now markets ∅ with
      | .error p => ⟨⟨fundingPayment, samplePI, cancels, [], [], naughty.marginMap⟩, some p⟩
      | .ok orderMap =>
        let liquidated := runLiquidations cs naughty.liquidablePositions orderMap naughty.marginMap
        match liquidated.panic with
        | some p =>
          ⟨⟨fundingPayment, samplePI, cancels, liquidated.state.liquidations, [], liquidated.state.marginMap⟩,
            some p⟩
        | none =>
          let matched := matchMarkets cs getAcceptableBounds liquidated.state.orderMap markets
            ⟨liquidated.state.marginMap, []⟩
          ⟨⟨fundingPayment, samplePI, cancels, liquidated.state.liquidations, matched.state.matchedOrders,
            matched.state.marginMap⟩, matched.panic⟩

/-! ## Margins -/

/-- Trader `t`'s entry of the margin map, when it has one, is not negative. -/
def Solvent (t : Address) (marginMap : GoMap Address Int) : Prop := ∀ v ∈ marginMap.lookup t, 0 ≤ v

/-- A match of one of `t`'s orders against another of `t`'s. -/
def SelfMatch (t : Address) (m : MatchedOrders) : Prop := m.longOrder.trader = t ∧ m.shortOrder.trader = t

/-- Trader `t` is solvent in the engine's margin map, or the engine has matched it against itself. -/
def SolventUnlessSelf (t : Address) (state : EngineState) : Prop :=
  Solvent t state.marginMap ∨ ∃ m ∈ state.matchedOrders, SelfMatch t m

section Margins

open Lib.Abi

variable {t : Address} {marginMap : GoMap Address Int}

theorem solvent_insert {t' : Address} {v : Int} (hv : t = t' → 0 ≤ v) (h : Solvent t marginMap) :
    Solvent t (marginMap.insert t' v) := by
  intro w hw
  by_cases ht : t = t'
  · subst ht
    rw [AList.lookup_insert, Option.mem_some_iff] at hw
    exact hw ▸ hv rfl
  · rw [AList.lookup_insert_ne ht] at hw
    exact h w hw

/-- A charge the check let through: nothing, or at most the trader's entry. -/
theorem isExecutable_eq_ok {order : Order} {fillAmount minAllowableMargin takerFee upperBound : Int}
    {available : Option Int} {requiredMargin : Int}
    (h : isExecutable order fillAmount minAllowableMargin takerFee upperBound available = .ok requiredMargin) :
    requiredMargin = 0 ∨ ∃ v, available = some v ∧ requiredMargin ≤ v := by
  unfold isExecutable at h
  -- a limit or reduce-only order is charged nothing; any other reads the entry and is checked against it
  cases available with
  | none =>
    split_ifs at h
    exact .inl (Except.ok.inj h).symm
  | some v =>
    dsimp only at h
    split_ifs at h
    all_goals first
      | exact .inl (Except.ok.inj h).symm
      | (obtain rfl := Except.ok.inj h; exact .inr ⟨v, rfl, by omega⟩)

/-- A checked charge keeps a solvent entry solvent. -/
theorem solvent_sub_of_isExecutable {order : Order} {fillAmount minAllowableMargin takerFee upperBound : Int}
    {requiredMargin v : Int}
    (h : isExecutable order fillAmount minAllowableMargin takerFee upperBound (some v) = .ok requiredMargin)
    (hv : 0 ≤ v) : 0 ≤ v - requiredMargin := by
  rcases isExecutable_eq_ok h with rfl | ⟨w, hw, hle⟩
  · omega
  · cases hw
    omega

theorem chargeMargin_eq_ok {trader : Address} {amount : Int} {marginMap' : GoMap Address Int}
    (h : chargeMargin marginMap trader amount = .ok marginMap') :
    ∃ v, marginMap.lookup trader = some v ∧ marginMap' = marginMap.insert trader (v - amount) := by
  unfold chargeMargin at h
  split at h
  · cases h
  · rename_i v hv
    exact ⟨v, hv, (Except.ok.inj h).symm⟩

/-- **One pair**: charging a pair keeps every trader solvent that is not on both sides of it. Each side was checked
against the margin before the pair, and only one of them is the trader's. -/
theorem areMatchingOrders_solvent {longOrder shortOrder : Order} {minAllowableMargin takerFee upperBound : Int}
    {fillAmount : Int} {marginMap' : GoMap Address Int}
    (h : areMatchingOrders longOrder shortOrder marginMap minAllowableMargin takerFee upperBound =
      .ok (fillAmount, marginMap'))
    (hself : ¬(longOrder.trader = t ∧ shortOrder.trader = t)) (hs : Solvent t marginMap) :
    Solvent t marginMap' := by
  unfold areMatchingOrders at h
  simp only [ite_throw_bind_eq_ok] at h
  obtain ⟨-, -, -, h⟩ := h
  obtain ⟨longMargin, hlong, h⟩ := bind_eq_ok.mp h
  obtain ⟨shortMargin, hshort, h⟩ := bind_eq_ok.mp h
  obtain ⟨marginMap₁, hcharge₁, h⟩ := bind_eq_ok.mp h
  obtain ⟨marginMap₂, hcharge₂, h⟩ := bind_eq_ok.mp h
  obtain ⟨-, rfl⟩ := Prod.mk.inj (Except.ok.inj h).symm
  obtain ⟨v₁, hv₁, rfl⟩ := chargeMargin_eq_ok hcharge₁
  obtain ⟨v₂, hv₂, rfl⟩ := chargeMargin_eq_ok hcharge₂
  -- the long side's charge, checked against its trader's entry before the pair
  have hs₁ : Solvent t (marginMap.insert longOrder.trader (v₁ - longMargin)) := by
    refine solvent_insert (fun ht => ?_) hs
    rw [hv₁] at hlong
    exact solvent_sub_of_isExecutable hlong (hs v₁ (by rw [ht]; exact hv₁))
  refine solvent_insert (fun ht => ?_) hs₁
  -- the short side's trader is `t`, so the long side's is not: its entry is the one the check read
  have hne : shortOrder.trader ≠ longOrder.trader := fun h' => hself ⟨h'.symm.trans ht.symm, ht.symm⟩
  rw [AList.lookup_insert_ne hne] at hv₂
  rw [hv₂] at hshort
  exact solvent_sub_of_isExecutable hshort (hs v₂ (by rw [ht]; exact hv₂))

/-- A pair keeps the engine's invariant: the new match is a self-match of `t`, or it keeps `t` solvent. -/
theorem solventUnlessSelf_append {state : EngineState} {m : MatchedOrders} {marginMap' : GoMap Address Int}
    (hstep : ¬SelfMatch t m → Solvent t state.marginMap → Solvent t marginMap')
    (h : SolventUnlessSelf t state) : SolventUnlessSelf t ⟨marginMap', state.matchedOrders ++ [m]⟩ := by
  by_cases hm : SelfMatch t m
  · exact .inr ⟨m, List.mem_append_right _ (List.mem_singleton_self m), hm⟩
  · rcases h with hs | ⟨m', hm', hself⟩
    · exact .inl (hstep hm hs)
    · exact .inr ⟨m', List.mem_append_left _ hm', hself⟩

/-- A run of the engine from the state's margins, its matches after the state's, keeps the invariant. -/
theorem solventUnlessSelf_extend {state r : EngineState} (hr : Solvent t state.marginMap → SolventUnlessSelf t r)
    (h : SolventUnlessSelf t state) : SolventUnlessSelf t ⟨r.marginMap, state.matchedOrders ++ r.matchedOrders⟩ := by
  rcases h with hs | ⟨m, hm, hself⟩
  · rcases hr hs with hs' | ⟨m, hm, hself⟩
    · exact .inl hs'
    · exact .inr ⟨m, List.mem_append_right _ hm, hself⟩
  · exact .inr ⟨m, List.mem_append_left _ hm, hself⟩

variable {minAllowableMargin takerFee upperBound : Int}

/-- The inner loop of the engine keeps the invariant. -/
theorem matchShortOrders_solventUnlessSelf (i shortLen : Nat) :
    ∀ (shortOrders : List Order) (pass : Pass), SolventUnlessSelf t pass.state →
      SolventUnlessSelf t
        (matchShortOrders i shortLen minAllowableMargin takerFee upperBound shortOrders pass).state.state
  | [], _, h => h
  | shortOrder :: rest, pass, h => by
    rw [matchShortOrders]
    split
    · exact h
    · split
      · exact matchShortOrders_solventUnlessSelf i shortLen rest _ h
      · exact h
    · -- an accepted pair is charged, then the loop stops or goes on
      rename_i fillAmount marginMap' hok
      have h' := solventUnlessSelf_append (m := ⟨pass.longOrder, shortOrder, fillAmount⟩)
        (fun hm hs => areMatchingOrders_solvent hok hm hs) h
      dsimp only
      split
      · exact h'
      · exact matchShortOrders_solventUnlessSelf i shortLen rest _ h'

/-- The outer loop of the engine keeps the invariant. -/
theorem runMatchingEngineFrom_solventUnlessSelf :
    ∀ (i : Nat) (longOrders shortOrders : List Order) (state : EngineState), SolventUnlessSelf t state →
      SolventUnlessSelf t
        (runMatchingEngineFrom minAllowableMargin takerFee upperBound i longOrders shortOrders state).state
  | _, [], _, _, h => h
  | i, longOrder :: longOrders, shortOrders, state, h => by
    cases shortOrders with
    | nil => exact h
    | cons firstShort rest =>
      simp only [runMatchingEngineFrom]
      split
      · exact h
      · -- a pass of the inner loop, then the rest of the long orders
        have hpass := @matchShortOrders_solventUnlessSelf t minAllowableMargin takerFee upperBound i
          (firstShort :: rest).length (firstShort :: rest) ⟨longOrder, [], 0, state⟩ h
        split
        · rename_i hrun
          rw [hrun] at hpass
          exact hpass
        · rename_i hrun
          rw [hrun] at hpass
          split
          · exact runMatchingEngineFrom_solventUnlessSelf (i + 1) longOrders _ _ hpass
          · exact hpass

/-- **The matching engine keeps a solvent trader solvent unless it matches the trader against itself**, whether it
runs to the end or panics. -/
theorem runMatchingEngine_solventUnlessSelf (longOrders shortOrders : List Order) (hs : Solvent t marginMap) :
    SolventUnlessSelf t
      (runMatchingEngine longOrders shortOrders marginMap minAllowableMargin takerFee upperBound).state :=
  runMatchingEngineFrom_solventUnlessSelf 0 longOrders shortOrders ⟨marginMap, []⟩ (.inl hs)

/-- The liquidation loop over one side's orders keeps every trader solvent: a trader without an entry gets `0`, and
each charge is checked against the entry it is taken from. -/
theorem liquidateAgainst_solvent (positionType : PositionType) (upperbound lowerbound : Int) :
    ∀ (orders : List Order) (pass : LiquidationPass), Solvent t pass.marginMap →
      Solvent t (liquidateAgainst positionType upperbound lowerbound minAllowableMargin takerFee orders pass).marginMap
  | [], _, h => h
  | order :: rest, pass, h => by
    rw [liquidateAgainst]
    split
    · exact h
    · dsimp only
      -- the entry the check reads, `0` for a trader seen for the first time
      have h₀ : Solvent t (if (pass.marginMap.lookup order.trader).isSome then pass.marginMap
          else pass.marginMap.insert order.trader 0) := by
        split
        · exact h
        · exact solvent_insert (fun _ => le_rfl) h
      have havail : t = order.trader → 0 ≤ (pass.marginMap.lookup order.trader).getD 0 := by
        intro ht
        cases hv : pass.marginMap.lookup order.trader with
        | none => exact le_rfl
        | some v => exact h v (by rw [ht]; exact hv)
      split
      · exact liquidateAgainst_solvent positionType upperbound lowerbound rest _ h₀
      · rename_i requiredMargin hexec
        have h₁ := solvent_insert (fun ht => solvent_sub_of_isExecutable hexec (havail ht)) h₀
        split
        · exact h₁
        · exact liquidateAgainst_solvent positionType upperbound lowerbound rest _ h₁

/-- The liquidation loop over the positions keeps every trader solvent. -/
theorem runLiquidationsFrom_solvent (liquidationBounds : List (Int × Int)) :
    ∀ (liquidablePositions : List LiquidablePosition) (state : LiquidationState), Solvent t state.marginMap →
      Solvent t
        (runLiquidationsFrom liquidationBounds minAllowableMargin takerFee liquidablePositions state).state.marginMap
  | [], _, h => h
  | liquidable :: liquidablePositions, state, h => by
    -- the position's pass keeps the margins whatever bounds it reads
    have hpass : ∀ (upperbound lowerbound : Int) (side : List Order),
        Solvent t (liquidateAgainst liquidable.positionType upperbound lowerbound minAllowableMargin takerFee side
          ⟨liquidable, [], 0, state.marginMap, state.liquidations⟩).marginMap :=
      fun upperbound lowerbound side => liquidateAgainst_solvent _ upperbound lowerbound side _ h
    rw [runLiquidationsFrom]
    split
    · exact h
    · dsimp only
      split_ifs
      all_goals first
        | exact h
        | exact hpass _ _ _
        | exact runLiquidationsFrom_solvent liquidationBounds liquidablePositions _ (hpass _ _ _)

/-- **The liquidations keep every solvent trader solvent**, whether they run to the end or panic. -/
theorem runLiquidations_solvent (cs : ConfigService) (liquidablePositions : List LiquidablePosition)
    (orderMap : GoMap Market Orders) (hs : Solvent t marginMap) :
    Solvent t (runLiquidations cs liquidablePositions orderMap marginMap).state.marginMap := by
  unfold runLiquidations
  dsimp only
  split
  · exact hs
  · split
    · exact hs
    · exact runLiquidationsFrom_solvent _ _ _ hs

/-- The loop over the markets keeps the engine's invariant, market after market. -/
theorem matchMarkets_solventUnlessSelf (cs : ConfigService) (getAcceptableBounds : Market → Int × Int)
    (orderMap : GoMap Market Orders) :
    ∀ (markets : List Market) (state : EngineState), SolventUnlessSelf t state →
      SolventUnlessSelf t (matchMarkets cs getAcceptableBounds orderMap markets state).state
  | [], _, h => h
  | market :: markets, state, h => by
    rw [matchMarkets]
    split
    · exact h
    · rename_i orders _
      dsimp only
      -- the market's engine starts from the margins the state holds, and its matches follow the state's
      have hengine := solventUnlessSelf_extend
        (fun hs => @runMatchingEngine_solventUnlessSelf t state.marginMap cs.getMinAllowableMargin cs.getTakerFee
          (getAcceptableBounds market).1 orders.longOrders orders.shortOrders hs) h
      split
      · exact hengine
      · exact matchMarkets_solventUnlessSelf cs getAcceptableBounds orderMap markets _ hengine

end Margins

/-- A run leaves every trader that `GetNaughtyTraders` reports solvent solvent, or it has matched the trader against
itself. -/
theorem run_solventUnlessSelf (db : InMemoryDatabase) (cs : ConfigService) (getAcceptableBounds : Market → Int × Int)
    (naughty : NaughtyTraders) (blockNumber : Int) (now : Nat) {t : Address} (hs : Solvent t naughty.marginMap) :
    Solvent t (run db cs getAcceptableBounds naughty blockNumber now).state.marginMap ∨
      ∃ m ∈ (run db cs getAcceptableBounds naughty blockNumber now).state.matchedOrders, SelfMatch t m := by
  unfold run
  dsimp only
  split
  · exact .inl hs
  · split
    · exact .inl hs
    · split
      · exact .inl hs
      · rename_i orderMap _
        have hliq : Solvent t
            (runLiquidations cs naughty.liquidablePositions orderMap naughty.marginMap).state.marginMap :=
          runLiquidations_solvent cs naughty.liquidablePositions orderMap hs
        split
        · exact .inl hliq
        · -- the markets keep the invariant from the margins the liquidations left
          exact matchMarkets_solventUnlessSelf cs getAcceptableBounds _ _ _ (.inl hliq)

/-- **A run keeps the margins it charges solvent.** Whatever `GetNaughtyTraders` returns, a trader whose available
margin it reports is not negative (or who has none) ends the run, panic or not, with a margin that is not negative,
unless the run matched one of the trader's orders against another of the trader's. -/
theorem run_margin_solvent (db : InMemoryDatabase) (cs : ConfigService) (getAcceptableBounds : Market → Int × Int)
    (naughty : NaughtyTraders) (blockNumber : Int) (now : Nat) {t : Address}
    (hs : ∀ v ∈ naughty.marginMap.lookup t, 0 ≤ v)
    (hself : ∀ m ∈ (run db cs getAcceptableBounds naughty blockNumber now).state.matchedOrders,
      ¬(m.longOrder.trader = t ∧ m.shortOrder.trader = t)) :
    ∀ v ∈ (run db cs getAcceptableBounds naughty blockNumber now).state.marginMap.lookup t, 0 ≤ v := by
  rcases run_solventUnlessSelf db cs getAcceptableBounds naughty blockNumber now hs with hs' | ⟨m, hm, hm'⟩
  · exact hs'
  · exact absurd hm' (hself m hm)

/-- An IOC long of trader `1`, one unit at `1` placed in block `2`, in market `0`. -/
def crossingLong : Order :=
  { (default : Order) with
    id := 1, trader := 1, positionType := .long, baseAssetQuantity := 10 ^ 18, price := 10 ^ 6, blockNumber := 2,
    orderType := .ioc, rawOrder := .ioc ⟨⟨0, 1, 10 ^ 18, 10 ^ 6, 1, false⟩, 1, 0⟩ }

/-- A limit short of trader `2`, one unit at `1` placed in block `1`, in market `0`. -/
def crossingShort : Order :=
  { (default : Order) with
    id := 2, trader := 2, positionType := .short, baseAssetQuantity := -(10 ^ 18), price := 10 ^ 6, blockNumber := 1 }

/-- The two orders, placed in that order. -/
def crossingBook : InMemoryDatabase := (newInMemoryDatabase.add crossingLong).add crossingShort

/-- One active market, a minimum allowable margin of `0.1`, no taker fee. -/
def crossingConfig : ConfigService := { getActiveMarketsCount := 1, getMinAllowableMargin := 10 ^ 5 }

/-- No position to liquidate, no order to cancel, a margin of `0.2` for trader `1` and none for trader `2`. -/
def crossingNaughty : NaughtyTraders := ⟨[], [], ((∅ : GoMap Address Int).insert 1 (2 * 10 ^ 5)).insert 2 0⟩

/-- The run matches the two orders and charges trader `1` the `0.1` of its IOC fill, which its `0.2` covers. -/
theorem crossingRun_solvent :
    (∀ v ∈ crossingNaughty.marginMap.lookup 1, 0 ≤ v) ∧
      (∀ m ∈ (run crossingBook crossingConfig (fun _ => (2 * 10 ^ 6, 0)) crossingNaughty 3 0).state.matchedOrders,
        ¬(m.longOrder.trader = 1 ∧ m.shortOrder.trader = 1)) ∧
      (run crossingBook crossingConfig (fun _ => (2 * 10 ^ 6, 0)) crossingNaughty 3 0).state.marginMap.lookup 1 =
        some (10 ^ 5) ∧
      ∀ v ∈ (run crossingBook crossingConfig (fun _ => (2 * 10 ^ 6, 0)) crossingNaughty 3 0).state.marginMap.lookup 1,
        0 ≤ v := by
  have hs : ∀ v ∈ crossingNaughty.marginMap.lookup 1, 0 ≤ v := by decide
  have hself : ∀ m ∈ (run crossingBook crossingConfig (fun _ => (2 * 10 ^ 6, 0)) crossingNaughty 3 0).state.matchedOrders,
      ¬(m.longOrder.trader = 1 ∧ m.shortOrder.trader = 1) := by decide +kernel
  exact ⟨hs, hself, by decide +kernel, run_margin_solvent _ _ _ _ _ _ hs hself⟩

end MatchingPipeline

end Hubblenet
