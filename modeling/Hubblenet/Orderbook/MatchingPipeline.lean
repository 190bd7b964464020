import Hubblenet.Orderbook.Liquidation

/-!
# The matching pipeline: liquidations and the matching engine

`MatchingPipeline.Run` fetches each market's eligible orders, then liquidates the positions `GetNaughtyTraders`
found (`runLiquidations`) and matches long orders against short ones (`runMatchingEngine`). Both walk the order
slices with the same checks: `isExecutable` charges an IOC or signed order the margin of its fill against the
trader's entry of the margin map, and `areMatchingOrders` accepts a pair when the prices cross, the resting order
semantics hold and both sides are executable. Each fill goes out as a transaction (`ExecuteLiquidation`,
`ExecuteMatchedOrdersTx`); the model records those calls in order. Both loops then drop from the front of the slice
as many orders as they counted exhausted.

The calls are modelled with what they read: the orders, the margin map (a missing entry is a nil `*big.Int`), the
config values of the run. A Go panic ends a loop with the calls made so far (`Outcome`).

* `runMatchingEngine_skips_and_panics`: the error log reads `shortOrders[i]` with the long order's index, which
  panics once the short slice is shorter; the re-slice drops a skipped short order with quantity left, so a later
  long order never meets it while the reference matcher (`referenceMatch`) fills it; and a trader matched against
  itself is charged both sides of the pair, each checked against the margin before it.
* `runLiquidations_zero_fill`: an order already filled in the slice gets a liquidation of `0`.

`Orderbook.Pipeline` puts both loops into `Run` and shows what they keep of the margin map.
-/

namespace Hubblenet

open Go Lib

namespace MatchingPipeline

/-! ## The checks -/

/-- The errors `areMatchingOrders` and `isExecutable` return; the pipeline only logs them. -/
inductive MatchingError where
  /-- "long order price %s is less than short order price %s" -/
  | priceMismatch (longPrice shortPrice : Int)
  /-- "resting order semantics mismatch" -/
  | restingOrderSemanticsMismatch
  /-- "no fill amount" -/
  | noFillAmount
  /-- "insufficient margin. trader %s, required: %s, available: %s" -/
  | insufficientMargin (trader : Address) (required available : Int)
  deriving DecidableEq, Repr

/-- `getRequiredMargin` of the pipeline: a short order priced below `upperBound` is charged at `upperBound`. -/
def getRequiredMargin (order : Order) (fillAmount minAllowableMargin takerFee upperBound : Int) : Int :=
  let price := if order.baseAssetQuantity.sign = -1 ∧ order.price < upperBound then upperBound else order.price
  Hubblenet.getRequiredMargin price fillAmount minAllowableMargin takerFee

/-- `isExecutable`: a limit or reduce-only order needs no margin (a limit order's is reserved already); an IOC
order needs the margin of its fill with the taker fee, a signed order without it, and either fails when that is
more than the trader's available margin. Comparing with a nil margin panics. -/
def isExecutable (order : Order) (fillAmount minAllowableMargin takerFee upperBound : Int)
    (availableMargin : Option Int) : Except (Failure MatchingError) Int :=
  if order.orderType = .limit ∨ order.reduceOnly then .ok 0
  else
    let requiredMargin :=
      if order.orderType = .ioc then getRequiredMargin order fillAmount minAllowableMargin takerFee upperBound
      else if order.orderType = .signed then getRequiredMargin order fillAmount minAllowableMargin 0 upperBound
      else 0
    match availableMargin with
    | none => .error (.panic .nilDereference)
    | some availableMargin =>
      if requiredMargin > availableMargin then
        .error (.error (.insufficientMargin order.trader requiredMargin availableMargin))
      else .ok requiredMargin

/-- `margin[trader].Sub(margin[trader], amount)` on the margin map; a missing entry is a nil pointer. -/
def chargeMargin (marginMap : GoMap Address Int) (trader : Address) (amount : Int) :
    Except (Failure MatchingError) (GoMap Address Int) :=
  match marginMap.lookup trader with
  | none => .error (.panic .nilDereference)
  | some available => .ok (marginMap.insert trader (available - amount))

/-- `areMatchingOrders`: the prices cross; an order placed before the other is not IOC and the later one is not
post-only; the fill, the smaller unfilled quantity, is not zero; both sides are executable, each against its own
trader's margin as it stood before the pair; then both margins are charged. -/
def areMatchingOrders (longOrder shortOrder : Order) (marginMap : GoMap Address Int)
    (minAllowableMargin takerFee upperBound : Int) : Except (Failure MatchingError) (Int × GoMap Address Int) := do
  if longOrder.price < shortOrder.price then
    throw (.error (.priceMismatch longOrder.price shortOrder.price))
  let blockDiff := compare longOrder.blockNumber shortOrder.blockNumber
  if blockDiff = .lt ∧ (longOrder.orderType = .ioc ∨ shortOrder.isPostOnly) ∨
      blockDiff = .gt ∧ (shortOrder.orderType = .ioc ∨ longOrder.isPostOnly) then
    throw (.error .restingOrderSemanticsMismatch)
  let fillAmount :=
    Utils.bigIntMinAbs longOrder.getUnFilledBaseAssetQuantity shortOrder.getUnFilledBaseAssetQuantity
  if fillAmount.sign = 0 then throw (.error .noFillAmount)
  let longMargin ← isExecutable longOrder fillAmount minAllowableMargin takerFee upperBound
    (marginMap.lookup longOrder.trader)
  let shortMargin ← isExecutable shortOrder fillAmount minAllowableMargin takerFee upperBound
    (marginMap.lookup shortOrder.trader)
  let marginMap ← chargeMargin marginMap longOrder.trader longMargin
  let marginMap ← chargeMargin marginMap shortOrder.trader shortMargin
  pure (fillAmount, marginMap)

/-- A call `ExecuteMatchedOrdersTx(longOrder, shortOrder, fillAmount)`. -/
structure MatchedOrders where
  longOrder : Order
  shortOrder : Order
  fillAmount : Int
  deriving DecidableEq, Repr

/-- `ExecuteMatchedOrders`: issue the match, and fill both copies. -/
def executeMatchedOrders (longOrder shortOrder : Order) (fillAmount : Int) : Order × Order :=
  ({ longOrder with filledBaseAssetQuantity := longOrder.filledBaseAssetQuantity + fillAmount },
    { shortOrder with filledBaseAssetQuantity := shortOrder.filledBaseAssetQuantity - fillAmount })

/-! ## The matching engine -/

/-- What the matching engine leaves: the margin map and the matches it issued, in order. -/
structure EngineState where
  marginMap : GoMap Address Int
  matchedOrders : List MatchedOrders

/-- Where the inner loop of `runMatchingEngine` is: the long order, the short orders it has been through (filled
where matched), how many of them it exhausted, and the engine's state. -/
structure Pass where
  longOrder : Order
  shortOrders : List Order
  numOrdersExhausted : Nat
  state : EngineState

/-- The inner loop of `runMatchingEngine` for the long order of index `i`, over the short orders left, with
`shortLen` the length of the short slice. A pair that is not matching is logged with `shortOrders[i]`, which panics
when `i` is out of the slice. The loop stops when the long order is filled. -/
def matchShortOrders (i shortLen : Nat) (minAllowableMargin takerFee upperBound : Int) :
    List Order → Pass → Outcome Pass
  | [], pass => ⟨pass, none⟩
  | shortOrder :: rest, pass =>
    match areMatchingOrders pass.longOrder shortOrder pass.state.marginMap minAllowableMargin takerFee upperBound
    with
    | .error (.panic p) => ⟨{ pass with shortOrders := pass.shortOrders ++ shortOrder :: rest }, some p⟩
    | .error (.error _) =>
      if i < shortLen then
        matchShortOrders i shortLen minAllowableMargin takerFee upperBound rest
          { pass with shortOrders := pass.shortOrders ++ [shortOrder] }
      else ⟨{ pass with shortOrders := pass.shortOrders ++ shortOrder :: rest }, some .indexOutOfRange⟩
    | .ok (fillAmount, marginMap) =>
      let (longOrder, filledShortOrder) := executeMatchedOrders pass.longOrder shortOrder fillAmount
      let pass : Pass :=
        { longOrder
          shortOrders := pass.shortOrders ++ [filledShortOrder]
          numOrdersExhausted :=
            if filledShortOrder.getUnFilledBaseAssetQuantity.sign = 0 then pass.numOrdersExhausted + 1
            else pass.numOrdersExhausted
          state := { marginMap, matchedOrders := pass.state.matchedOrders ++ [⟨pass.longOrder, shortOrder, fillAmount⟩] } }
      if longOrder.getUnFilledBaseAssetQuantity.sign = 0 then
        ⟨{ pass with shortOrders := pass.shortOrders ++ rest }, none⟩
      else matchShortOrders i shortLen minAllowableMargin takerFee upperBound rest pass

/-- The outer loop of `runMatchingEngine` from the long order of index `i`: it stops when there are no short orders
or the long order does not reach the first short's price; after a pass it drops as many short orders from the front
as the pass exhausted. -/
def runMatchingEngineFrom (minAllowableMargin takerFee upperBound : Int) :
    Nat → List Order → List Order → EngineState → Outcome EngineState
  | _, [], _, state => ⟨state, none⟩
  | i, longOrder :: longOrders, shortOrders, state =>
    match shortOrders with
    | [] => ⟨state, none⟩
    | firstShort :: _ =>
      if longOrder.price < firstShort.price then ⟨state, none⟩
      else
        match matchShortOrders i shortOrders.length minAllowableMargin takerFee upperBound shortOrders
          ⟨longOrder, [], 0, state⟩ with
        | ⟨pass, some p⟩ => ⟨pass.state, some p⟩
        | ⟨pass, none⟩ =>
          if pass.numOrdersExhausted ≤ pass.shortOrders.length then
            runMatchingEngineFrom minAllowableMargin takerFee upperBound (i + 1) longOrders
              (pass.shortOrders.drop pass.numOrdersExhausted) pass.state
          else ⟨pass.state, some .indexOutOfRange⟩

/-- `runMatchingEngine`: long orders by price descending against short orders by price ascending. -/
def runMatchingEngine (longOrders shortOrders : List Order) (marginMap : GoMap Address Int)
    (minAllowableMargin takerFee upperBound : Int) : Outcome EngineState :=
  runMatchingEngineFrom minAllowableMargin takerFee upperBound 0 longOrders shortOrders ⟨marginMap, []⟩

/-- The reference matcher of price-time priority: each long order in turn scans, in book order, every short order
with quantity left, and is filled against each pair `areMatchingOrders` accepts. -/
def referenceMatch (minAllowableMargin takerFee upperBound : Int) :
    List Order → List Order → EngineState → EngineState
  | [], _, state => state
  | longOrder :: longOrders, shortOrders, state =>
    let scanned := scan longOrder shortOrders state
    referenceMatch minAllowableMargin takerFee upperBound longOrders scanned.1 scanned.2
where
  /-- One long order against the short orders, in order; the short orders come back filled where matched. -/
  scan : Order → List Order → EngineState → List Order × EngineState
    | _, [], state => ([], state)
    | longOrder, shortOrder :: rest, state =>
      if shortOrder.getUnFilledBaseAssetQuantity = 0 then
        let scanned := scan longOrder rest state
        (shortOrder :: scanned.1, scanned.2)
      else
        match areMatchingOrders longOrder shortOrder state.marginMap minAllowableMargin takerFee upperBound with
        | .ok (fillAmount, marginMap) =>
          let (filledLongOrder, filledShortOrder) := executeMatchedOrders longOrder shortOrder fillAmount
          let scanned := scan filledLongOrder rest
            { marginMap, matchedOrders := state.matchedOrders ++ [⟨longOrder, shortOrder, fillAmount⟩] }
          (filledShortOrder :: scanned.1, scanned.2)
        | .error _ =>
          let scanned := scan longOrder rest state
          (shortOrder :: scanned.1, scanned.2)


/-! ## Liquidations -/

/-- `GetActiveMarkets`: the markets `0, …, GetActiveMarketsCount() - 1`. -/
def getActiveMarkets (cs : ConfigService) : List Market :=
  (List.range cs.getActiveMarketsCount.toNat).map Int.ofNat

/-- A call `ExecuteLiquidation(trader, matchedOrder, fillAmount)`. -/
structure LiquidationTx where
  trader : Address
  matchedOrder : Order
  fillAmount : Int
  deriving DecidableEq, Repr

/-- `Orders`: a market's long and short orders for the run. -/
structure Orders where
  longOrders : List Order
  shortOrders : List Order
  deriving DecidableEq, Repr

/-- The orders a position is liquidated against: long orders for a long position, short orders for a short one. -/
def Orders.side (orders : Orders) : PositionType → List Order
  | .long => orders.longOrders
  | .short => orders.shortOrders

def Orders.setSide (orders : Orders) : PositionType → List Order → Orders
  | .long, longOrders => { orders with longOrders }
  | .short, shortOrders => { orders with shortOrders }

/-- The order past which a position finds no more orders to liquidate against: a long order below the lower bound,
a short order above the upper bound. -/
def beyondLiquidationBound (positionType : PositionType) (upperbound lowerbound : Int) (order : Order) : Bool :=
  match positionType with
  | .long => order.price < lowerbound
  | .short => order.price > upperbound

/-- A fill of a long position's run is added, of a short position's subtracted. -/
def fillTowards : PositionType → Int → Int → Int
  | .long, x, fillAmount => x + fillAmount
  | .short, x, fillAmount => x - fillAmount

/-- What `runLiquidations` leaves: the order map, the margin map, the liquidations it issued, in order. -/
structure LiquidationState where
  orderMap : GoMap Market Orders
  marginMap : GoMap Address Int
  liquidations : List LiquidationTx

/-- Where the loop over one side's orders is for a position: the position with what the run filled of it, the
orders it has been through (filled where liquidated against), how many it counted exhausted or not executable,
the margin map and the liquidations issued. -/
structure LiquidationPass where
  liquidable : LiquidablePosition
  orders : List Order
  numOrdersExhausted : Nat
  marginMap : GoMap Address Int
  liquidations : List LiquidationTx

/-- The loop of `runLiquidations` over one side's orders for a position. A trader without an entry in the margin
map gets `0` first; an order that is not executable is counted and skipped. The loop stops at the bound and when
the position is filled. -/
def liquidateAgainst (positionType : PositionType) (upperbound lowerbound minAllowableMargin takerFee : Int) :
    List Order → LiquidationPass → LiquidationPass
  | [], pass => pass
  | order :: rest, pass =>
    if beyondLiquidationBound positionType upperbound lowerbound order then
      { pass with orders := pass.orders ++ order :: rest }
    else
      let fillAmount := Utils.bigIntMinAbs pass.liquidable.getUnfilledSize order.getUnFilledBaseAssetQuantity
      let available := (pass.marginMap.lookup order.trader).getD 0
      let marginMap :=
        if (pass.marginMap.lookup order.trader).isSome then pass.marginMap else pass.marginMap.insert order.trader 0
      match isExecutable order fillAmount minAllowableMargin takerFee upperbound (some available) with
      | .error _ =>
        liquidateAgainst positionType upperbound lowerbound minAllowableMargin takerFee rest
          { pass with
            orders := pass.orders ++ [order]
            numOrdersExhausted := pass.numOrdersExhausted + 1
            marginMap }
      | .ok requiredMargin =>
        let filledOrder : Order :=
          { order with
            filledBaseAssetQuantity := fillTowards positionType order.filledBaseAssetQuantity fillAmount }
        let liquidable : LiquidablePosition :=
          { pass.liquidable with filledSize := fillTowards positionType pass.liquidable.filledSize fillAmount }
        let pass : LiquidationPass :=
          { liquidable
            orders := pass.orders ++ [filledOrder]
            numOrdersExhausted :=
              if filledOrder.getUnFilledBaseAssetQuantity.sign = 0 then pass.numOrdersExhausted + 1
              else pass.numOrdersExhausted
            marginMap := marginMap.insert order.trader (available - requiredMargin)
            liquidations := pass.liquidations ++ [⟨pass.liquidable.address, order, fillAmount⟩] }
        if liquidable.getUnfilledSize.sign = 0 then { pass with orders := pass.orders ++ rest }
        else liquidateAgainst positionType upperbound lowerbound minAllowableMargin takerFee rest pass

/-- The loop of `runLiquidations` over the positions. `orderMap[market]` of a market without orders is a nil
pointer; the first pass of the loop over the orders reads `liquidationBounds[market]`. Afterwards the side's slice
loses as many orders from the front as the loop counted. -/
def runLiquidationsFrom (liquidationBounds : List (Int × Int)) (minAllowableMargin takerFee : Int) :
    List LiquidablePosition → LiquidationState → Outcome LiquidationState
  | [], state => ⟨state, none⟩
  | liquidable :: liquidablePositions, state =>
    match state.orderMap.lookup liquidable.market with
    | none => ⟨state, some .nilDereference⟩
    | some orders =>
      let side := orders.side liquidable.positionType
      let bounds :=
        if 0 ≤ liquidable.market then liquidationBounds[liquidable.market.toNat]? else none
      if side ≠ [] ∧ bounds = none then ⟨state, some .indexOutOfRange⟩
      else
        let (upperbound, lowerbound) := bounds.getD (0, 0)
        let pass := liquidateAgainst liquidable.positionType upperbound lowerbound minAllowableMargin takerFee side
          ⟨liquidable, [], 0, state.marginMap, state.liquidations⟩
        if pass.numOrdersExhausted ≤ pass.orders.length then
          runLiquidationsFrom liquidationBounds minAllowableMargin takerFee liquidablePositions
            { orderMap := state.orderMap.insert liquidable.market
                (orders.setSide liquidable.positionType (pass.orders.drop pass.numOrdersExhausted))
              marginMap := pass.marginMap
              liquidations := pass.liquidations }
        else ⟨{ state with marginMap := pass.marginMap, liquidations := pass.liquidations }, some .indexOutOfRange⟩

/-- `runLiquidations`: nothing to do without positions or active markets; the bounds are read for every active
market. -/
def runLiquidations (cs : ConfigService) (liquidablePositions : List LiquidablePosition)
    (orderMap : GoMap Market Orders) (marginMap : GoMap Address Int) : Outcome LiquidationState :=
  let state : LiquidationState := ⟨orderMap, marginMap, []⟩
  if liquidablePositions = [] then ⟨state, none⟩
  else
    let markets := getActiveMarkets cs
    if markets = [] then ⟨state, none⟩
    else
      runLiquidationsFrom (markets.map cs.getAcceptableBoundsForLiquidation) cs.getMinAllowableMargin cs.getTakerFee
        liquidablePositions state


/-- An order of `trader` for `baseAssetQuantity` at `price`, placed in `blockNumber`, unfilled. -/
def bookOrder (id : Hash) (trader : Address) (baseAssetQuantity price blockNumber : Int) (orderType : OrderType) :
    Order :=
  { (default : Order) with id, trader, baseAssetQuantity, price, blockNumber, orderType }

/-- One active market, with liquidation bounds `(20, 5)`. -/
def liquidationConfig : ConfigService :=
  { getActiveMarketsCount := 1, getAcceptableBoundsForLiquidation := fun _ => (20, 5) }

/-- A long position of `100` to liquidate against two long limit orders of `100` at `10`, the first of them
already filled: the loop liquidates `0` against the filled order, counts it exhausted, and liquidates the position
against the second; both leave the slice. -/
theorem runLiquidations_zero_fill :
    (runLiquidations liquidationConfig [⟨9, 0, 100, 0, 0, .long⟩]
        (AList.singleton 0 ⟨[{ bookOrder 1 1 100 10 1 .limit with filledBaseAssetQuantity := 100 },
          bookOrder 2 2 100 10 1 .limit], []⟩) ∅).panic = none ∧
      (runLiquidations liquidationConfig [⟨9, 0, 100, 0, 0, .long⟩]
        (AList.singleton 0 ⟨[{ bookOrder 1 1 100 10 1 .limit with filledBaseAssetQuantity := 100 },
          bookOrder 2 2 100 10 1 .limit], []⟩) ∅).state.liquidations =
        [⟨9, { bookOrder 1 1 100 10 1 .limit with filledBaseAssetQuantity := 100 }, 0⟩,
          ⟨9, bookOrder 2 2 100 10 1 .limit, 100⟩] ∧
      ((runLiquidations liquidationConfig [⟨9, 0, 100, 0, 0, .long⟩]
        (AList.singleton 0 ⟨[{ bookOrder 1 1 100 10 1 .limit with filledBaseAssetQuantity := 100 },
          bookOrder 2 2 100 10 1 .limit], []⟩) ∅).state.orderMap.lookup 0) = some ⟨[], []⟩ := by
  decide

/-! ## The log line and the re-slice -/

/-- Traders `1` to `4`, each with no margin available. -/
def zeroMargins : GoMap Address Int :=
  ((((∅ : GoMap Address Int).insert 1 0).insert 2 0).insert 3 0).insert 4 0

/-- An IOC long of block `1`, then a limit long of block `3`, each of one unit at `10`. -/
def lostLongs : List Order := [bookOrder 1 1 1 10 1 .ioc, bookOrder 2 1 1 10 3 .limit]

/-- Limit shorts of one unit: at `10` from blocks `2` and `1`, then two at `20`. -/
def lostShorts : List Order :=
  [bookOrder 3 2 (-1) 10 2 .limit, bookOrder 4 3 (-1) 10 1 .limit, bookOrder 5 4 (-1) 20 1 .limit,
    bookOrder 6 4 (-1) 20 1 .limit]

/-- Two IOC longs of block `1` against a limit short of block `2` at the same price: both pairs break the resting
order semantics, and logging the second reads `shortOrders[1]` of a slice of one, which panics. The IOC long
`lostLongs[0]` skips the first short, which is younger, and fills the second; the pass counts one short exhausted,
so the re-slice drops the skipped short with its unit left, and the limit long `lostLongs[1]` never meets it. The
reference matcher fills it. And a trader's IOC long and IOC short of `60` at `1`, each checked against the same
margin of `100`, are both charged: the margin map is left at `-20`. -/
theorem runMatchingEngine_skips_and_panics :
    (runMatchingEngine [bookOrder 1 1 1 10 1 .ioc, bookOrder 2 1 1 10 1 .ioc] [bookOrder 3 2 (-1) 10 2 .limit]
        zeroMargins 0 0 0).panic = some .indexOutOfRange ∧
      (runMatchingEngine lostLongs lostShorts zeroMargins 0 0 0).panic = none ∧
      (runMatchingEngine lostLongs lostShorts zeroMargins 0 0 0).state.matchedOrders =
        [⟨bookOrder 1 1 1 10 1 .ioc, bookOrder 4 3 (-1) 10 1 .limit, 1⟩] ∧
      (referenceMatch 0 0 0 lostLongs lostShorts ⟨zeroMargins, []⟩).matchedOrders =
        [⟨bookOrder 1 1 1 10 1 .ioc, bookOrder 4 3 (-1) 10 1 .limit, 1⟩,
          ⟨bookOrder 2 1 1 10 3 .limit, bookOrder 3 2 (-1) 10 2 .limit, 1⟩] ∧
      ((runMatchingEngine [bookOrder 7 1 60 (10 ^ 18) 1 .ioc] [bookOrder 8 1 (-60) (10 ^ 18) 1 .ioc]
        (AList.singleton 1 100) (10 ^ 6) 0 0).state.marginMap.lookup 1) = some (-20) := by
  decide

end MatchingPipeline

end Hubblenet
