import Hubblenet.Orderbook.MarginView
import Hubblenet.Orderbook.Events
import Hubblenet.Precompile.MatchingValidation

/-!
# Placing a signed order: `TradingAPI.PlaceOrder`

A maker posts a signed order to the validator's API. `PlaceOrder` hashes it, reads what the book holds about it
(`getOrderValidationFields`), runs `hu.ValidateSignedOrder`, checks the trading authority and the margin, refuses
a post-only order that would cross the book, checks the referrer and then adds the order with its required margin
reserved virtually (`addSignedOrder`).

The crossing check compares the order with one price of the other side: the first order that is not IOC
(`firstNonIOC`). In a sorted book that price is the best of the side's non-IOC orders, so an accepted long order
is below every non-IOC ask and an accepted short above every non-IOC bid, unless that first price is `0`: the
check reads a zero head as an empty side (`placeOrder_postOnly`). `ShouldTriggerMatching` tells whether an IOC
order ahead of it crosses the new order.
-/

namespace Hubblenet

open Go Lib Lib.Abi

def errInsufficientMargin : String := "insufficient margin"
def errCrossingMarket : String := "crossing market"
def errNoReferrer : String := "no referrer"

/-- `OrderValidationFields`. For an order already in the book only `Exists` is set; the others are `0`. -/
structure OrderValidationFields where
  orderExists : Bool
  posSize : Int
  asksHead : Int
  bidsHead : Int
  shouldTriggerMatching : Bool
  deriving DecidableEq, Repr

/-- The scan of `GetOrderValidationFields` over the other side: up to the first order that is not IOC, whose
price it returns (`0` if there is none), noting whether an IOC order before it crosses. -/
def firstNonIOC (crosses : Int → Bool) : List Order → Bool → Int × Bool
  | [], shouldTriggerMatching => (0, shouldTriggerMatching)
  | o :: os, shouldTriggerMatching =>
    if o.orderType ≠ .ioc then (o.price, shouldTriggerMatching)
    else firstNonIOC crosses os (shouldTriggerMatching || crosses o.price)

namespace InMemoryDatabase

variable (db : InMemoryDatabase)

/-- `GetOrderValidationFields`. A long order (positive quantity) scans the asks, any other the bids. -/
def getOrderValidationFields (orderId : Hash) (order : SignedOrder) : OrderValidationFields :=
  if (db.orders.lookup orderId).isSome then ⟨true, 0, 0, 0, false⟩
  else
    let marketId := toInt64 order.ammIndex
    let posSize := (((db.traderMap.lookup order.trader).bind (·.positions.lookup marketId)).bind (·.size)).getD 0
    let isLongOrder := order.baseAssetQuantity.sign > 0
    let (asksHead, shouldTriggerMatching) :=
      if isLongOrder ∧ db.held .short marketId ≠ [] then
        firstNonIOC (fun price => price ≤ order.price) (db.held .short marketId) false
      else (0, false)
    let (bidsHead, shouldTriggerMatching) :=
      if ¬isLongOrder ∧ db.held .long marketId ≠ [] then
        firstNonIOC (fun price => price ≥ order.price) (db.held .long marketId) shouldTriggerMatching
      else (0, shouldTriggerMatching)
    ⟨false, posSize, asksHead, bidsHead, shouldTriggerMatching⟩

/-- `GetMarginAvailableForMakerbook`: the available margin at the given prices less the virtually reserved margin;
`0` for a trader with no record. -/
def getMarginAvailableForMakerbook (cs : ConfigService) (trader : Address) (prices : Market → Option Int) :
    Except Panic Int :=
  match db.traderMap.lookup trader with
  | none => .ok 0
  | some t => do
    let hState := { getHubbleState cs with oraclePrices := prices }
    let userState ← traderUserState hState t
    let available ← Hu.getAvailableMargin hState userState
    pure (available - t.margin.virtualReserved)

end InMemoryDatabase

/-- An error of `PlaceOrder` with the order id it returns beside it (the zero hash before the order is hashed). -/
def placeError (orderId : Hash) : Failure String → Failure (Hash × String)
  | .error e => .error (orderId, e)
  | .panic p => .panic p

/-- The record `PlaceOrder` adds: unfilled, at block `0`, in the market of the order's `int64` index. -/
def placedSignedOrder (orderId : Hash) (trader : Address) (order : SignedOrder) : Order where
  id := orderId
  market := toInt64 order.ammIndex
  positionType := getPositionTypeBasedOnBaseAssetQuantity order.baseAssetQuantity
  trader := trader
  baseAssetQuantity := order.baseAssetQuantity
  filledBaseAssetQuantity := 0
  price := order.price
  salt := order.salt
  reduceOnly := order.reduceOnly
  lifecycleList := []
  blockNumber := 0
  rawOrder := .signed order
  orderType := .signed

/-- `TradingAPI.PlaceOrder`: the order id, `ShouldTriggerMatching` and the book with the order added. `now` is the
wall clock in seconds. -/
def placeOrder (s : Signing) (cs : ConfigService) (now : Nat) (db : InMemoryDatabase) (order : SignedOrder) :
    Except (Failure (Hash × String)) (Hash × Bool × InMemoryDatabase) := do
  if cs.isSettledAll then throw (.error (0, "all markets are settled now"))
  let orderId ← (order.hash s.chainId s.verifyingContract s.encodeForSigning).mapError
    fun e => .error (0, "failed to hash order: " ++ e)
  let fields := db.getOrderValidationFields orderId order
  -- P1. Order is not already in memdb
  if fields.orderExists then throw (.error (orderId, errOrderAlreadyExists))
  let marketId := toInt64 order.ammIndex
  let (trader, signer) ← (validateSignedOrder s order
    { orderHash := orderId
      now := now
      activeMarketsCount := cs.getActiveMarketsCount
      minSize := cs.getMinSizeRequirement marketId
      priceMultiplier := cs.getPriceMultiplier marketId
      status := cs.getSignedOrderStatus orderId }).mapError (placeError orderId)
  if trader ≠ signer ∧ !cs.isTradingAuthority trader signer then throw (.error (orderId, errNoTradingAuthority))
  -- P2. Margin is available for non-reduce only orders
  if order.reduceOnly then
    throw (.error (orderId, "reduce only orders via makerbook are not supported yet"))
  let requiredMargin := getRequiredMargin order.price |order.baseAssetQuantity| cs.getMinAllowableMargin 0
  let availableMargin ← (db.getMarginAvailableForMakerbook cs trader (Hu.arrayToMap cs.getUnderlyingPrices)).mapError
    .panic
  if availableMargin < requiredMargin then throw (.error (orderId, errInsufficientMargin))
  -- P4. Post only order shouldn't cross the market
  if order.postOnly then
    let isShort := order.baseAssetQuantity.sign = -1
    if (isShort ∧ fields.bidsHead.sign ≠ 0 ∧ ¬order.price > fields.bidsHead) ∨
        (¬isShort ∧ fields.asksHead.sign ≠ 0 ∧ ¬order.price < fields.asksHead) then
      throw (.error (orderId, errCrossingMarket))
  -- P5. HasReferrer
  if !cs.hasReferrer order.trader then throw (.error (orderId, errNoReferrer))
  pure (orderId, fields.shouldTriggerMatching,
    db.addSignedOrder (placedSignedOrder orderId trader order) requiredMargin)

/-! ## The scan of the other side -/

section Scan

variable {crosses : Int → Bool}

/-- `ShouldTriggerMatching`: whether an IOC order ahead of the first non-IOC order crosses. -/
theorem firstNonIOC_snd (os : List Order) (t : Bool) :
    (firstNonIOC crosses os t).2 = (t || (os.takeWhile fun o => o.orderType = .ioc).any fun o => crosses o.price) := by
  induction os generalizing t with
  | nil => simp [firstNonIOC]
  | cons o os ih =>
    by_cases hioc : o.orderType = .ioc
    · simp [firstNonIOC, hioc, ih, Bool.or_assoc]
    · simp [firstNonIOC, hioc]

theorem InMemoryDatabase.bookBefore_short_price {a b : Order} (h : InMemoryDatabase.bookBefore .short a b) :
    a.price ≤ b.price := by
  simp only [InMemoryDatabase.bookBefore] at h
  omega

theorem InMemoryDatabase.bookBefore_long_price {a b : Order} (h : InMemoryDatabase.bookBefore .long a b) :
    b.price ≤ a.price := by
  simp only [InMemoryDatabase.bookBefore] at h
  omega

/-- On a side sorted for `bookBefore`, the scan stops at a non-IOC order that goes before every other one. -/
theorem firstNonIOC_fst_of_sorted {pt : PositionType} {os : List Order} (hs : os.Pairwise (InMemoryDatabase.bookBefore pt))
    {q : Order} (hq : q ∈ os) (hnq : q.orderType ≠ .ioc) (t : Bool) :
    ∃ q₀ ∈ os, q₀.orderType ≠ .ioc ∧ (firstNonIOC crosses os t).1 = q₀.price ∧
      (q₀ = q ∨ InMemoryDatabase.bookBefore pt q₀ q) := by
  induction os generalizing t with
  | nil => cases hq
  | cons o os ih =>
    rw [List.pairwise_cons] at hs
    by_cases hioc : o.orderType = .ioc
    · -- an IOC order is passed over; `q` is further on
      have hq' : q ∈ os := by
        rcases List.mem_cons.mp hq with rfl | hq'
        · exact absurd hioc hnq
        · exact hq'
      obtain ⟨q₀, hq₀, hn, hprice, hbefore⟩ := ih hs.2 hq' (t || crosses o.price)
      exact ⟨q₀, List.mem_cons_of_mem _ hq₀, hn, by simp [firstNonIOC, hioc, hprice], hbefore⟩
    · refine ⟨o, List.mem_cons_self, hioc, by simp [firstNonIOC, hioc], ?_⟩
      rcases List.mem_cons.mp hq with rfl | hq'
      · exact .inl rfl
      · exact .inr (hs.1 q hq')

end Scan

namespace InMemoryDatabase

variable {db : InMemoryDatabase} {orderId : Hash} {order : SignedOrder}

/-- For a new long order, `GetOrderValidationFields` scans the asks of the order's market. -/
theorem getOrderValidationFields_long (h : (db.getOrderValidationFields orderId order).orderExists = false)
    (hlong : 0 < order.baseAssetQuantity) :
    (db.getOrderValidationFields orderId order).asksHead =
        (firstNonIOC (fun price => price ≤ order.price) (db.held .short (toInt64 order.ammIndex)) false).1 ∧
      (db.getOrderValidationFields orderId order).shouldTriggerMatching =
        (firstNonIOC (fun price => price ≤ order.price) (db.held .short (toInt64 order.ammIndex)) false).2 := by
  have hsign : order.baseAssetQuantity.sign > 0 := by simp [Int.sign_eq_one_of_pos hlong]
  unfold getOrderValidationFields at h ⊢
  split_ifs at h ⊢
  -- an empty side scans to `(0, false)` as the skipped loop does
  by_cases hempty : db.held .short (toInt64 order.ammIndex) = []
  · simp [hsign, hempty, firstNonIOC]
  · simp [hsign, hempty]

/-- For a new short order, `GetOrderValidationFields` scans the bids of the order's market. -/
theorem getOrderValidationFields_short (h : (db.getOrderValidationFields orderId order).orderExists = false)
    (hshort : order.baseAssetQuantity < 0) :
    (db.getOrderValidationFields orderId order).bidsHead =
        (firstNonIOC (fun price => price ≥ order.price) (db.held .long (toInt64 order.ammIndex)) false).1 ∧
      (db.getOrderValidationFields orderId order).shouldTriggerMatching =
        (firstNonIOC (fun price => price ≥ order.price) (db.held .long (toInt64 order.ammIndex)) false).2 := by
  have hsign : ¬order.baseAssetQuantity.sign > 0 := by simp [Int.sign_eq_neg_one_of_neg hshort]
  unfold getOrderValidationFields at h ⊢
  split_ifs at h ⊢
  by_cases hempty : db.held .long (toInt64 order.ammIndex) = []
  · simp [hsign, hempty, firstNonIOC]
  · simp [hsign, hempty]

end InMemoryDatabase

/-! ## What an accepted order satisfies -/

section Place

variable {s : Signing} {cs : ConfigService} {now : Nat} {db db' : InMemoryDatabase} {order : SignedOrder}
  {orderId : Hash} {shouldTriggerMatching : Bool}

/-- What `PlaceOrder` checked of an order it accepted, and what it returns: `ShouldTriggerMatching` of the
validation fields, and the book with the order added and its margin reserved. -/
theorem placeOrder_eq_ok (h : placeOrder s cs now db order = .ok (orderId, shouldTriggerMatching, db')) :
    ∃ trader signer,
      order.hash s.chainId s.verifyingContract s.encodeForSigning = .ok orderId ∧
      (db.getOrderValidationFields orderId order).orderExists = false ∧
      validateSignedOrder s order ⟨orderId, now, cs.getActiveMarketsCount,
        cs.getMinSizeRequirement (toInt64 order.ammIndex), cs.getPriceMultiplier (toInt64 order.ammIndex),
        cs.getSignedOrderStatus orderId⟩ = .ok (trader, signer) ∧
      order.reduceOnly = false ∧
      (order.postOnly = true → ¬((order.baseAssetQuantity.sign = -1 ∧
          (db.getOrderValidationFields orderId order).bidsHead.sign ≠ 0 ∧
          ¬order.price > (db.getOrderValidationFields orderId order).bidsHead) ∨
        (¬order.baseAssetQuantity.sign = -1 ∧ (db.getOrderValidationFields orderId order).asksHead.sign ≠ 0 ∧
          ¬order.price < (db.getOrderValidationFields orderId order).asksHead))) ∧
      shouldTriggerMatching = (db.getOrderValidationFields orderId order).shouldTriggerMatching ∧
      db' = db.addSignedOrder (placedSignedOrder orderId trader order)
        (getRequiredMargin order.price |order.baseAssetQuantity| cs.getMinAllowableMargin 0) := by
  unfold placeOrder at h
  -- the checks in the source's order: settled markets, the hash, P1, the signed order's own checks, the trading
  -- authority, reduce-only, P2, P4, P5
  simp only [ite_throw_bind_eq_ok] at h
  obtain ⟨-, h⟩ := h
  obtain ⟨_, hid, h⟩ := bind_eq_ok.mp h
  simp only [ite_throw_bind_eq_ok] at h
  obtain ⟨hexists, h⟩ := h
  obtain ⟨⟨trader, signer⟩, hvalid, h⟩ := bind_eq_ok.mp h
  simp only [ite_throw_bind_eq_ok] at h
  obtain ⟨-, hreduce, h⟩ := h
  obtain ⟨_, -, h⟩ := bind_eq_ok.mp h
  simp only [ite_throw_bind_eq_ok, ite_guard_throw_bind_eq_ok] at h
  obtain ⟨-, hcross, -, h⟩ := h
  simp only [pure, Except.pure, Except.ok.injEq, Prod.mk.injEq] at h
  obtain ⟨rfl, rfl, rfl⟩ := h
  exact ⟨trader, signer, mapError_eq_ok.mp hid, by simpa using hexists, mapError_eq_ok.mp hvalid,
    by simpa using hreduce, hcross, rfl, rfl⟩

/-- **An accepted post-only order does not cross the book**, in every reachable state: a long order is below every
non-IOC ask of its market and a short order above every non-IOC bid, provided no non-IOC order of the market has
the price `0` that the check reads as an empty side. `ShouldTriggerMatching` holds exactly when an IOC order ahead
of the first non-IOC order of the other side crosses the order's price. -/
theorem placeOrder_postOnly (hdb : InMemoryDatabase.Reachable db)
    (h : placeOrder s cs now db order = .ok (orderId, shouldTriggerMatching, db'))
    (hprice : ∀ pt, ∀ q ∈ db.held pt (toInt64 order.ammIndex), q.orderType ≠ .ioc → q.price ≠ 0) :
    (0 < order.baseAssetQuantity →
      (∀ q ∈ db.held .short (toInt64 order.ammIndex), q.orderType ≠ .ioc → order.price < q.price) ∧
      (shouldTriggerMatching = true ↔ ∃ q ∈ (db.held .short (toInt64 order.ammIndex)).takeWhile
        (fun q => q.orderType = .ioc), q.price ≤ order.price)) ∧
    (order.baseAssetQuantity < 0 →
      (∀ q ∈ db.held .long (toInt64 order.ammIndex), q.orderType ≠ .ioc → q.price < order.price) ∧
      (shouldTriggerMatching = true ↔ ∃ q ∈ (db.held .long (toInt64 order.ammIndex)).takeWhile
        (fun q => q.orderType = .ioc), order.price ≤ q.price)) := by
  obtain ⟨trader, signer, -, hnew, hv, -, hcross, rfl, -⟩ := placeOrder_eq_ok h
  -- the order is post-only, so the crossing check ran
  have hcross := not_or.mp (hcross (validateSignedOrder_eq_ok hv).1)
  have hsorted := hdb.bookInv.side_sorted
  refine ⟨fun hlong => ?_, fun hshort => ?_⟩
  · obtain ⟨hasks, htrigger⟩ := InMemoryDatabase.getOrderValidationFields_long hnew hlong
    have hnotShort : ¬order.baseAssetQuantity.sign = -1 := by simp [Int.sign_eq_one_of_pos hlong]
    refine ⟨fun q hq hnq => ?_, ?_⟩
    · obtain ⟨q₀, hq₀, hn₀, hhead, hbefore⟩ :=
        @firstNonIOC_fst_of_sorted (fun price => price ≤ order.price) _ _ (hsorted .short _) _ hq hnq false
      have hne : q₀.price ≠ 0 := hprice .short q₀ hq₀ hn₀
      have hlt : order.price < q₀.price := by
        have h2 := hcross.2
        rw [hasks, hhead] at h2
        by_contra hge
        exact h2 ⟨hnotShort, by simpa using hne, hge⟩
      have hle : q₀.price ≤ q.price := by
        rcases hbefore with rfl | hb
        · exact le_rfl
        · exact InMemoryDatabase.bookBefore_short_price hb
      omega
    · rw [htrigger, firstNonIOC_snd]
      simp [List.any_eq_true]
  · obtain ⟨hbids, htrigger⟩ := InMemoryDatabase.getOrderValidationFields_short hnew hshort
    have hisShort : order.baseAssetQuantity.sign = -1 := Int.sign_eq_neg_one_of_neg hshort
    refine ⟨fun q hq hnq => ?_, ?_⟩
    · obtain ⟨q₀, hq₀, hn₀, hhead, hbefore⟩ :=
        @firstNonIOC_fst_of_sorted (fun price => price ≥ order.price) _ _ (hsorted .long _) _ hq hnq false
      have hne : q₀.price ≠ 0 := hprice .long q₀ hq₀ hn₀
      have hlt : q₀.price < order.price := by
        have h1 := hcross.1
        rw [hbids, hhead] at h1
        by_contra hge
        exact h1 ⟨hisShort, by simpa using hne, hge⟩
      have hle : q.price ≤ q₀.price := by
        rcases hbefore with rfl | hb
        · exact le_rfl
        · exact InMemoryDatabase.bookBefore_long_price hb
      omega
    · rw [htrigger, firstNonIOC_snd]
      simp [List.any_eq_true]

end Place

/-- Signing with the globals set, under which every signature recovers the key of address `0` and every order
hashes to `5`. -/
def zeroKeySigning : Signing :=
  ⟨fun _ => List.replicate 32 0, fun _ _ _ => 5, fun _ _ => .ok (List.replicate 65 0), 1, "0x1"⟩

/-- One market, unit sizes and price steps, every trader referred, no margin required. -/
def oneMarketConfig : ConfigService :=
  { getActiveMarketsCount := 1
    getMinSizeRequirement := fun _ => 1
    getPriceMultiplier := fun _ => 1
    hasReferrer := fun _ => true }

/-- A book holding one limit ask of market `0`, at `price`. -/
def askBook (price : Int) : InMemoryDatabase :=
  newInMemoryDatabase.add { (default : Order) with id := 1, positionType := .short, baseAssetQuantity := -1, price }

/-- A post-only signed long order of trader `0` for one unit of market `0` at price `1`. -/
def longAtOne : SignedOrder := ⟨⟨⟨0, 0, 10 ^ 18, 1, 0, false⟩, true⟩, 2, 0, List.replicate 65 27⟩

theorem askBook_reachable (price : Int) : InMemoryDatabase.Reachable (askBook price) :=
  .single (.add _ _ rfl)

/-- A run of `placeOrder` that returns an id and a trigger returns a book beside them. -/
theorem placeOrder_ok_of_map {s : Signing} {cs : ConfigService} {now : Nat} {db : InMemoryDatabase}
    {order : SignedOrder} {orderId : Hash} {shouldTriggerMatching : Bool}
    (h : (placeOrder s cs now db order).map (fun r => (r.1, r.2.1)) = .ok (orderId, shouldTriggerMatching)) :
    ∃ db', placeOrder s cs now db order = .ok (orderId, shouldTriggerMatching, db') := by
  obtain ⟨⟨orderId', trigger, db'⟩, hrun, hr⟩ := map_eq_ok.mp h
  cases hr
  exact ⟨db', hrun⟩

/-- An IOC ask of market `0` for one unit at `1`, expiring at time `10`. -/
def iocAsk : Order :=
  { (default : Order) with
    id := 1, positionType := .short, baseAssetQuantity := -1, price := 1, orderType := .ioc,
    rawOrder := .ioc ⟨⟨0, 0, -1, 1, 1, false⟩, 1, 10⟩ }

/-- A limit ask of market `0` for one unit at `2`. -/
def limitAskAtTwo (orderId : Hash) : Order :=
  { (default : Order) with id := orderId, positionType := .short, baseAssetQuantity := -1, price := 2 }

/-- The asks of market `0`: `iocAsk` at the head, then two limit asks tied at `2`, added around it. -/
def iocHeadAsks : InMemoryDatabase :=
  ((newInMemoryDatabase.add (limitAskAtTwo 2)).add iocAsk).add (limitAskAtTwo 3)

/-- A post-only long at `1` placed against `iocHeadAsks`: accepted below the limit asks, and it triggers matching,
since the IOC ask ahead of them crosses it. -/
theorem placeOrder_below_ask :
    InMemoryDatabase.Reachable iocHeadAsks ∧
      (∃ db', placeOrder zeroKeySigning oneMarketConfig 0 iocHeadAsks longAtOne = .ok (5, true, db')) ∧
      (∀ pt, ∀ q ∈ iocHeadAsks.held pt (toInt64 longAtOne.ammIndex), q.orderType ≠ .ioc → q.price ≠ 0) ∧
      (∀ q ∈ iocHeadAsks.held .short (toInt64 longAtOne.ammIndex), q.orderType ≠ .ioc →
        longAtOne.price < q.price) ∧
      ∃ q ∈ (iocHeadAsks.held .short (toInt64 longAtOne.ammIndex)).takeWhile (fun q => q.orderType = .ioc),
        q.price ≤ longAtOne.price := by
  have hreach : InMemoryDatabase.Reachable iocHeadAsks :=
    .tail (.tail (.single (.add _ _ rfl)) (.add _ _ rfl)) (.add _ _ rfl)
  obtain ⟨db', hplace⟩ :=
    @placeOrder_ok_of_map zeroKeySigning oneMarketConfig 0 iocHeadAsks longAtOne 5 true (by decide +kernel)
  have hprice : ∀ pt, ∀ q ∈ iocHeadAsks.held pt (toInt64 longAtOne.ammIndex), q.orderType ≠ .ioc → q.price ≠ 0 := by
    intro pt
    cases pt <;> decide +kernel
  obtain ⟨hbelow, htrigger⟩ := (placeOrder_postOnly hreach hplace hprice).1 (by decide)
  exact ⟨hreach, ⟨db', hplace⟩, hprice, hbelow, htrigger.mp rfl⟩

/-- **A zero ask does not stop a crossing order**: in a reachable book whose ask is at price `0`, a post-only long
order at `1` is accepted, above the ask. -/
theorem placeOrder_crosses_zero_ask :
    InMemoryDatabase.Reachable (askBook 0) ∧
      (∃ db', placeOrder zeroKeySigning oneMarketConfig 0 (askBook 0) longAtOne = .ok (5, false, db')) ∧
      ∃ q ∈ (askBook 0).held .short (toInt64 longAtOne.ammIndex), q.orderType ≠ .ioc ∧ ¬longAtOne.price < q.price :=
  ⟨askBook_reachable 0,
    @placeOrder_ok_of_map zeroKeySigning oneMarketConfig 0 (askBook 0) longAtOne 5 false (by decide +kernel),
    by decide +kernel⟩

end Hubblenet
