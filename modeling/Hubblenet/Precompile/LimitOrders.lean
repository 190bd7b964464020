import Hubblenet.Precompile.Juror
import Hubblenet.Orderbook.HubbleMath

/-!
# Placing and cancelling a limit order: the juror's checks

The `LimitOrderBook` contract asks the `juror` precompile whether an order may be placed
(`ValidatePlaceLimitOrder`) or cancelled (`ValidateCancelLimitOrder`), and reverts on a non-empty `Err`. Both fill in
their response as they go and return it at the first failed check, so a refused request may still carry what was
computed before it.

A placement that ends with an error other than a refusal of its checks has passed every check, and its error is
then the referrer's (`validatePlaceLimitOrder_eq_ok`): a missing referrer does not stop the checks (the `return` is
missing), so a placement it refuses still reports the margin to reserve.

The reduce-only checks are what keeps a reduce-only order from growing the position: an accepted one reserves
nothing, and filling it with the trader's other open reduce-only orders moves the position towards zero by their
sizes without crossing it (`validatePlaceLimitOrder_reduceOnly_within`, from `reduceOnly_fills_within`).
-/

namespace Hubblenet

namespace Hu

/-- `hu.V1ActivationTime`. -/
def V1ActivationTime : Nat := 1697129100

/-- `hu.UpgradeVersionV0orV1`. -/
def upgradeVersionV0orV1 (blockTimestamp : Nat) : UpgradeVersion :=
  if V1ActivationTime ≤ blockTimestamp then .V1 else .V0

end Hu

namespace Juror

open Lib.Abi Go

/-- The reads of `ValidatePlaceLimitOrder` and `ValidateCancelLimitOrder` beyond those of the matching checks. -/
structure LimitOrderBibliophile extends BibliophileClient where
  getLongOpenOrdersAmount : Address → Int → Int
  getShortOpenOrdersAmount : Address → Int → Int
  /-- `GetAvailableMargin(trader, upgradeVersion)`, as the margin account computes it -/
  getAvailableMargin : Address → Hu.UpgradeVersion → Int
  getMinAllowableMargin : Int
  getTakerFee : Int
  isValidator : Address → Bool

def errStaleReduceOnlyOrders : String := "cancel stale reduce only orders"
def errInsufficientMargin : String := "insufficient margin"
def errOpenOrders : String := "open orders"
def errOpenReduceOnlyOrders : String := "open reduce only orders"

/-- `ValidatePlaceLimitOrderInput`; the ABI struct `ILimitOrderBookOrder` has the fields of `hu.LimitOrder`, which
`ILimitOrderBookOrderToLimitOrder` copies one by one before hashing. -/
structure ValidatePlaceLimitOrderInput where
  order : LimitOrder
  sender : Address

structure IOrderHandlerPlaceOrderRes where
  reserveAmount : Int
  amm : Address

structure ValidatePlaceLimitOrderOutput where
  err : String
  orderhash : Hash
  res : IOrderHandlerPlaceOrderRes

/-- `getRequiredMargin` of `juror`: a short order is charged at the market's upper price bound when its price is
below it. -/
def getRequiredMargin (bibliophile : LimitOrderBibliophile) (order : LimitOrder) : Int :=
  let upperBound := (bibliophile.getUpperAndLowerBoundForMarket (toInt64 order.ammIndex)).1
  let price := if order.baseAssetQuantity < 0 ∧ order.price < upperBound then upperBound else order.price
  let quoteAsset := |order.baseAssetQuantity * price / 10 ^ 18|
  bibliophile.getMinAllowableMargin * quoteAsset / 10 ^ 6 + quoteAsset * bibliophile.getTakerFee / 10 ^ 6

/-- The side of a non-zero quantity. -/
def orderSideOf (baseAssetQuantity : Int) : Side := if baseAssetQuantity < 0 then .short else .long

/-- `(posSize == 0 && reduceOnlyAmount != 0) || (posSize != 0 && posSize * reduceOnlyAmount > 0)`: the trader was
liquidated with reduce-only orders open, or holds some that would grow the position. -/
def staleReduceOnly (posSize reduceOnlyAmount : Int) : Prop :=
  (posSize = 0 ∧ reduceOnlyAmount ≠ 0) ∨ (posSize ≠ 0 ∧ 0 < posSize * reduceOnlyAmount)

instance (posSize reduceOnlyAmount : Int) : Decidable (staleReduceOnly posSize reduceOnlyAmount) :=
  inferInstanceAs (Decidable (_ ∨ _))

/-- The branch of `ValidatePlaceLimitOrder` on `ReduceOnly`: the error, or the amount to reserve (a reduce-only
order leaves the reserve at the `0` it started with). -/
def positionChecks (bibliophile : LimitOrderBibliophile) (order : LimitOrder) (posSize reduceOnlyAmount : Int) :
    Except String Int :=
  let trader := order.trader
  if order.reduceOnly then
    if !reducesPosition posSize order.baseAssetQuantity then .error errReduceOnlyBaseAssetQuantityInvalid
    -- one kind of order only against the position
    else if (orderSideOf order.baseAssetQuantity = .long ∧
          bibliophile.getLongOpenOrdersAmount trader order.ammIndex ≠ 0) ∨
        (orderSideOf order.baseAssetQuantity = .short ∧
          bibliophile.getShortOpenOrdersAmount trader order.ammIndex ≠ 0) then .error errOpenOrders
    else if posSize.natAbs < (reduceOnlyAmount + order.baseAssetQuantity).natAbs then
      .error errNetReduceOnlyAmountExceeded
    else .ok 0
  else
    if order.baseAssetQuantity.sign ≠ posSize.sign ∧ reduceOnlyAmount ≠ 0 then .error errOpenReduceOnlyOrders
    else
    let availableMargin :=
      bibliophile.getAvailableMargin trader (Hu.upgradeVersionV0orV1 bibliophile.getTimeStamp)
    let requiredMargin := getRequiredMargin bibliophile order
    if availableMargin < requiredMargin then .error errInsufficientMargin
    else .ok requiredMargin

/-- `order.PostOnly` and the order crosses the head of the other side (a head of `0` is an empty side). -/
def crossesMarket (bibliophile : LimitOrderBibliophile) (order : LimitOrder) (ammAddress : Address) : Prop :=
  order.postOnly ∧
    ((orderSideOf order.baseAssetQuantity = .short ∧ bibliophile.getBidsHead ammAddress ≠ 0 ∧
        order.price ≤ bibliophile.getBidsHead ammAddress) ∨
      (orderSideOf order.baseAssetQuantity = .long ∧ bibliophile.getAsksHead ammAddress ≠ 0 ∧
        bibliophile.getAsksHead ammAddress ≤ order.price))

instance (bibliophile : LimitOrderBibliophile) (order : LimitOrder) (ammAddress : Address) :
    Decidable (crossesMarket bibliophile order ammAddress) :=
  inferInstanceAs (Decidable (_ ∧ _))

/-- The end of `ValidatePlaceLimitOrder`: the post-only check, then the referrer, whose error does not return, and
the price precision (`hu.Mod` by a zero price multiplier panics). -/
def placeTail (bibliophile : LimitOrderBibliophile) (order : LimitOrder) (ammAddress : Address)
    (response : ValidatePlaceLimitOrderOutput) : Except Panic ValidatePlaceLimitOrderOutput :=
  if crossesMarket bibliophile order ammAddress then .ok { response with err := errCrossingMarket }
  else
  let response := if !bibliophile.hasReferrer order.trader then { response with err := errNoReferrer } else response
  bigMod order.price (bibliophile.getPriceMultiplier ammAddress) >>= fun rem =>
  if rem ≠ 0 then .ok { response with err := errPricePrecision } else .ok response

/-- `ValidatePlaceLimitOrder`, in the source's order; a failed check returns the response filled so far, and the
`Mod` by a zero minimum size panics. -/
def validatePlaceLimitOrder (s : Signing) (bibliophile : LimitOrderBibliophile)
    (inputStruct : ValidatePlaceLimitOrderInput) : Except Panic ValidatePlaceLimitOrderOutput :=
  let order := inputStruct.order
  let sender := inputStruct.sender
  match order.hash s.keccak256 with
  | .error err => .ok ⟨err, 0, ⟨0, 0⟩⟩
  | .ok orderHash =>
  let response : ValidatePlaceLimitOrderOutput := ⟨"", orderHash, ⟨0, 0⟩⟩
  if order.price ≤ 0 then .ok { response with err := errInvalidPrice }
  else
  let trader := order.trader
  if trader ≠ sender ∧ !bibliophile.isTradingAuthority trader sender then .ok { response with err := errNoTradingAuthority }
  else
  let ammAddress := bibliophile.getMarketAddressFromMarketID (toInt64 order.ammIndex)
  if ammAddress = 0 then .ok { response with err := errInvalidMarket }
  else
  let response := { response with res := { response.res with amm := ammAddress } }
  if order.baseAssetQuantity = 0 then .ok { response with err := errBaseAssetQuantityZero }
  else
  bigMod order.baseAssetQuantity (bibliophile.getMinSizeRequirement (toInt64 order.ammIndex)) >>= fun rem =>
  if rem ≠ 0 then .ok { response with err := errNotMultiple }
  else if orderStatusOf (bibliophile.getOrderStatus orderHash) ≠ OrderStatus.invalid.code then
    .ok { response with err := errOrderAlreadyExists }
  else
  let posSize := bibliophile.getSize ammAddress trader
  let reduceOnlyAmount := bibliophile.getReduceOnlyAmount trader order.ammIndex
  if staleReduceOnly posSize reduceOnlyAmount then .ok { response with err := errStaleReduceOnlyOrders }
  else
  match positionChecks bibliophile order posSize reduceOnlyAmount with
  | .error err => .ok { response with err := err }
  | .ok reserveAmount => placeTail bibliophile order ammAddress
      { response with res := { response.res with reserveAmount := reserveAmount } }

/-- `ValidateCancelLimitOrderInput`. -/
structure ValidateCancelLimitOrderInput where
  order : LimitOrder
  sender : Address
  assertLowMargin : Bool

structure IOrderHandlerCancelOrderRes where
  unfilledAmount : Int
  amm : Address

structure ValidateCancelLimitOrderOutput where
  err : String
  orderHash : Hash
  res : IOrderHandlerCancelOrderRes

/-- Who may cancel: the trader or an authority of it, or, to cancel for low margin, a validator. -/
def mayCancel (bibliophile : LimitOrderBibliophile) (trader sender : Address) (assertLowMargin : Bool) : Prop :=
  ¬((!assertLowMargin ∧ trader ≠ sender ∧ !bibliophile.isTradingAuthority trader sender) ∨
    (assertLowMargin ∧ !bibliophile.isValidator sender))

instance (bibliophile : LimitOrderBibliophile) (trader sender : Address) (assertLowMargin : Bool) :
    Decidable (mayCancel bibliophile trader sender assertLowMargin) :=
  inferInstanceAs (Decidable (¬_))

/-- `ValidateCancelLimitOrder`, in the source's order. -/
def validateCancelLimitOrder (s : Signing) (bibliophile : LimitOrderBibliophile)
    (inputStruct : ValidateCancelLimitOrderInput) : ValidateCancelLimitOrderOutput :=
  let order := inputStruct.order
  let assertLowMargin := inputStruct.assertLowMargin
  let trader := order.trader
  if ¬mayCancel bibliophile trader inputStruct.sender assertLowMargin then ⟨errNoTradingAuthority, 0, ⟨0, 0⟩⟩
  else
  match order.hash s.keccak256 with
  | .error err => ⟨err, 0, ⟨0, 0⟩⟩
  | .ok orderHash =>
  let status := orderStatusOf (bibliophile.getOrderStatus orderHash)
  if status = OrderStatus.invalid.code then ⟨"Invalid", orderHash, ⟨0, 0⟩⟩
  else if status = OrderStatus.filled.code then ⟨"Filled", orderHash, ⟨0, 0⟩⟩
  else if status = OrderStatus.cancelled.code then ⟨"Cancelled", orderHash, ⟨0, 0⟩⟩
  else if assertLowMargin ∧
      0 ≤ bibliophile.getAvailableMargin trader (Hu.upgradeVersionV0orV1 bibliophile.getTimeStamp) then
    ⟨"Not Low Margin", orderHash, ⟨0, 0⟩⟩
  else
    ⟨"", orderHash, ⟨order.baseAssetQuantity - bibliophile.getOrderFilledAmount orderHash,
      bibliophile.getMarketAddressFromMarketID (toInt64 order.ammIndex)⟩⟩

/-! ## What the checks accept -/

section Checks

variable {b : LimitOrderBibliophile} {order : LimitOrder} {orderHash orderHash' : Hash}
  {res res' : IOrderHandlerPlaceOrderRes}

/-- The errors a placement reports at the checks other than the referrer's. -/
def placeRefusals : List String :=
  [errInvalidPrice, errNoTradingAuthority, errInvalidMarket, errBaseAssetQuantityZero, errNotMultiple,
    errOrderAlreadyExists, errStaleReduceOnlyOrders, errReduceOnlyBaseAssetQuantityInvalid, errOpenOrders,
    errNetReduceOnlyAmountExceeded, errOpenReduceOnlyOrders, errInsufficientMargin, errCrossingMarket,
    errPricePrecision]

/-- What the referrer check leaves in `Err`. -/
def referrerErr (bibliophile : LimitOrderBibliophile) (trader : Address) : String :=
  if bibliophile.hasReferrer trader then "" else errNoReferrer

theorem ite_refusal_eq_ok {c : Prop} [Decidable c] {e e' : String} (he : e' ≠ e)
    {rest : Except Panic ValidatePlaceLimitOrderOutput} :
    (if c then .ok ⟨e', orderHash', res'⟩ else rest) = .ok ⟨e, orderHash, res⟩ ↔
      ¬c ∧ rest = .ok ⟨e, orderHash, res⟩ := by
  by_cases hc : c <;> simp [hc, he]

theorem bigMod_eq_ok_zero {x y : Int} : bigMod x y = .ok 0 ↔ y ≠ 0 ∧ y ∣ x := by
  by_cases hy : y = 0
  · simp [hy, bigMod_zero]
  · rw [bigMod_of_ne hy]
    simp [hy]

/-- Past the post-only check, the tail reports the referrer's error, unless the price is off its multiplier. -/
theorem placeTail_eq_ok {amm : Address} {e : String} (hc : errCrossingMarket ≠ e) (hp : errPricePrecision ≠ e) :
    placeTail b order amm ⟨"", orderHash', res'⟩ = .ok ⟨e, orderHash, res⟩ ↔
      ¬crossesMarket b order amm ∧ b.getPriceMultiplier amm ≠ 0 ∧ b.getPriceMultiplier amm ∣ order.price ∧
        referrerErr b order.trader = e ∧ orderHash' = orderHash ∧ res' = res := by
  unfold placeTail referrerErr
  -- the referrer's error does not return: both branches go on to the precision check
  cases b.hasReferrer order.trader <;>
    simp (disch := assumption) only [ite_refusal_eq_ok, bind_eq_ok, Bool.not_false, Bool.not_true,
      Bool.false_eq_true, if_true, if_false] <;>
    simp [bigMod_eq_ok_zero, and_assoc]

def PositionAccepted (bibliophile : LimitOrderBibliophile) (order : LimitOrder) (posSize reduceOnlyAmount reserve : Int) :
    Prop :=
  if order.reduceOnly then
    reducesPosition posSize order.baseAssetQuantity = true ∧
      (orderSideOf order.baseAssetQuantity = .long →
        bibliophile.getLongOpenOrdersAmount order.trader order.ammIndex = 0) ∧
      (orderSideOf order.baseAssetQuantity = .short →
        bibliophile.getShortOpenOrdersAmount order.trader order.ammIndex = 0) ∧
      (reduceOnlyAmount + order.baseAssetQuantity).natAbs ≤ posSize.natAbs ∧ reserve = 0
  else
    (order.baseAssetQuantity.sign = posSize.sign ∨ reduceOnlyAmount = 0) ∧
      getRequiredMargin bibliophile order ≤
        bibliophile.getAvailableMargin order.trader (Hu.upgradeVersionV0orV1 bibliophile.getTimeStamp) ∧
      reserve = getRequiredMargin bibliophile order

theorem positionChecks_eq_ok {posSize reduceOnlyAmount reserve : Int} :
    positionChecks b order posSize reduceOnlyAmount = .ok reserve ↔
      PositionAccepted b order posSize reduceOnlyAmount reserve := by
  unfold PositionAccepted
  cases hro : order.reduceOnly
  · simp only [positionChecks, hro, Bool.false_eq_true, if_false, ite_eq_iff, reduceCtorEq, and_false, false_or,
      Except.ok.injEq]
    push Not
    rw [eq_comm (a := getRequiredMargin b order), Decidable.imp_iff_not_or, not_not]
  · simp only [positionChecks, hro, if_true, ite_eq_iff, reduceCtorEq, and_false, false_or, Except.ok.injEq,
      Bool.not_eq_true', Bool.not_eq_false]
    push Not
    rw [eq_comm (a := (0 : Int))]
    simp only [and_assoc]

theorem positionChecks_error_mem {posSize reduceOnlyAmount : Int} {err : String}
    (h : positionChecks b order posSize reduceOnlyAmount = .error err) : err ∈ placeRefusals := by
  simp only [positionChecks] at h
  split_ifs at h <;> cases h <;> simp [placeRefusals]

/-- What every check of a placement but the referrer's asks, with `reserve` and `amm` the reserve and the market it
reports. -/
@[mk_iff]
structure PlaceChecks (bibliophile : LimitOrderBibliophile) (input : ValidatePlaceLimitOrderInput) (orderHash : Hash)
    (reserve : Int) (amm : Address) : Prop where
  price_pos : 0 < input.order.price
  authorized : input.order.trader = input.sender ∨ bibliophile.isTradingAuthority input.order.trader input.sender = true
  amm_eq : bibliophile.getMarketAddressFromMarketID (toInt64 input.order.ammIndex) = amm
  amm_ne : amm ≠ 0
  quantity_ne : input.order.baseAssetQuantity ≠ 0
  minSize_ne : bibliophile.getMinSizeRequirement (toInt64 input.order.ammIndex) ≠ 0
  multiple : bibliophile.getMinSizeRequirement (toInt64 input.order.ammIndex) ∣ input.order.baseAssetQuantity
  fresh : orderStatusOf (bibliophile.getOrderStatus orderHash) = OrderStatus.invalid.code
  not_stale : ¬staleReduceOnly (bibliophile.getSize amm input.order.trader)
    (bibliophile.getReduceOnlyAmount input.order.trader input.order.ammIndex)
  position : PositionAccepted bibliophile input.order (bibliophile.getSize amm input.order.trader)
    (bibliophile.getReduceOnlyAmount input.order.trader input.order.ammIndex) reserve
  not_crossing : ¬crossesMarket bibliophile input.order amm
  multiplier_ne : bibliophile.getPriceMultiplier amm ≠ 0
  precision : bibliophile.getPriceMultiplier amm ∣ input.order.price

/-- A placement ends with an error that is not a refusal of its checks exactly when it passes them all, and that
error is then the referrer's. -/
theorem validatePlaceLimitOrder_eq_ok {s : Signing} {input : ValidatePlaceLimitOrderInput} {e : String}
    (hh : input.order.hash s.keccak256 = .ok orderHash) (he : e ∉ placeRefusals) (reserve : Int) (amm : Address) :
    validatePlaceLimitOrder s b input = .ok ⟨e, orderHash, ⟨reserve, amm⟩⟩ ↔
      PlaceChecks b input orderHash reserve amm ∧ referrerErr b input.order.trader = e := by
  simp (disch := exact ne_of_mem_of_not_mem (by simp [placeRefusals]) he) only [validatePlaceLimitOrder, hh,
    ite_refusal_eq_ok, bind_eq_ok]
  rw [placeChecks_iff]
  generalize b.getMarketAddressFromMarketID (toInt64 input.order.ammIndex) = m
  cases hp : positionChecks b input.order (b.getSize m input.order.trader)
      (b.getReduceOnlyAmount input.order.trader input.order.ammIndex) with
  | error err =>
    -- refused in the branch on `ReduceOnly`, with one of the refusals
    have herr : err ≠ e := ne_of_mem_of_not_mem (positionChecks_error_mem hp) he
    simp only [Except.ok.injEq, ValidatePlaceLimitOrderOutput.mk.injEq, herr, false_and, and_false, exists_const,
      false_iff]
    rintro ⟨⟨-, -, rfl, -, -, -, -, -, -, hpos, -⟩, -⟩
    rw [← positionChecks_eq_ok, hp] at hpos
    cases hpos
  | ok reserve' =>
    have hc : errCrossingMarket ≠ e := ne_of_mem_of_not_mem (by simp [placeRefusals]) he
    have hpp : errPricePrecision ≠ e := ne_of_mem_of_not_mem (by simp [placeRefusals]) he
    simp only [placeTail_eq_ok hc hpp, ← positionChecks_eq_ok, IOrderHandlerPlaceOrderRes.mk.injEq, not_le,
      not_and_or, not_not, Bool.not_eq_true', Bool.not_eq_false, true_and]
    constructor
    · rintro ⟨hprice, hauth, hm0, hq, a, hmod, rfl, hfresh, hstale, hcross, hmul, hdvd, href, rfl, rfl⟩
      obtain ⟨hmin, hmulq⟩ := bigMod_eq_ok_zero.mp hmod
      exact ⟨⟨hprice, hauth, rfl, hm0, hq, hmin, hmulq, hfresh, hstale, hp, hcross, hmul, hdvd⟩, href⟩
    · rintro ⟨⟨hprice, hauth, rfl, hm0, hq, hmin, hmulq, hfresh, hstale, hpos, hcross, hmul, hdvd⟩, href⟩
      rw [hp, Except.ok.injEq] at hpos
      exact ⟨hprice, hauth, hm0, hq, 0, bigMod_eq_ok_zero.mpr ⟨hmin, hmulq⟩, rfl, hfresh, hstale, hcross, hmul, hdvd,
        href, hpos, rfl⟩

/-- The arithmetic of the reduce-only checks: an order that reduces the position, against open reduce-only orders
that are not stale and with a net amount within the position, takes the position towards zero without crossing it,
by exactly what all of them add up to. -/
theorem reduceOnly_fills_within {posSize reduceOnlyAmount q : Int} (hred : reducesPosition posSize q = true)
    (hstale : ¬staleReduceOnly posSize reduceOnlyAmount)
    (hnet : (reduceOnlyAmount + q).natAbs ≤ posSize.natAbs) :
    posSize ≠ 0 ∧ 0 ≤ posSize * (posSize + reduceOnlyAmount + q) ∧
      |posSize + reduceOnlyAmount + q| + |reduceOnlyAmount| + |q| = |posSize| := by
  simp only [reducesPosition, Bool.or_eq_true, decide_eq_true_eq] at hred
  simp only [staleReduceOnly, not_or, not_and, not_lt] at hstale
  obtain ⟨-, hprod⟩ := hstale
  rcases hred with ⟨hpos, hq, hle⟩ | ⟨hpos, hq, hle⟩
  · -- a long position: the open reduce-only amount and the order both sell
    have hroa : reduceOnlyAmount ≤ 0 := by
      by_contra h
      have := hprod hpos.ne'
      nlinarith
    refine ⟨hpos.ne', ?_, ?_⟩
    · have : 0 ≤ posSize + reduceOnlyAmount + q := by omega
      positivity
    · rw [abs_of_nonneg (by omega : 0 ≤ posSize + reduceOnlyAmount + q), abs_of_nonpos hroa, abs_of_neg hq,
        abs_of_pos hpos]
      omega
  · -- a short position: both buy
    have hroa : 0 ≤ reduceOnlyAmount := by
      by_contra h
      have := hprod hpos.ne
      nlinarith
    refine ⟨hpos.ne, ?_, ?_⟩
    · have : posSize + reduceOnlyAmount + q ≤ 0 := by omega
      nlinarith
    · rw [abs_of_nonpos (by omega : posSize + reduceOnlyAmount + q ≤ 0), abs_of_nonneg hroa, abs_of_pos hq,
        abs_of_neg hpos]
      omega

/-- **An accepted reduce-only order stays within the position.** When `ValidatePlaceLimitOrder` accepts a reduce-only
order, it reserves no margin, the trader holds a position in the order's market, and filling the trader's open
reduce-only orders and this one moves the position towards zero by the sum of their sizes without crossing it. -/
theorem validatePlaceLimitOrder_reduceOnly_within {s : Signing} {input : ValidatePlaceLimitOrderInput}
    {orderHash : Hash} (hh : input.order.hash s.keccak256 = .ok orderHash) (hro : input.order.reduceOnly = true)
    {reserve : Int} {amm : Address} (h : validatePlaceLimitOrder s b input = .ok ⟨"", orderHash, ⟨reserve, amm⟩⟩) :
    reserve = 0 ∧ b.getSize amm input.order.trader ≠ 0 ∧
      0 ≤ b.getSize amm input.order.trader * (b.getSize amm input.order.trader +
        b.getReduceOnlyAmount input.order.trader input.order.ammIndex + input.order.baseAssetQuantity) ∧
      |b.getSize amm input.order.trader + b.getReduceOnlyAmount input.order.trader input.order.ammIndex +
          input.order.baseAssetQuantity| +
        |b.getReduceOnlyAmount input.order.trader input.order.ammIndex| + |input.order.baseAssetQuantity| =
        |b.getSize amm input.order.trader| := by
  obtain ⟨hchecks, -⟩ := (validatePlaceLimitOrder_eq_ok hh (by decide) reserve amm).mp h
  have hpos := hchecks.position
  simp only [PositionAccepted, hro, if_true] at hpos
  obtain ⟨hred, -, -, hnet, hreserve⟩ := hpos
  exact ⟨hreserve, reduceOnly_fills_within hred hchecks.not_stale hnet⟩

/-- A reduce-only sell of one unit in market `0` by trader `7`, placed by the trader. -/
def reduceOnlySell : ValidatePlaceLimitOrderInput := ⟨⟨⟨0, 7, -(10 ^ 18), 10 ^ 6, 1, true⟩, false⟩, 7⟩

/-- Market `0` at address `1`, sizes in whole units and prices at any precision, a fresh order and an empty book; the
trader has a referrer, is long two units and already sells half a unit reduce-only. -/
def longTwoBook : LimitOrderBibliophile :=
  { (default : BibliophileClient) with
    getMarketAddressFromMarketID := fun _ => 1
    getMinSizeRequirement := fun _ => 10 ^ 18
    getPriceMultiplier := fun _ => 1
    hasReferrer := fun _ => true
    getSize := fun _ _ => 2 * 10 ^ 18
    getReduceOnlyAmount := fun _ _ => -(5 * 10 ^ 17)
    getLongOpenOrdersAmount := fun _ _ => 0
    getShortOpenOrdersAmount := fun _ _ => 0
    getAvailableMargin := fun _ _ => 0
    getMinAllowableMargin := 2 * 10 ^ 5
    getTakerFee := 0
    isValidator := fun _ => false }

theorem reduceOnlySell_within :
    reduceOnlySell.order.hash JurorV2.sampleSigning.keccak256 = .ok 0 ∧ reduceOnlySell.order.reduceOnly = true ∧
      validatePlaceLimitOrder JurorV2.sampleSigning longTwoBook reduceOnlySell = .ok ⟨"", 0, ⟨0, 1⟩⟩ ∧
      longTwoBook.getSize 1 7 ≠ 0 ∧
      0 ≤ longTwoBook.getSize 1 7 * (longTwoBook.getSize 1 7 + longTwoBook.getReduceOnlyAmount 7 0 + -(10 ^ 18)) ∧
      |longTwoBook.getSize 1 7 + longTwoBook.getReduceOnlyAmount 7 0 + -(10 ^ 18)| +
        |longTwoBook.getReduceOnlyAmount 7 0| + |-(10 ^ 18)| = |longTwoBook.getSize 1 7| := by
  have hh : reduceOnlySell.order.hash JurorV2.sampleSigning.keccak256 = .ok 0 := by
    have hl : reduceOnlySell.order.toBaseOrder.InAbiRange := by unfold BaseOrder.InAbiRange; decide
    obtain ⟨bs, henc, -⟩ := limitOrder_roundtrip hl
    exact LimitOrder.hash_of_encode henc _
  have hchecks : PlaceChecks longTwoBook reduceOnlySell 0 0 1 := by
    rw [placeChecks_iff]
    unfold PositionAccepted
    decide
  have h : validatePlaceLimitOrder JurorV2.sampleSigning longTwoBook reduceOnlySell = .ok ⟨"", 0, ⟨0, 1⟩⟩ :=
    (validatePlaceLimitOrder_eq_ok hh (by decide) 0 1).mpr ⟨hchecks, rfl⟩
  exact ⟨hh, rfl, h, (validatePlaceLimitOrder_reduceOnly_within hh rfl h).2⟩

end Checks

end Juror

end Hubblenet
