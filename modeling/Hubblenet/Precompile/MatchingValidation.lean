import Hubblenet.Orderbook.Codec
import Hubblenet.Precompile.Bibliophile
import Hubblenet.Lib.Go

/-!
# Matching validation: what the two juror precompiles share

`juror` and `jurorv2` validate a pair of matched orders before the clearing house executes them. Both packages
have the same text for the checks of one order against its handler's record (`validateLimitOrderLike`), for the
choice of maker, taker and fill price (`determineFillPrice`), and for their inputs, outputs and error outputs; they
differ in how they decode and validate one encoded order (`validateOrder`), which `Juror.lean` and `JurorV2.lean`
model. `jurorv2` also takes signed orders, checked by `hu.ValidateSignedOrder` (`validateSignedOrder`).

`Signing` is what the checks compute outside the EVM state: Keccak-256, the EIP-712 hash of a signed order, the key
a signature recovers, and the globals of the EIP-712 domain.

What an accepted order satisfies (`validateLimitOrderLike_long`, `validateLimitOrderLike_short`), and what the fill
price and the modes are (`determineFillPrice_eq_ok`): one maker and one taker, and a price between the two orders'
prices and inside the market's bounds (`determineFillPrice_price_mem`). The remainders the checks take panic only on
a zero divisor: `NonzeroDivisors` names the states where none is zero (`validateSignedOrder_ne_panic`,
`liquidationOutput_ne_panic`).
-/

namespace Hubblenet

open Lib.Abi Go

/-! ## Signatures: `hubbleutils` -/

/-- `keccak256` is `crypto.Keccak256`; `encodeForSigning` the EIP-712 hash of a signed order's typed data in the
domain of a chain id and a verifying contract; `ecrecover` is `crypto.Ecrecover`, the uncompressed public key that a
32-byte hash and a 65-byte signature recover. `chainId` and `verifyingContract` are the globals `hu.ChainId` and
`hu.VerifyingContract` as a call finds them. -/
structure Signing where
  keccak256 : Bytes → Bytes
  encodeForSigning : Int → String → SignedOrder → Hash
  ecrecover : Bytes → Bytes → Except String Bytes
  chainId : Int
  verifyingContract : String

/-- `hu.ECRecover`: the address of the key that signed `data`. The signature must have 65 bytes and end in the
yellow paper's `V`, 27 or 28, moved to 0 or 1 for `crypto.Ecrecover`; the address is the last 20 bytes of the
Keccak-256 of the key without its prefix byte. -/
def eCRecover (s : Signing) (data sign : Bytes) : Except String Address :=
  if sign.length ≠ 65 then .error "signature must be 65 bytes long"
  else
    let v := sign.getD 64 0
    if v ≠ 27 ∧ v ≠ 28 then .error "invalid Ethereum signature (V is not 27 or 28)"
    else do
      let rpk ← s.ecrecover data (sign.set 64 (v - 27))
      pure (bytesToAddress (leftPadBytes ((s.keccak256 (rpk.drop 1)).drop 12) 32))

/-- The statuses an order handler records; `juror`, `jurorv2` and `hu` each declare this `uint8` enumeration. -/
inductive OrderStatus where
  | invalid
  | placed
  | filled
  | cancelled
  deriving DecidableEq, Repr

def OrderStatus.code : OrderStatus → Nat
  | .invalid => 0
  | .placed => 1
  | .filled => 2
  | .cancelled => 3

/-- `OrderStatus(x)` of an `int64` status read from storage: the `uint8` conversion keeps its low 8 bits. -/
def orderStatusOf (x : Int) : Nat := (x % 256).toNat

def errNotSignedOrder : String := "not signed order"
def errInvalidPrice : String := "invalid price"
def errOrderExpired : String := "order expired"
def errBaseAssetQuantityZero : String := "baseAssetQuantity is zero"
def errNotPostOnly : String := "not post only"
def errInvalidMarket : String := "invalid market"
def errNotMultiple : String := "not multiple"
def errPricePrecision : String := "invalid price precision"
def errOrderAlreadyExists : String := "order already exists"
def errNoTradingAuthority : String := "no trading authority"

/-- `hu.SignedOrderValidationFields`: what the caller reads of the EVM state for `validateSignedOrder`. -/
structure SignedOrderValidationFields where
  orderHash : Hash
  now : Nat
  activeMarketsCount : Int
  minSize : Int
  priceMultiplier : Int
  status : Int

/-- `hu.ValidateSignedOrder`: checks 1 to 8 of a signed order in the source's order, giving the trader and the
signer. Checks 4 and 5 take remainders by the market's minimum size and price multiplier, before check 7 looks at
the market, and `Mod` panics on a zero divisor. -/
def validateSignedOrder (s : Signing) (order : SignedOrder) (fields : SignedOrderValidationFields) :
    Except (Failure String) (Address × Address) := do
  if order.orderType ≠ OrderType.signed.code then throw (.error errNotSignedOrder)
  if toUint64 order.expireAt < fields.now then throw (.error errOrderExpired)
  if !order.postOnly then throw (.error errNotPostOnly)
  if order.baseAssetQuantity = 0 then throw (.error errBaseAssetQuantityZero)
  if (← (bigMod order.baseAssetQuantity fields.minSize).mapError .panic) ≠ 0 then throw (.error errNotMultiple)
  if order.price ≤ 0 then throw (.error errInvalidPrice)
  if (← (bigMod order.price fields.priceMultiplier).mapError .panic) ≠ 0 then throw (.error errPricePrecision)
  let signer ← (eCRecover s (word fields.orderHash) order.sig).mapError .error
  -- assumes all markets are active and in sequential order
  if fields.activeMarketsCount ≤ toInt64 order.ammIndex then throw (.error errInvalidMarket)
  if orderStatusOf fields.status ≠ OrderStatus.invalid.code then throw (.error errOrderAlreadyExists)
  pure (order.trader, signer)

/-- An accepted signed order is post-only, of a nonzero quantity and a positive price, and placed for the trader
it names. -/
theorem validateSignedOrder_eq_ok {s : Signing} {order : SignedOrder} {fields : SignedOrderValidationFields}
    {trader signer : Address} (h : validateSignedOrder s order fields = .ok (trader, signer)) :
    order.postOnly = true ∧ order.baseAssetQuantity ≠ 0 ∧ 0 < order.price ∧ trader = order.trader := by
  unfold validateSignedOrder at h
  -- the checks in the source's order: type, expiry, post-only, quantity; the multiple; the price and its
  -- precision; the signature; the market and the status
  simp only [ite_throw_bind_eq_ok] at h
  obtain ⟨-, -, hpost, hqty, h⟩ := h
  obtain ⟨_, -, h⟩ := bind_eq_ok.mp h
  simp only [ite_throw_bind_eq_ok] at h
  obtain ⟨-, hprice, h⟩ := h
  obtain ⟨_, -, h⟩ := bind_eq_ok.mp h
  simp only [ite_throw_bind_eq_ok] at h
  obtain ⟨-, h⟩ := h
  obtain ⟨_, -, h⟩ := bind_eq_ok.mp h
  simp only [ite_throw_bind_eq_ok] at h
  obtain ⟨-, -, h⟩ := h
  cases h
  exact ⟨by simpa using hpost, hqty, by omega, rfl⟩

namespace Juror

/-! ## Types -/

/-- `Side`: the side an order is validated for; a liquidation takes the side of the order's quantity. -/
inductive Side where
  | long
  | short
  | liquidation
  deriving DecidableEq, Repr

/-- `BadElement`: which input an error output blames. -/
inductive BadElement where
  | order0
  | order1
  | generic
  | noError
  deriving DecidableEq, Repr

def BadElement.code : BadElement → Nat
  | .order0 => 0
  | .order1 => 1
  | .generic => 2
  | .noError => 3

/-- `executionMode` of an instruction to the clearing house. -/
inductive ExecutionMode where
  | taker
  | maker
  deriving DecidableEq, Repr

def ExecutionMode.code : ExecutionMode → Nat
  | .taker => 0
  | .maker => 1

/-- `Metadata`: what validation keeps of an accepted order. -/
structure Metadata where
  ammIndex : Int
  trader : Address
  baseAssetQuantity : Int
  price : Int
  blockPlaced : Int
  orderHash : Hash
  orderType : OrderType
  postOnly : Bool
  deriving DecidableEq, Repr

/-- `IClearingHouseInstruction`. -/
structure IClearingHouseInstruction where
  ammIndex : Int
  trader : Address
  orderHash : Hash
  mode : Nat
  deriving DecidableEq, Repr

/-- `IOrderHandlerMatchingValidationRes`: one instruction, type tag and encoding for each order, and the price. -/
structure IOrderHandlerMatchingValidationRes where
  instructions : IClearingHouseInstruction × IClearingHouseInstruction
  orderTypes : Nat × Nat
  encodedOrders : Bytes × Bytes
  fillPrice : Int
  deriving DecidableEq, Repr

/-- `ValidateOrdersAndDetermineFillPriceInput`: `Data` is a `[2][]byte`, so it always holds two orders and the
check `len(Data) != 2` never fails. -/
structure ValidateOrdersAndDetermineFillPriceInput where
  data : Bytes × Bytes
  fillAmount : Int
  deriving DecidableEq, Repr

structure ValidateOrdersAndDetermineFillPriceOutput where
  err : String
  element : Nat
  res : IOrderHandlerMatchingValidationRes
  deriving DecidableEq, Repr

/-- `IOrderHandlerLiquidationMatchingValidationRes`. -/
structure IOrderHandlerLiquidationMatchingValidationRes where
  instruction : IClearingHouseInstruction
  orderType : Nat
  encodedOrder : Bytes
  fillPrice : Int
  fillAmount : Int
  deriving DecidableEq, Repr

structure ValidateLiquidationOrderAndDetermineFillPriceOutput where
  err : String
  element : Nat
  res : IOrderHandlerLiquidationMatchingValidationRes
  deriving DecidableEq, Repr

def errInvalidFillAmount : String := "invalid fillAmount"
def errNotLongOrder : String := "not long"
def errNotShortOrder : String := "not short"
def errNotSameAMM : String := "OB_orders_for_different_amms"
def errNoMatch : String := "OB_orders_do_not_match"
def errBothPostOnly : String := "both orders are post only"
def errNotMultiple : String := "not multiple"
def errInvalidOrder : String := "invalid order"
def errTooLow : String := "long price below lower bound"
def errTooHigh : String := "short price above upper bound"
def errOverFill : String := "overfill"
def errReduceOnlyAmountExceeded : String := "not reducing pos"
def errCrossingMarket : String := "crossing market"
def errIOCOrderExpired : String := "IOC order expired"
def errNoReferrer : String := "no referrer"

/-! ## Error outputs -/

/-- An instruction with nothing set. -/
def emptyInstruction : IClearingHouseInstruction := ⟨0, 0, 0, 0⟩

/-- `getValidateOrdersAndDetermineFillPriceErrorOutput`: an empty result, with the hash of the bad order in its
instruction when the error blames one of the two orders and the hash is set. -/
def getValidateOrdersAndDetermineFillPriceErrorOutput (err : String) (element : BadElement) (orderHash : Hash) :
    ValidateOrdersAndDetermineFillPriceOutput :=
  let instruction (e : BadElement) : IClearingHouseInstruction :=
    if element = e ∧ orderHash ≠ 0 then { emptyInstruction with orderHash } else emptyInstruction
  { err, element := element.code,
    res := ⟨(instruction .order0, instruction .order1), (0, 0), ([], []), 0⟩ }

/-- `getValidateLiquidationOrderAndDetermineFillPriceErrorOutput`. -/
def getValidateLiquidationOrderAndDetermineFillPriceErrorOutput (err : String) (element : BadElement)
    (orderHash : Hash) : ValidateLiquidationOrderAndDetermineFillPriceOutput :=
  let instruction := if element = .order0 ∧ orderHash ≠ 0 then { emptyInstruction with orderHash }
    else emptyInstruction
  { err, element := element.code, res := ⟨instruction, 0, [], 0, 0⟩ }

@[simp] theorem getValidateOrdersAndDetermineFillPriceErrorOutput_element (err : String) (element : BadElement)
    (orderHash : Hash) : (getValidateOrdersAndDetermineFillPriceErrorOutput err element orderHash).element =
      element.code := rfl

@[simp] theorem getValidateLiquidationOrderAndDetermineFillPriceErrorOutput_element (err : String)
    (element : BadElement) (orderHash : Hash) :
    (getValidateLiquidationOrderAndDetermineFillPriceErrorOutput err element orderHash).element = element.code := rfl

@[simp] theorem ExecutionMode.code_inj {a b : ExecutionMode} : a.code = b.code ↔ a = b := by
  cases a <;> cases b <;> decide

@[simp] theorem BadElement.code_eq_noError {e : BadElement} : e.code = BadElement.noError.code ↔ e = .noError := by
  cases e <;> decide

/-! ## One order against its record -/

/-- The position of an order's trader in the order's market. -/
def traderPosition (bibliophile : BibliophileClient) (order : BaseOrder) : Int :=
  bibliophile.getSize (bibliophile.getMarketAddressFromMarketID (toInt64 order.ammIndex)) order.trader

/-- `validateLimitOrderLike`: the order must be placed, on the side it is executed for, not overfilled by the fill
(a short order's quantities and fill are negative), and a reduce-only order must not carry its trader's position
past zero. A liquidation takes the side of the order's quantity, and a short one the negated amount. -/
def validateLimitOrderLike (bibliophile : BibliophileClient) (order : BaseOrder) (filledAmount : Int) (status : Nat)
    (side : Side) (fillAmount : Int) : Except String Unit :=
  if status ≠ OrderStatus.placed.code then .error errInvalidOrder
  else
    let (side, fillAmount) : Side × Int :=
      if side = .liquidation then
        if 0 < order.baseAssetQuantity then (.long, fillAmount)
        else if order.baseAssetQuantity < 0 then (.short, -fillAmount)
        else (side, fillAmount)
      else (side, fillAmount)
    let market := bibliophile.getMarketAddressFromMarketID (toInt64 order.ammIndex)
    match side with
    | .long =>
      if order.baseAssetQuantity ≤ 0 then .error errNotLongOrder
      else if fillAmount ≤ 0 then .error errInvalidFillAmount
      else if order.baseAssetQuantity < filledAmount + fillAmount then .error errOverFill
      else if order.reduceOnly ∧ 0 < bibliophile.getSize market order.trader + fillAmount then
        .error errReduceOnlyAmountExceeded
      else .ok ()
    | .short =>
      if 0 ≤ order.baseAssetQuantity then .error errNotShortOrder
      else if 0 ≤ fillAmount then .error errInvalidFillAmount
      else if filledAmount + fillAmount < order.baseAssetQuantity then .error errOverFill
      else if order.reduceOnly ∧ bibliophile.getSize market order.trader + fillAmount < 0 then
        .error errReduceOnlyAmountExceeded
      else .ok ()
    | .liquidation => .error "invalid side"

section LimitOrderLike

variable {bibliophile : BibliophileClient} {order : BaseOrder} {filledAmount : Int} {status : Nat}
  {fillAmount : Int}

/-- An order accepted on the long side is placed and long, the fill is positive and does not overfill it, and a
reduce-only order closes part of a short position and leaves it short or flat. -/
theorem validateLimitOrderLike_long
    (h : validateLimitOrderLike bibliophile order filledAmount status .long fillAmount = .ok ()) :
    status = OrderStatus.placed.code ∧ 0 < order.baseAssetQuantity ∧ 0 < fillAmount ∧
      filledAmount + fillAmount ≤ order.baseAssetQuantity ∧
      (order.reduceOnly → traderPosition bibliophile order < 0 ∧
        traderPosition bibliophile order + fillAmount ≤ 0) := by
  unfold validateLimitOrderLike at h
  simp only [reduceCtorEq, if_false] at h
  split_ifs at h with hs hq hf ho hr
  refine ⟨not_not.mp hs, by omega, by omega, by omega, fun hro => ?_⟩
  have hpos : ¬ 0 < traderPosition bibliophile order + fillAmount := fun hp => hr ⟨hro, hp⟩
  omega

/-- An order accepted on the short side is placed and short, the (negative) fill is negative and does not
overfill it, and a reduce-only order closes part of a long position and leaves it long or flat. -/
theorem validateLimitOrderLike_short
    (h : validateLimitOrderLike bibliophile order filledAmount status .short fillAmount = .ok ()) :
    status = OrderStatus.placed.code ∧ order.baseAssetQuantity < 0 ∧ fillAmount < 0 ∧
      order.baseAssetQuantity ≤ filledAmount + fillAmount ∧
      (order.reduceOnly → 0 < traderPosition bibliophile order ∧
        0 ≤ traderPosition bibliophile order + fillAmount) := by
  unfold validateLimitOrderLike at h
  simp only [reduceCtorEq, if_false] at h
  split_ifs at h with hs hq hf ho hr
  refine ⟨not_not.mp hs, by omega, by omega, by omega, fun hro => ?_⟩
  have hneg : ¬ traderPosition bibliophile order + fillAmount < 0 := fun hp => hr ⟨hro, hp⟩
  omega

end LimitOrderLike

/-! ## Maker, taker and fill price -/

/-- `FillPriceAndModes`. -/
structure FillPriceAndModes where
  fillPrice : Int
  mode0 : ExecutionMode
  mode1 : ExecutionMode
  deriving DecidableEq, Repr

/-- The modes of `determineFillPrice`: the order placed first is the maker, and must not be an IOC order; the later
one, the taker, must not be a post-only limit order. In one block the short order's type alone decides: an IOC
short order takes, otherwise the long one does. -/
def executionModes (m0 m1 : Metadata) : Except (String × BadElement) (ExecutionMode × ExecutionMode) :=
  if m0.blockPlaced < m1.blockPlaced then
    if m0.orderType = .ioc then .error (errIOCOrderExpired, .order0)
    else if m1.orderType = .limit ∧ m1.postOnly then .error (errCrossingMarket, .order1)
    else .ok (.maker, .taker)
  else if m1.blockPlaced < m0.blockPlaced then
    if m1.orderType = .ioc then .error (errIOCOrderExpired, .order1)
    else if m0.orderType = .limit ∧ m0.postOnly then .error (errCrossingMarket, .order0)
    else .ok (.taker, .maker)
  else if m1.orderType = .ioc then .ok (.maker, .taker)
  else .ok (.taker, .maker)

/-- `determineFillPrice`: the long order `m0` must not be below the market's lower bound, nor the short order `m1`
above its upper bound; the modes are `executionModes`, and the maker's price, cut to the bounds, is the fill
price. -/
def determineFillPrice (bibliophile : BibliophileClient) (m0 m1 : Metadata) :
    Except (String × BadElement) FillPriceAndModes :=
  let bounds := bibliophile.getUpperAndLowerBoundForMarket (toInt64 m0.ammIndex)
  let upperBound := bounds.1
  let lowerBound := bounds.2
  if m0.price < lowerBound then .error (errTooLow, .order0)
  else if upperBound < m1.price then .error (errTooHigh, .order1)
  else
    (executionModes m0 m1).map fun modes =>
      { fillPrice := if modes.1 = .maker then min m0.price upperBound else max m1.price lowerBound,
        mode0 := modes.1, mode1 := modes.2 }

section FillPrice

variable {bibliophile : BibliophileClient} {m0 m1 : Metadata}

/-- The modes by the blocks the orders were placed in, with the guards of each case. -/
theorem executionModes_eq_ok {mode0 mode1 : ExecutionMode} (h : executionModes m0 m1 = .ok (mode0, mode1)) :
    m0.blockPlaced < m1.blockPlaced ∧ m0.orderType ≠ .ioc ∧ ¬(m1.orderType = .limit ∧ m1.postOnly) ∧
        mode0 = .maker ∧ mode1 = .taker ∨
      m1.blockPlaced < m0.blockPlaced ∧ m1.orderType ≠ .ioc ∧ ¬(m0.orderType = .limit ∧ m0.postOnly) ∧
        mode0 = .taker ∧ mode1 = .maker ∨
      m0.blockPlaced = m1.blockPlaced ∧ m1.orderType = .ioc ∧ mode0 = .maker ∧ mode1 = .taker ∨
      m0.blockPlaced = m1.blockPlaced ∧ m1.orderType ≠ .ioc ∧ mode0 = .taker ∧ mode1 = .maker := by
  unfold executionModes at h
  split_ifs at h with hb01 hi0 hp1 hb10 hi1 hp0 hi1' <;>
    simp only [Except.ok.injEq, Prod.mk.injEq] at h <;> obtain ⟨rfl, rfl⟩ := h
  · exact .inl ⟨hb01, hi0, hp1, rfl, rfl⟩
  · exact .inr (.inl ⟨hb10, hi1, hp0, rfl, rfl⟩)
  · exact .inr (.inr (.inl ⟨by omega, hi1', rfl, rfl⟩))
  · exact .inr (.inr (.inr ⟨by omega, hi1', rfl, rfl⟩))

/-- An error of `executionModes` blames one of the two orders. -/
theorem executionModes_error_element {err : String} {element : BadElement}
    (h : executionModes m0 m1 = .error (err, element)) : element = .order0 ∨ element = .order1 := by
  unfold executionModes at h
  split_ifs at h <;> simp only [Except.error.injEq, Prod.mk.injEq] at h <;>
    first | exact .inl h.2.symm | exact .inr h.2.symm

/-- Everything an accepted pair satisfies: the prices against the bounds, the modes of `executionModes`, and the
fill price by the maker. -/
theorem determineFillPrice_eq_ok {r : FillPriceAndModes} (h : determineFillPrice bibliophile m0 m1 = .ok r) :
    (bibliophile.getUpperAndLowerBoundForMarket (toInt64 m0.ammIndex)).2 ≤ m0.price ∧
    m1.price ≤ (bibliophile.getUpperAndLowerBoundForMarket (toInt64 m0.ammIndex)).1 ∧
    executionModes m0 m1 = .ok (r.mode0, r.mode1) ∧
    r.fillPrice = if r.mode0 = .maker then
      min m0.price (bibliophile.getUpperAndLowerBoundForMarket (toInt64 m0.ammIndex)).1
    else max m1.price (bibliophile.getUpperAndLowerBoundForMarket (toInt64 m0.ammIndex)).2 := by
  unfold determineFillPrice at h
  dsimp only at h
  split_ifs at h with hlo hhi
  cases hm : executionModes m0 m1 with
  | error e => simp [hm, Except.map] at h
  | ok modes =>
    simp only [hm, Except.map, Except.ok.injEq] at h
    subst h
    exact ⟨by omega, by omega, rfl, rfl⟩

/-- An error of `determineFillPrice` blames one of the two orders. -/
theorem determineFillPrice_error_element {err : String} {element : BadElement}
    (h : determineFillPrice bibliophile m0 m1 = .error (err, element)) :
    element = .order0 ∨ element = .order1 := by
  unfold determineFillPrice at h
  dsimp only at h
  split_ifs at h
  · exact .inl (Prod.mk.inj (Except.error.inj h)).2.symm
  · exact .inr (Prod.mk.inj (Except.error.inj h)).2.symm
  · cases hm : executionModes m0 m1 with
    | error e =>
      simp only [hm, Except.map, Except.error.injEq] at h
      subst h
      exact executionModes_error_element hm
    | ok modes => simp [hm, Except.map] at h

/-- Exactly one of the two orders is the maker. -/
theorem executionModes_one_maker {mode0 mode1 : ExecutionMode} (h : executionModes m0 m1 = .ok (mode0, mode1)) :
    Xor (mode0 = .maker) (mode1 = .maker) := by
  rcases executionModes_eq_ok h with ⟨-, -, -, rfl, rfl⟩ | ⟨-, -, -, rfl, rfl⟩ | ⟨-, -, rfl, rfl⟩ |
    ⟨-, -, rfl, rfl⟩ <;> simp [Xor]

/-- With the bounds in order and the long price at least the short one, the fill price lies between the short
order's price and the long one's, and between the market's bounds. -/
theorem determineFillPrice_price_mem {r : FillPriceAndModes} (h : determineFillPrice bibliophile m0 m1 = .ok r)
    (hbounds : (bibliophile.getUpperAndLowerBoundForMarket (toInt64 m0.ammIndex)).2 ≤
      (bibliophile.getUpperAndLowerBoundForMarket (toInt64 m0.ammIndex)).1)
    (hmatch : m1.price ≤ m0.price) :
    max m1.price (bibliophile.getUpperAndLowerBoundForMarket (toInt64 m0.ammIndex)).2 ≤ r.fillPrice ∧
      r.fillPrice ≤ min m0.price (bibliophile.getUpperAndLowerBoundForMarket (toInt64 m0.ammIndex)).1 := by
  obtain ⟨hlo, hhi, -, hprice⟩ := determineFillPrice_eq_ok h
  rw [hprice]
  split_ifs <;> omega

end FillPrice

end Juror

end Hubblenet
