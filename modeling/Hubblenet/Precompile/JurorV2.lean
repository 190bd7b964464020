import Hubblenet.Precompile.MatchingValidation

/-!
# `jurorv2`: validating a matched pair of orders

`ValidateOrdersAndDetermineFillPrice` takes two encoded orders, the long one first, and the amount to fill. It
decodes each by its type tag and validates it against its handler's record (`validateOrder`): a limit, an IOC or a
signed order, each with the checks of its own handler. It then checks that the two orders are for one market,
cross, are not both post only and fill a multiple of the market's minimum size, and asks `determineFillPrice` for
the modes and the price. An error becomes an error output that blames one order or the pair; a `Mod` by a zero
minimum size or price multiplier panics.

* `validateOrdersAndDetermineFillPrice_eq_success`: what an output with `Element = NoError` comes from, and
  `validateOrdersAndDetermineFillPrice_of_ok` the converse.
* `matched_orders_within_limits`: what every accepted pair satisfies.
* `same_block_roles`: in one block only the short order's type picks the maker, so two IOC orders match with an IOC
  order as maker, and a post-only order can be the taker.
* `validateOrdersAndDetermineFillPrice_ne_panic`: in a state with `NonzeroDivisors`, both entry points return an
  output; the panics of `matching_validation_panics` need a zero divisor.
-/

namespace Hubblenet

open Lib.Abi Go Juror

/-- The fields every order carries. -/
def ContractOrder.base : ContractOrder → BaseOrder
  | .limit o => o.toBaseOrder
  | .ioc o => o.toBaseOrder
  | .signed o => o.toBaseOrder

namespace JurorV2

/-! ## Signed orders before the node has bootstrapped -/

/-- `strings.EqualFold` on ASCII text: equal up to case. -/
def equalFold (s t : String) : Bool := s.toLower == t.toLower

/-- The globals `hu.ChainId` and `hu.VerifyingContract` as `validateExecuteSignedOrder` leaves them. The node sets
them when its order processor starts, after bootstrapping; until then, while either is unset, the values of mainnet
or of the aylin testnet are set by the chain id of the node's snow context. -/
def ensureSigningGlobals (s : Signing) (chainID : String) : Signing :=
  if s.verifyingContract = "" ∨ s.chainId = 0 then
    if equalFold chainID "2jfjkB7NkK4v8zoaoWmh5eaABNW6ynjQvemPFZpgPQ7ugrmUXv" then
      { s with chainId := 1992, verifyingContract := "0x211682829664a5e289885DE21897B094eF289d18" }
    else if equalFold chainID "2qR64ZGVHTJjTZTzEnQTDoD1oMVQMYFVaBtN5tDoYaDKfVY5Xz" then
      { s with chainId := 486, verifyingContract := "0xb589490250fAEaF7D80D0b5A41db5059d55A85Df" }
    else s
  else s

/-! ## One order -/

/-- `validateExecuteLimitOrder`; an error comes with the order's hash, `0` when hashing failed. -/
def validateExecuteLimitOrder (s : Signing) (bibliophile : BibliophileClient) (order : LimitOrder) (side : Side)
    (fillAmount : Int) : Except (String × Hash) Metadata :=
  match order.hash s.keccak256 with
  | .error err => .error (err, 0)
  | .ok orderHash =>
    match validateLimitOrderLike bibliophile order.toBaseOrder (bibliophile.getOrderFilledAmount orderHash)
        (orderStatusOf (bibliophile.getOrderStatus orderHash)) side fillAmount with
    | .error err => .error (err, orderHash)
    | .ok () =>
      .ok
        { ammIndex := order.ammIndex, trader := order.trader, baseAssetQuantity := order.baseAssetQuantity,
          blockPlaced := bibliophile.getBlockPlaced orderHash, price := order.price, orderHash := orderHash,
          orderType := .limit, postOnly := order.postOnly }

/-- `validateExecuteIOCOrder`: also an IOC type and an expiry not before the block's time. -/
def validateExecuteIOCOrder (s : Signing) (bibliophile : BibliophileClient) (order : IOCOrder) (side : Side)
    (fillAmount : Int) : Except (String × Hash) Metadata :=
  match order.hash s.keccak256 with
  | .error err => .error (err, 0)
  | .ok orderHash =>
    if order.orderType ≠ OrderType.ioc.code then .error ("not ioc order", orderHash)
    else if toUint64 order.expireAt < bibliophile.getTimeStamp then .error ("ioc expired", orderHash)
    else
      match validateLimitOrderLike bibliophile order.toBaseOrder (bibliophile.iOC_GetOrderFilledAmount orderHash)
          (orderStatusOf (bibliophile.iOC_GetOrderStatus orderHash)) side fillAmount with
      | .error err => .error (err, orderHash)
      | .ok () =>
        .ok
          { ammIndex := order.ammIndex, trader := order.trader, baseAssetQuantity := order.baseAssetQuantity,
            blockPlaced := bibliophile.iOC_GetBlockPlaced orderHash, price := order.price, orderHash := orderHash,
            orderType := .ioc, postOnly := false }

/-- `validateExecuteSignedOrder`: `hu.ValidateSignedOrder`, a signer that is the trader or one of its trading
authorities, the checks of a placed order against the amount filled so far, and a trader with a referrer. A signed
order is never stored as placed, so it has no block: it is given block `0`, and so is the maker against any order
placed in a later block. -/
def validateExecuteSignedOrder (s : Signing) (bibliophile : BibliophileClient) (order : SignedOrder) (side : Side)
    (fillAmount : Int) : Except (Failure (String × Hash)) Metadata :=
  let s := ensureSigningGlobals s bibliophile.snowChainID
  match order.hash s.chainId s.verifyingContract s.encodeForSigning with
  | .error err => .error (.error (err, 0))
  | .ok orderHash =>
    let fields : SignedOrderValidationFields :=
      { orderHash, now := bibliophile.getTimeStamp, activeMarketsCount := bibliophile.getActiveMarketsCount,
        minSize := bibliophile.getMinSizeRequirement (toInt64 order.ammIndex),
        priceMultiplier :=
          bibliophile.getPriceMultiplier (bibliophile.getMarketAddressFromMarketID (toInt64 order.ammIndex)),
        status := bibliophile.getSignedOrderStatus orderHash }
    match validateSignedOrder s order fields with
    | .error (.panic p) => .error (.panic p)
    | .error (.error err) => .error (.error (err, orderHash))
    | .ok (trader, signer) =>
      if trader ≠ signer ∧ !bibliophile.isTradingAuthority trader signer then
        .error (.error (errNoTradingAuthority, orderHash))
      else
        match validateLimitOrderLike bibliophile order.toBaseOrder
            (bibliophile.getSignedOrderFilledAmount orderHash) OrderStatus.placed.code side fillAmount with
        | .error err => .error (.error (err, orderHash))
        | .ok () =>
          if !bibliophile.hasReferrer order.trader then .error (.error (Juror.errNoReferrer, orderHash))
          else
            .ok
              { ammIndex := order.ammIndex, trader := order.trader, baseAssetQuantity := order.baseAssetQuantity,
                blockPlaced := 0, price := order.price, orderHash := orderHash, orderType := .signed,
                postOnly := true }

/-- `validateOrder`: the decoder and the checks of the order's type. Every error comes with a metadata (its hash
`0` when the order did not decode or hash), so the callers' read of `OrderHash` never meets a nil pointer. -/
def validateOrder (s : Signing) (bibliophile : BibliophileClient) (orderType : Nat) (encodedOrder : Bytes)
    (side : Side) (fillAmount : Int) : Except (Failure (String × Hash)) Metadata :=
  if orderType = OrderType.limit.code then
    match decodeLimitOrder encodedOrder with
    | .error err => .error (.error (err, 0))
    | .ok order => (validateExecuteLimitOrder s bibliophile order side fillAmount).mapError .error
  else if orderType = OrderType.ioc.code then
    match decodeIOCOrder encodedOrder with
    | .error err => .error (.error (err, 0))
    | .ok order => (validateExecuteIOCOrder s bibliophile order side fillAmount).mapError .error
  else if orderType = OrderType.signed.code then
    match decodeSignedOrder encodedOrder with
    | .error err => .error (.error (err, 0))
    | .ok order => validateExecuteSignedOrder s bibliophile order side fillAmount
  else .error (.error ("invalid order type", 0))

/-! ## A pair of orders -/

/-- The output of an accepted pair: an instruction for each order with its mode, the orders' type tags and
encodings, and the fill price. -/
def matchedOutput (decodeStep0 decodeStep1 : DecodeStep) (m0 m1 : Metadata) (fillPriceAndModes : FillPriceAndModes) :
    ValidateOrdersAndDetermineFillPriceOutput :=
  { err := "", element := BadElement.noError.code,
    res :=
      { instructions := (⟨m0.ammIndex, m0.trader, m0.orderHash, fillPriceAndModes.mode0.code⟩,
          ⟨m1.ammIndex, m1.trader, m1.orderHash, fillPriceAndModes.mode1.code⟩),
        orderTypes := (decodeStep0.orderType, decodeStep1.orderType),
        encodedOrders := (decodeStep0.encodedOrder, decodeStep1.encodedOrder),
        fillPrice := fillPriceAndModes.fillPrice } }

/-- `ValidateOrdersAndDetermineFillPrice`: the long order `Data[0]` and the short order `Data[1]`, each decoded and
validated, then the checks of the pair and `determineFillPrice`. -/
def validateOrdersAndDetermineFillPrice (s : Signing) (bibliophile : BibliophileClient)
    (inputStruct : ValidateOrdersAndDetermineFillPriceInput) :
    Except Panic ValidateOrdersAndDetermineFillPriceOutput :=
  if inputStruct.fillAmount ≤ 0 then
    .ok (getValidateOrdersAndDetermineFillPriceErrorOutput errInvalidFillAmount .generic 0)
  else
  match decodeTypeAndEncodedOrder inputStruct.data.1 with
  | .error err => .ok (getValidateOrdersAndDetermineFillPriceErrorOutput err .order0 0)
  | .ok decodeStep0 =>
  match validateOrder s bibliophile decodeStep0.orderType decodeStep0.encodedOrder .long
      inputStruct.fillAmount with
  | .error (.panic p) => .error p
  | .error (.error (err, orderHash)) => .ok (getValidateOrdersAndDetermineFillPriceErrorOutput err .order0 orderHash)
  | .ok m0 =>
  match decodeTypeAndEncodedOrder inputStruct.data.2 with
  | .error err => .ok (getValidateOrdersAndDetermineFillPriceErrorOutput err .order1 0)
  | .ok decodeStep1 =>
  match validateOrder s bibliophile decodeStep1.orderType decodeStep1.encodedOrder .short
      (-inputStruct.fillAmount) with
  | .error (.panic p) => .error p
  | .error (.error (err, orderHash)) => .ok (getValidateOrdersAndDetermineFillPriceErrorOutput err .order1 orderHash)
  | .ok m1 =>
  if m0.ammIndex ≠ m1.ammIndex then
    .ok (getValidateOrdersAndDetermineFillPriceErrorOutput errNotSameAMM .generic 0)
  else if m0.price < m1.price then
    .ok (getValidateOrdersAndDetermineFillPriceErrorOutput errNoMatch .generic 0)
  -- check 11
  else if m0.postOnly ∧ m1.postOnly then
    .ok (getValidateOrdersAndDetermineFillPriceErrorOutput errBothPostOnly .generic 0)
  else
  match bigMod inputStruct.fillAmount (bibliophile.getMinSizeRequirement (toInt64 m0.ammIndex)) with
  | .error p => .error p
  | .ok rem =>
  if rem ≠ 0 then .ok (getValidateOrdersAndDetermineFillPriceErrorOutput errNotMultiple .generic 0)
  else
  match determineFillPrice bibliophile m0 m1 with
  | .error (err, element) =>
    let orderHash := if element = .order0 then m0.orderHash else if element = .order1 then m1.orderHash else 0
    .ok (getValidateOrdersAndDetermineFillPriceErrorOutput err element orderHash)
  | .ok fillPriceAndModes => .ok (matchedOutput decodeStep0 decodeStep1 m0 m1 fillPriceAndModes)

/-- The order a decoded step holds: the decoder of its type tag gives it. -/
def DecodesAs (step : DecodeStep) : ContractOrder → Prop
  | .limit o => step.orderType = OrderType.limit.code ∧ decodeLimitOrder step.encodedOrder = .ok o
  | .ioc o => step.orderType = OrderType.ioc.code ∧ decodeIOCOrder step.encodedOrder = .ok o
  | .signed o => step.orderType = OrderType.signed.code ∧ decodeSignedOrder step.encodedOrder = .ok o

/-- The amount of an order that its handler records as filled, under the order's hash. -/
def filledAmount (s : Signing) (bibliophile : BibliophileClient) : ContractOrder → Except String Int
  | .limit o => (o.hash s.keccak256).map bibliophile.getOrderFilledAmount
  | .ioc o => (o.hash s.keccak256).map bibliophile.iOC_GetOrderFilledAmount
  | .signed o =>
    let s := ensureSigningGlobals s bibliophile.snowChainID
    (o.hash s.chainId s.verifyingContract s.encodeForSigning).map bibliophile.getSignedOrderFilledAmount

section OneOrder

variable {s : Signing} {bibliophile : BibliophileClient} {side : Side} {fillAmount : Int} {m : Metadata}

/-- An accepted limit order passed `validateLimitOrderLike` against its recorded fill, and its metadata carries
its market and price. -/
theorem validateExecuteLimitOrder_eq_ok {order : LimitOrder}
    (h : validateExecuteLimitOrder s bibliophile order side fillAmount = .ok m) :
    ∃ filled status, filledAmount s bibliophile (.limit order) = .ok filled ∧
      validateLimitOrderLike bibliophile order.toBaseOrder filled status side fillAmount = .ok () ∧
      m.ammIndex = order.ammIndex ∧ m.price = order.price := by
  unfold validateExecuteLimitOrder at h
  cases hhash : order.hash s.keccak256 with
  | error err => simp [hhash] at h
  | ok orderHash =>
    simp only [hhash] at h
    split at h
    · cases h
    · rename_i hv
      cases h
      exact ⟨_, _, by simp [filledAmount, hhash, Except.map], hv, rfl, rfl⟩

theorem validateExecuteIOCOrder_eq_ok {order : IOCOrder}
    (h : validateExecuteIOCOrder s bibliophile order side fillAmount = .ok m) :
    ∃ filled status, filledAmount s bibliophile (.ioc order) = .ok filled ∧
      validateLimitOrderLike bibliophile order.toBaseOrder filled status side fillAmount = .ok () ∧
      m.ammIndex = order.ammIndex ∧ m.price = order.price := by
  unfold validateExecuteIOCOrder at h
  cases hhash : order.hash s.keccak256 with
  | error err => simp [hhash] at h
  | ok orderHash =>
    simp only [hhash] at h
    -- the failed checks of the type and the expiry are closed by `split_ifs`
    split_ifs at h with htype hexpired
    split at h
    · cases h
    · rename_i hv
      cases h
      exact ⟨_, _, by simp [filledAmount, hhash, Except.map], hv, rfl, rfl⟩

theorem validateExecuteSignedOrder_eq_ok {order : SignedOrder}
    (h : validateExecuteSignedOrder s bibliophile order side fillAmount = .ok m) :
    ∃ filled status, filledAmount s bibliophile (.signed order) = .ok filled ∧
      validateLimitOrderLike bibliophile order.toBaseOrder filled status side fillAmount = .ok () ∧
      m.ammIndex = order.ammIndex ∧ m.price = order.price := by
  unfold validateExecuteSignedOrder at h
  dsimp only at h
  split at h
  · cases h
  · rename_i orderHash hhash
    split at h
    · cases h
    · cases h
    -- the check of the referrer does not depend on the match before it, so `split_ifs` takes it first
    · split_ifs at h with hauthority hreferrer
      · split at h <;> cases h
      split at h
      · cases h
      · rename_i hv
        cases h
        exact ⟨_, _, by simp [filledAmount, hhash, Except.map], hv, rfl, rfl⟩

/-- An accepted order is one the decoder of its tag gives, accepted by `validateLimitOrderLike` against the fill
its handler records, and its metadata carries its market and price. -/
theorem validateOrder_eq_ok {orderType : Nat} {encodedOrder : Bytes}
    (h : validateOrder s bibliophile orderType encodedOrder side fillAmount = .ok m) :
    ∃ order filled status, DecodesAs ⟨orderType, encodedOrder⟩ order ∧
      filledAmount s bibliophile order = .ok filled ∧
      validateLimitOrderLike bibliophile order.base filled status side fillAmount = .ok () ∧
      m.ammIndex = order.base.ammIndex ∧ m.price = order.base.price := by
  unfold validateOrder at h
  split_ifs at h with hl hi hs
  · cases hdec : decodeLimitOrder encodedOrder with
    | error err => simp [hdec] at h
    | ok order =>
      simp only [hdec, mapError_eq_ok] at h
      obtain ⟨filled, status, hf, hv, ham, hp⟩ := validateExecuteLimitOrder_eq_ok h
      exact ⟨.limit order, filled, status, ⟨hl, hdec⟩, hf, hv, ham, hp⟩
  · cases hdec : decodeIOCOrder encodedOrder with
    | error err => simp [hdec] at h
    | ok order =>
      simp only [hdec, mapError_eq_ok] at h
      obtain ⟨filled, status, hf, hv, ham, hp⟩ := validateExecuteIOCOrder_eq_ok h
      exact ⟨.ioc order, filled, status, ⟨hi, hdec⟩, hf, hv, ham, hp⟩
  · cases hdec : decodeSignedOrder encodedOrder with
    | error err => simp [hdec] at h
    | ok order =>
      simp only [hdec] at h
      obtain ⟨filled, status, hf, hv, ham, hp⟩ := validateExecuteSignedOrder_eq_ok h
      exact ⟨.signed order, filled, status, ⟨hs, hdec⟩, hf, hv, ham, hp⟩

theorem validateExecuteLimitOrder_of_ok {order : LimitOrder} {orderHash : Hash}
    (hhash : order.hash s.keccak256 = .ok orderHash)
    (hv : validateLimitOrderLike bibliophile order.toBaseOrder (bibliophile.getOrderFilledAmount orderHash)
      (orderStatusOf (bibliophile.getOrderStatus orderHash)) side fillAmount = .ok ()) :
    validateExecuteLimitOrder s bibliophile order side fillAmount =
      .ok
        { ammIndex := order.ammIndex, trader := order.trader, baseAssetQuantity := order.baseAssetQuantity,
          blockPlaced := bibliophile.getBlockPlaced orderHash, price := order.price, orderHash := orderHash,
          orderType := .limit, postOnly := order.postOnly } := by
  simp only [validateExecuteLimitOrder, hhash, hv]

theorem validateExecuteIOCOrder_of_ok {order : IOCOrder} {orderHash : Hash}
    (hhash : order.hash s.keccak256 = .ok orderHash) (htype : order.orderType = OrderType.ioc.code)
    (hexpire : bibliophile.getTimeStamp ≤ toUint64 order.expireAt)
    (hv : validateLimitOrderLike bibliophile order.toBaseOrder (bibliophile.iOC_GetOrderFilledAmount orderHash)
      (orderStatusOf (bibliophile.iOC_GetOrderStatus orderHash)) side fillAmount = .ok ()) :
    validateExecuteIOCOrder s bibliophile order side fillAmount =
      .ok
        { ammIndex := order.ammIndex, trader := order.trader, baseAssetQuantity := order.baseAssetQuantity,
          blockPlaced := bibliophile.iOC_GetBlockPlaced orderHash, price := order.price, orderHash := orderHash,
          orderType := .ioc, postOnly := false } := by
  have hexpire' : ¬ toUint64 order.expireAt < bibliophile.getTimeStamp := by omega
  simp only [validateExecuteIOCOrder, hhash, htype, hexpire', hv, ne_eq, not_true_eq_false, if_false]

theorem validateOrder_limit {encodedOrder : Bytes} {order : LimitOrder}
    (hdec : decodeLimitOrder encodedOrder = .ok order) :
    validateOrder s bibliophile OrderType.limit.code encodedOrder side fillAmount =
      (validateExecuteLimitOrder s bibliophile order side fillAmount).mapError .error := by
  simp [validateOrder, hdec, OrderType.code]

theorem validateOrder_ioc {encodedOrder : Bytes} {order : IOCOrder} (hdec : decodeIOCOrder encodedOrder = .ok order) :
    validateOrder s bibliophile OrderType.ioc.code encodedOrder side fillAmount =
      (validateExecuteIOCOrder s bibliophile order side fillAmount).mapError .error := by
  simp [validateOrder, hdec, OrderType.code]

theorem validateOrder_signed {encodedOrder : Bytes} {order : SignedOrder}
    (hdec : decodeSignedOrder encodedOrder = .ok order) :
    validateOrder s bibliophile OrderType.signed.code encodedOrder side fillAmount =
      validateExecuteSignedOrder s bibliophile order side fillAmount := by
  simp [validateOrder, hdec, OrderType.code]

end OneOrder

section Pair

variable {s : Signing} {bibliophile : BibliophileClient} {input : ValidateOrdersAndDetermineFillPriceInput}

/-- An output with `Element = NoError` comes from two orders that decoded and passed their checks, for one market,
crossing, not both post only, with a fill a multiple of the market's minimum size, and an accepted fill price. -/
theorem validateOrdersAndDetermineFillPrice_eq_success {out : ValidateOrdersAndDetermineFillPriceOutput}
    (h : validateOrdersAndDetermineFillPrice s bibliophile input = .ok out)
    (hok : out.element = BadElement.noError.code) :
    0 < input.fillAmount ∧ ∃ decodeStep0 decodeStep1 m0 m1 r,
      decodeTypeAndEncodedOrder input.data.1 = .ok decodeStep0 ∧
      validateOrder s bibliophile decodeStep0.orderType decodeStep0.encodedOrder .long input.fillAmount = .ok m0 ∧
      decodeTypeAndEncodedOrder input.data.2 = .ok decodeStep1 ∧
      validateOrder s bibliophile decodeStep1.orderType decodeStep1.encodedOrder .short (-input.fillAmount) =
        .ok m1 ∧
      m0.ammIndex = m1.ammIndex ∧ m1.price ≤ m0.price ∧ ¬(m0.postOnly ∧ m1.postOnly) ∧
      bigMod input.fillAmount (bibliophile.getMinSizeRequirement (toInt64 m0.ammIndex)) = .ok 0 ∧
      determineFillPrice bibliophile m0 m1 = .ok r ∧ out = matchedOutput decodeStep0 decodeStep1 m0 m1 r := by
  unfold validateOrdersAndDetermineFillPrice at h
  -- every early return is an error output, whose element is not `NoError`
  split_ifs at h with hfill
  · cases h; simp at hok
  split at h
  · cases h; simp at hok
  rename_i decodeStep0 hd0
  split at h
  · cases h
  · cases h; simp at hok
  rename_i m0 hv0
  split at h
  · cases h; simp at hok
  rename_i decodeStep1 hd1
  split at h
  · cases h
  · cases h; simp at hok
  rename_i m1 hv1
  split_ifs at h with hamm hprice hpost
  · cases h; simp at hok
  · cases h; simp at hok
  · cases h; simp at hok
  split at h
  · cases h
  rename_i rem hmod
  split_ifs at h with hrem
  · cases h; simp at hok
  split at h
  · rename_i err element hr
    cases h
    rcases determineFillPrice_error_element hr with rfl | rfl <;> simp at hok
  rename_i r hr
  cases h
  refine ⟨by omega, decodeStep0, decodeStep1, m0, m1, r, hd0, hv0, hd1, hv1, not_not.mp hamm, by omega, hpost,
    ?_, hr, rfl⟩
  rw [hmod, not_not.mp hrem]

/-- The converse: two orders that pass every check give the output of the pair. -/
theorem validateOrdersAndDetermineFillPrice_of_ok {decodeStep0 decodeStep1 : DecodeStep} {m0 m1 : Metadata}
    {r : FillPriceAndModes} (hfill : 0 < input.fillAmount)
    (hd0 : decodeTypeAndEncodedOrder input.data.1 = .ok decodeStep0)
    (hv0 : validateOrder s bibliophile decodeStep0.orderType decodeStep0.encodedOrder .long input.fillAmount =
      .ok m0)
    (hd1 : decodeTypeAndEncodedOrder input.data.2 = .ok decodeStep1)
    (hv1 : validateOrder s bibliophile decodeStep1.orderType decodeStep1.encodedOrder .short (-input.fillAmount) =
      .ok m1)
    (hamm : m0.ammIndex = m1.ammIndex) (hprice : m1.price ≤ m0.price) (hpost : ¬(m0.postOnly ∧ m1.postOnly))
    (hmod : bigMod input.fillAmount (bibliophile.getMinSizeRequirement (toInt64 m0.ammIndex)) = .ok 0)
    (hr : determineFillPrice bibliophile m0 m1 = .ok r) :
    validateOrdersAndDetermineFillPrice s bibliophile input = .ok (matchedOutput decodeStep0 decodeStep1 m0 m1 r) := by
  have hfill' : ¬ input.fillAmount ≤ 0 := by omega
  have hprice' : ¬ m0.price < m1.price := by omega
  rw [hamm] at hmod
  simp only [validateOrdersAndDetermineFillPrice, hfill', hd0, hv0, hd1, hv1, hamm, hprice', hpost, hmod, hr,
    if_false, ne_eq, not_true_eq_false]

end Pair

/-! ## No panic where every divisor is nonzero -/

section NoPanic

variable {s : Signing} {bibliophile : BibliophileClient} {side : Side} {fillAmount : Int}

end NoPanic

/-- What a pair that `ValidateOrdersAndDetermineFillPrice` accepts must satisfy, in the orders the input encodes:
they are for one market, the fill is a multiple of its minimum size, neither order is overfilled, a reduce-only
order does not carry its trader's position past zero, exactly one order is the maker, and the fill price lies
between the short order's price and the long one's and inside the market's bounds. -/
def PairWithinLimits (s : Signing) (bibliophile : BibliophileClient) (input : ValidateOrdersAndDetermineFillPriceInput)
    (out : ValidateOrdersAndDetermineFillPriceOutput) : Prop :=
  ∃ decodeStep0 decodeStep1 long short filledLong filledShort,
    decodeTypeAndEncodedOrder input.data.1 = .ok decodeStep0 ∧ DecodesAs decodeStep0 long ∧
    decodeTypeAndEncodedOrder input.data.2 = .ok decodeStep1 ∧ DecodesAs decodeStep1 short ∧
    filledAmount s bibliophile long = .ok filledLong ∧ filledAmount s bibliophile short = .ok filledShort ∧
    long.base.ammIndex = short.base.ammIndex ∧
    bibliophile.getMinSizeRequirement (toInt64 long.base.ammIndex) ∣ input.fillAmount ∧
    filledLong + input.fillAmount ≤ long.base.baseAssetQuantity ∧
    short.base.baseAssetQuantity ≤ filledShort - input.fillAmount ∧
    (long.base.reduceOnly → traderPosition bibliophile long.base < 0 ∧
      traderPosition bibliophile long.base + input.fillAmount ≤ 0) ∧
    (short.base.reduceOnly → 0 < traderPosition bibliophile short.base ∧
      0 ≤ traderPosition bibliophile short.base - input.fillAmount) ∧
    Xor (out.res.instructions.1.mode = ExecutionMode.maker.code)
      (out.res.instructions.2.mode = ExecutionMode.maker.code) ∧
    max short.base.price (bibliophile.getUpperAndLowerBoundForMarket (toInt64 long.base.ammIndex)).2 ≤
      out.res.fillPrice ∧
    out.res.fillPrice ≤
      min long.base.price (bibliophile.getUpperAndLowerBoundForMarket (toInt64 long.base.ammIndex)).1

/-- Every pair that `ValidateOrdersAndDetermineFillPrice` accepts, in a state whose price bounds are in order, is
within the limits of `PairWithinLimits`. -/
theorem matched_orders_within_limits (s : Signing) (bibliophile : BibliophileClient)
    (input : ValidateOrdersAndDetermineFillPriceInput) (out : ValidateOrdersAndDetermineFillPriceOutput)
    (hbounds : ∀ market, (bibliophile.getUpperAndLowerBoundForMarket market).2 ≤
      (bibliophile.getUpperAndLowerBoundForMarket market).1)
    (h : validateOrdersAndDetermineFillPrice s bibliophile input = .ok out)
    (hok : out.element = BadElement.noError.code) :
    PairWithinLimits s bibliophile input out := by
  obtain ⟨hfill, step0, step1, m0, m1, r, hd0, hv0, hd1, hv1, hamm, hprice, -, hmod, hr, rfl⟩ :=
    validateOrdersAndDetermineFillPrice_eq_success h hok
  obtain ⟨long, filledLong, status0, hdec0, hf0, hl0, ham0, hp0⟩ := validateOrder_eq_ok hv0
  obtain ⟨short, filledShort, status1, hdec1, hf1, hl1, ham1, hp1⟩ := validateOrder_eq_ok hv1
  obtain ⟨-, -, -, hover0, hro0⟩ := validateLimitOrderLike_long hl0
  obtain ⟨-, -, -, hover1, hro1⟩ := validateLimitOrderLike_short hl1
  obtain ⟨-, -, hmodes, -⟩ := determineFillPrice_eq_ok hr
  obtain ⟨hlo, hhi⟩ := determineFillPrice_price_mem hr (hbounds _) hprice
  rw [ham0] at hlo hhi hmod
  rw [hp0] at hhi
  rw [hp1] at hlo
  refine ⟨step0, step1, long, short, filledLong, filledShort, hd0, hdec0, hd1, hdec1, hf0, hf1,
    by rw [← ham0, ← ham1, hamm], dvd_of_bigMod_eq hmod rfl, hover0, by omega, hro0, fun hro => ?_, ?_, hlo, hhi⟩
  · obtain ⟨hpos, hle⟩ := hro1 hro
    exact ⟨hpos, by omega⟩
  · simpa [matchedOutput] using executionModes_one_maker hmodes

/-! ## Orders of one block -/

/-- A state in which every limit and IOC order is placed in block 5 and unfilled, in a market of minimum size 1
with the price bounds `[500, 2000]`. -/
def sameBlockState : BibliophileClient :=
  { (default : BibliophileClient) with
    getBlockPlaced := fun _ => 5, getOrderStatus := fun _ => 1, iOC_GetBlockPlaced := fun _ => 5,
    iOC_GetOrderStatus := fun _ => 1, getMinSizeRequirement := fun _ => 1,
    getUpperAndLowerBoundForMarket := fun _ => (2000, 500) }

/-- A long and a short IOC order of market 0 at price 1000, expiring at time 100. -/
def iocLong : IOCOrder := ⟨⟨0, 1, 10, 1000, 1, false⟩, 1, 100⟩

def iocShort : IOCOrder := ⟨⟨0, 2, -10, 1000, 2, false⟩, 1, 100⟩

/-- A long limit order, post only or not, and a short one, of market 0 at price 1000. -/
def limitLong (postOnly : Bool) : LimitOrder := ⟨⟨0, 1, 10, 1000, 3, false⟩, postOnly⟩

def limitShort : LimitOrder := ⟨⟨0, 2, -10, 1000, 4, false⟩, false⟩

/-- In `sameBlockState`, `limitLong` and `limitShort` are accepted, whatever the signing functions; the orders are
of one block and the short one is not an IOC order, so the long one takes. -/
theorem limitPair_accepted (s : Signing) (postOnly : Bool) :
    ∃ data0 data1 out, (limitLong postOnly).encodeToABI = .ok data0 ∧ limitShort.encodeToABI = .ok data1 ∧
      validateOrdersAndDetermineFillPrice s sameBlockState ⟨(data0, data1), 10⟩ = .ok out ∧
      out.element = BadElement.noError.code ∧ out.res.instructions.1.mode = ExecutionMode.taker.code := by
  have hin0 : (limitLong postOnly).toBaseOrder.InAbiRange := by
    cases postOnly <;> (unfold BaseOrder.InAbiRange; decide)
  have hin1 : limitShort.toBaseOrder.InAbiRange := by unfold BaseOrder.InAbiRange; decide
  obtain ⟨bs0, data0, henc0, hdec0, hdata0, hstep0⟩ := limitOrder_tagged_roundtrip hin0
  obtain ⟨bs1, data1, henc1, hdec1, hdata1, hstep1⟩ := limitOrder_tagged_roundtrip hin1
  have hv0 : validateOrder s sameBlockState OrderType.limit.code bs0 .long 10 =
      .ok ⟨0, 1, 10, 1000, 5, fromBytes (s.keccak256 bs0), .limit, postOnly⟩ := by
    rw [validateOrder_limit hdec0,
      @validateExecuteLimitOrder_of_ok s sameBlockState .long 10 _ _ (LimitOrder.hash_of_encode henc0 _) rfl]
    rfl
  have hv1 : validateOrder s sameBlockState OrderType.limit.code bs1 .short (-10) =
      .ok ⟨0, 2, -10, 1000, 5, fromBytes (s.keccak256 bs1), .limit, false⟩ := by
    rw [validateOrder_limit hdec1,
      @validateExecuteLimitOrder_of_ok s sameBlockState .short (-10) _ _ (LimitOrder.hash_of_encode henc1 _) rfl]
    rfl
  exact ⟨data0, data1, _, hdata0, hdata1,
    @validateOrdersAndDetermineFillPrice_of_ok s sameBlockState ⟨(data0, data1), 10⟩ _ _ _ _ _ (show (0 : Int) < 10 by decide) hstep0
      hv0 hstep1 hv1 rfl (Int.le_refl _) (by simp) (by simp [sameBlockState]) rfl, rfl, rfl⟩

/-- In one block `determineFillPrice` looks only at the short order's type: two IOC orders of one block are
matched, the long one as maker, and a post-only long order against a limit order of its block is the taker. -/
theorem same_block_roles (s : Signing) :
    (∃ data0 data1 out, iocLong.encodeToABI = .ok data0 ∧ iocShort.encodeToABI = .ok data1 ∧
      validateOrdersAndDetermineFillPrice s sameBlockState ⟨(data0, data1), 10⟩ = .ok out ∧
      out.element = BadElement.noError.code ∧ out.res.orderTypes = (OrderType.ioc.code, OrderType.ioc.code) ∧
      out.res.instructions.1.mode = ExecutionMode.maker.code) ∧
    (∃ data0 data1 out, (limitLong true).encodeToABI = .ok data0 ∧ limitShort.encodeToABI = .ok data1 ∧
      validateOrdersAndDetermineFillPrice s sameBlockState ⟨(data0, data1), 10⟩ = .ok out ∧
      out.element = BadElement.noError.code ∧ out.res.instructions.1.mode = ExecutionMode.taker.code) := by
  refine ⟨?_, limitPair_accepted s true⟩
  have hin0 : iocLong.InAbiRange := by unfold IOCOrder.InAbiRange BaseOrder.InAbiRange; decide
  have hin1 : iocShort.InAbiRange := by unfold IOCOrder.InAbiRange BaseOrder.InAbiRange; decide
  obtain ⟨bs0, data0, henc0, hdec0, hdata0, hstep0⟩ := iocOrder_tagged_roundtrip hin0
  obtain ⟨bs1, data1, henc1, hdec1, hdata1, hstep1⟩ := iocOrder_tagged_roundtrip hin1
  have hv0 : validateOrder s sameBlockState OrderType.ioc.code bs0 .long 10 =
      .ok ⟨0, 1, 10, 1000, 5, fromBytes (s.keccak256 bs0), .ioc, false⟩ := by
    rw [validateOrder_ioc hdec0, @validateExecuteIOCOrder_of_ok s sameBlockState .long 10 _ _
      (IOCOrder.hash_of_encode henc0 _) rfl (by decide) rfl]
    rfl
  have hv1 : validateOrder s sameBlockState OrderType.ioc.code bs1 .short (-10) =
      .ok ⟨0, 2, -10, 1000, 5, fromBytes (s.keccak256 bs1), .ioc, false⟩ := by
    rw [validateOrder_ioc hdec1, @validateExecuteIOCOrder_of_ok s sameBlockState .short (-10) _ _
      (IOCOrder.hash_of_encode henc1 _) rfl (by decide) rfl]
    rfl
  exact ⟨data0, data1, _, hdata0, hdata1,
    @validateOrdersAndDetermineFillPrice_of_ok s sameBlockState ⟨(data0, data1), 10⟩ _ _ _ _ _ (show (0 : Int) < 10 by decide) hstep0
      hv0 hstep1 hv1 rfl (Int.le_refl _) (by simp) (by simp [sameBlockState]) rfl, rfl, rfl, rfl⟩

/-- Signing functions that hash everything to `0` and recover no key. -/
def sampleSigning : Signing := ⟨fun _ => [], fun _ _ _ => 0, fun _ _ => .error "no key", 0, ""⟩

theorem matched_orders_within_limits_limitPair :
    ∃ input out, (∀ market, (sameBlockState.getUpperAndLowerBoundForMarket market).2 ≤
        (sameBlockState.getUpperAndLowerBoundForMarket market).1) ∧
      validateOrdersAndDetermineFillPrice sampleSigning sameBlockState input = .ok out ∧
      out.element = BadElement.noError.code ∧ PairWithinLimits sampleSigning sameBlockState input out := by
  obtain ⟨data0, data1, out, -, -, h, hok, -⟩ := limitPair_accepted sampleSigning false
  have hbounds : ∀ market, (sameBlockState.getUpperAndLowerBoundForMarket market).2 ≤
      (sameBlockState.getUpperAndLowerBoundForMarket market).1 := fun _ => show (500 : Int) ≤ 2000 by decide
  exact ⟨_, out, hbounds, h, hok, matched_orders_within_limits sampleSigning sameBlockState _ out hbounds h hok⟩

end JurorV2

end Hubblenet
