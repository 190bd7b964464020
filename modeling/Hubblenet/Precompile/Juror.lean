import Hubblenet.Precompile.JurorV2

/-!
# `juror`: the first matching precompile

The first version of the juror validates limit and IOC orders only. Its `validateOrder` returns a nil metadata
beside the error when an order does not decode or hash, or has another type tag, and its callers then read the
metadata's `OrderHash`: the precompile panics on a nil dereference (`validateOrdersAndDetermineFillPrice`). It also
validates the placement of an IOC order (`validatePlaceIOCorder`), which takes the remainder of the quantity by the
market's minimum size before it looks the market up.

`matching_validation_panics`: three inputs on which validation panics instead of returning an error: a signed order
handed to this juror, an IOC order placed for a market id that names no market, and, in `jurorv2`, a signed order
for such a market id. The last two need a zero divisor: where none is zero, `jurorv2`'s matching and the IOC placement
always return (`validators_return_of_nonzeroDivisors`).
-/

namespace Hubblenet.Juror

open Lib.Abi Go

/-! ## One order -/

/-- `validateExecuteLimitOrder` of `juror`: the metadata returned beside an error is nil (`none`) when hashing
failed. -/
def validateExecuteLimitOrder (s : Signing) (bibliophile : BibliophileClient) (order : LimitOrder) (side : Side)
    (fillAmount : Int) : Except (String × Option Hash) Metadata :=
  match order.hash s.keccak256 with
  | .error err => .error (err, none)
  | .ok orderHash =>
    match validateLimitOrderLike bibliophile order.toBaseOrder (bibliophile.getOrderFilledAmount orderHash)
        (orderStatusOf (bibliophile.getOrderStatus orderHash)) side fillAmount with
    | .error err => .error (err, some orderHash)
    | .ok () =>
      .ok
        { ammIndex := order.ammIndex, trader := order.trader, baseAssetQuantity := order.baseAssetQuantity,
          blockPlaced := bibliophile.getBlockPlaced orderHash, price := order.price, orderHash := orderHash,
          orderType := .limit, postOnly := order.postOnly }

/-- `validateExecuteIOCOrder` of `juror`. -/
def validateExecuteIOCOrder (s : Signing) (bibliophile : BibliophileClient) (order : IOCOrder) (side : Side)
    (fillAmount : Int) : Except (String × Option Hash) Metadata :=
  match order.hash s.keccak256 with
  | .error err => .error (err, none)
  | .ok orderHash =>
    if order.orderType ≠ OrderType.ioc.code then .error ("not ioc order", some orderHash)
    else if toUint64 order.expireAt < bibliophile.getTimeStamp then .error ("ioc expired", some orderHash)
    else
      match validateLimitOrderLike bibliophile order.toBaseOrder (bibliophile.iOC_GetOrderFilledAmount orderHash)
          (orderStatusOf (bibliophile.iOC_GetOrderStatus orderHash)) side fillAmount with
      | .error err => .error (err, some orderHash)
      | .ok () =>
        .ok
          { ammIndex := order.ammIndex, trader := order.trader, baseAssetQuantity := order.baseAssetQuantity,
            blockPlaced := bibliophile.iOC_GetBlockPlaced orderHash, price := order.price, orderHash := orderHash,
            orderType := .ioc, postOnly := false }

/-- `validateOrder` of `juror`: limit and IOC orders; an order that does not decode, or of another type tag, gives
a nil metadata. -/
def validateOrder (s : Signing) (bibliophile : BibliophileClient) (orderType : Nat) (encodedOrder : Bytes)
    (side : Side) (fillAmount : Int) : Except (String × Option Hash) Metadata :=
  if orderType = OrderType.limit.code then
    match decodeLimitOrder encodedOrder with
    | .error err => .error (err, none)
    | .ok order => validateExecuteLimitOrder s bibliophile order side fillAmount
  else if orderType = OrderType.ioc.code then
    match decodeIOCOrder encodedOrder with
    | .error err => .error (err, none)
    | .ok order => validateExecuteIOCOrder s bibliophile order side fillAmount
  else .error ("invalid order type", none)

/-- `m.OrderHash` of the metadata returned beside an error: through a nil pointer it panics. -/
def orderHashOf : Option Hash → Except Panic Hash
  | some orderHash => .ok orderHash
  | none => .error .nilDereference

theorem validateOrder_signed (s : Signing) (bibliophile : BibliophileClient) (encodedOrder : Bytes) (side : Side)
    (fillAmount : Int) :
    validateOrder s bibliophile OrderType.signed.code encodedOrder side fillAmount =
      .error ("invalid order type", none) := by
  simp [validateOrder, OrderType.code]

/-! ## A pair of orders, and a liquidation -/

/-- `ValidateOrdersAndDetermineFillPrice` of `juror`: as in `jurorv2`, without the check that the orders are not
both post only, and reading the hash of a nil metadata. -/
def validateOrdersAndDetermineFillPrice (s : Signing) (bibliophile : BibliophileClient)
    (inputStruct : ValidateOrdersAndDetermineFillPriceInput) :
    Except Panic ValidateOrdersAndDetermineFillPriceOutput :=
  if inputStruct.fillAmount ≤ 0 then
    .ok (getValidateOrdersAndDetermineFillPriceErrorOutput errInvalidFillAmount .generic 0)
  else
  match decodeTypeAndEncodedOrder inputStruct.data.1 with
  | .error err => .ok (getValidateOrdersAndDetermineFillPriceErrorOutput err .order0 0)
  | .ok decodeStep0 =>
  match validateOrder s bibliophile decodeStep0.orderType decodeStep0.encodedOrder .long
      inputStruct.fillAmount with
  | .error (err, m0) => (orderHashOf m0).map (getValidateOrdersAndDetermineFillPriceErrorOutput err .order0)
  | .ok m0 =>
  match decodeTypeAndEncodedOrder inputStruct.data.2 with
  | .error err => .ok (getValidateOrdersAndDetermineFillPriceErrorOutput err .order1 0)
  | .ok decodeStep1 =>
  match validateOrder s bibliophile decodeStep1.orderType decodeStep1.encodedOrder .short
      (-inputStruct.fillAmount) with
  | .error (err, m1) => (orderHashOf m1).map (getValidateOrdersAndDetermineFillPriceErrorOutput err .order1)
  | .ok m1 =>
  if m0.ammIndex ≠ m1.ammIndex then
    .ok (getValidateOrdersAndDetermineFillPriceErrorOutput errNotSameAMM .generic 0)
  else if m0.price < m1.price then
    .ok (getValidateOrdersAndDetermineFillPriceErrorOutput errNoMatch .generic 0)
  else
  match bigMod inputStruct.fillAmount (bibliophile.getMinSizeRequirement (toInt64 m0.ammIndex)) with
  | .error p => .error p
  | .ok rem =>
  if rem ≠ 0 then .ok (getValidateOrdersAndDetermineFillPriceErrorOutput errNotMultiple .generic 0)
  else
  match determineFillPrice bibliophile m0 m1 with
  | .error (err, element) =>
    let orderHash := if element = .order0 then m0.orderHash else if element = .order1 then m1.orderHash else 0
    .ok (getValidateOrdersAndDetermineFillPriceErrorOutput err element orderHash)
  | .ok fillPriceAndModes => .ok (JurorV2.matchedOutput decodeStep0 decodeStep1 m0 m1 fillPriceAndModes)

def errNotIOCOrder : String := "not_ioc_order"
def errInvalidPrice : String := "invalid price"
def errPricePrecision : String := "invalid price precision"
def errInvalidMarket : String := "invalid market"
def errReduceOnlyBaseAssetQuantityInvalid : String := "reduce only order must reduce position"
def errNetReduceOnlyAmountExceeded : String := "net reduce only amount exceeded"
def errNoTradingAuthority : String := "no trading authority"

/-- `reducesPosition`: an order of the opposite side that does not carry the position past zero. -/
def reducesPosition (positionSize baseAssetQuantity : Int) : Bool :=
  (0 < positionSize ∧ baseAssetQuantity < 0 ∧ 0 ≤ positionSize + baseAssetQuantity) ||
    (positionSize < 0 ∧ 0 < baseAssetQuantity ∧ positionSize + baseAssetQuantity ≤ 0)

/-- `ValidatePlaceIOCOrderInput`; the ABI struct `IImmediateOrCancelOrdersOrder` has the fields of `hu.IOCOrder`,
which `IImmediateOrCancelOrdersOrderToIOCOrder` copies one by one. -/
structure ValidatePlaceIOCOrderInput where
  order : IOCOrder
  sender : Address
  deriving DecidableEq, Repr

structure ValidatePlaceIOCOrderOutput where
  err : String
  orderHash : Hash
  deriving DecidableEq, Repr

/-- `ValidatePlaceIOCorder`: the checks an IOC order must pass to be placed, in the source's order. The expiry cap
is added to the block's time in `uint64`. -/
def validatePlaceIOCorder (s : Signing) (bibliophile : BibliophileClient) (inputStruct : ValidatePlaceIOCOrderInput) :
    Except Panic ValidatePlaceIOCOrderOutput :=
  let order := inputStruct.order
  let trader := order.trader
  match order.hash s.keccak256 with
  | .error err => .ok ⟨err, 0⟩
  | .ok orderHash =>
  let fail (err : String) : Except Panic ValidatePlaceIOCOrderOutput := .ok ⟨err, orderHash⟩
  if trader ≠ inputStruct.sender ∧ !bibliophile.isTradingAuthority trader inputStruct.sender then
    fail errNoTradingAuthority
  else if order.baseAssetQuantity = 0 then fail errInvalidFillAmount
  else if order.orderType ≠ OrderType.ioc.code then fail errNotIOCOrder
  else
  let blockTimestamp := bibliophile.getTimeStamp
  let expireWithin := (blockTimestamp + toUint64 bibliophile.iOC_GetExpirationCap) % 2 ^ 64
  if toUint64 order.expireAt < blockTimestamp then fail "ioc expired"
  else if expireWithin < toUint64 order.expireAt then fail "ioc expiration too far"
  else
  match bigMod order.baseAssetQuantity (bibliophile.getMinSizeRequirement (toInt64 order.ammIndex)) with
  | .error p => .error p
  | .ok rem =>
  if rem ≠ 0 then fail errNotMultiple
  else if orderStatusOf (bibliophile.iOC_GetOrderStatus orderHash) ≠ OrderStatus.invalid.code then
    fail errInvalidOrder
  else if !bibliophile.hasReferrer order.trader then fail errNoReferrer
  else
  let ammAddress := bibliophile.getMarketAddressFromMarketID (toInt64 order.ammIndex)
  if ammAddress = 0 then fail errInvalidMarket
  else
  -- the position and the reduce-only amount are read for a reduce-only order only
  let posSize := bibliophile.getSize ammAddress trader
  if order.reduceOnly ∧ !reducesPosition posSize order.baseAssetQuantity then
    fail errReduceOnlyBaseAssetQuantityInvalid
  else if order.reduceOnly ∧
      posSize.natAbs < (bibliophile.getReduceOnlyAmount trader order.ammIndex + order.baseAssetQuantity).natAbs then
    fail errNetReduceOnlyAmountExceeded
  else if order.price ≤ 0 then fail errInvalidPrice
  else
  match bigMod order.price (bibliophile.getPriceMultiplier ammAddress) with
  | .error p => .error p
  | .ok rem => if rem ≠ 0 then fail errPricePrecision else .ok ⟨"", orderHash⟩

/-- A signed order of market 7, post only, for 10 at price 1000, expiring at time 0. -/
def signedForMarket7 : SignedOrder := ⟨⟨⟨7, 1, 10, 1000, 5, false⟩, true⟩, 2, 0, List.replicate 65 27⟩

/-- An IOC order of market 7 for 10 at price 1000, expiring at time 0. -/
def iocForMarket7 : IOCOrder := ⟨⟨7, 1, 10, 1000, 6, false⟩, 1, 0⟩

/-- Signing functions with the globals of mainnet. -/
def mainnetSigning (keccak256 : Bytes → Bytes) (encodeForSigning : Int → String → SignedOrder → Hash)
    (ecrecover : Bytes → Bytes → Except String Bytes) : Signing :=
  ⟨keccak256, encodeForSigning, ecrecover, 1992, "0x211682829664a5e289885DE21897B094eF289d18"⟩

/-- Validation panics on untrusted input, in an empty state (no market, every minimum size zero): `juror` reads
the hash of the nil metadata it returns for a signed order, whatever the state and the other order; placing an IOC
order for market 7 and, in `jurorv2`, validating a signed order for market 7 take a remainder by the minimum size
`0` before they look at the market. -/
theorem matching_validation_panics :
    (∃ data, signedForMarket7.encodeToABI = .ok data ∧
      ∀ (s : Signing) (bibliophile : BibliophileClient) (data1 : Bytes) (n : Nat),
        validateOrdersAndDetermineFillPrice s bibliophile ⟨(data, data1), n + 1⟩ = .error .nilDereference) ∧
    (∀ s : Signing, validatePlaceIOCorder s default ⟨iocForMarket7, iocForMarket7.trader⟩ =
      .error .divisionByZero) ∧
    (∃ data, signedForMarket7.encodeToABI = .ok data ∧
      ∀ keccak256 encodeForSigning ecrecover (data1 : Bytes) (n : Nat),
        JurorV2.validateOrdersAndDetermineFillPrice (mainnetSigning keccak256 encodeForSigning ecrecover) default
          ⟨(data, data1), n + 1⟩ = .error .divisionByZero) := by
  have hsigned : signedForMarket7.InAbiRange := by
    unfold SignedOrder.InAbiRange BaseOrder.InAbiRange; decide
  obtain ⟨bs, data, -, hdec, hdata, hstep⟩ := signedOrder_tagged_roundtrip hsigned
  refine ⟨⟨data, hdata, fun s bibliophile data1 n => ?_⟩, fun s => ?_, ⟨data, hdata, fun k e r data1 n => ?_⟩⟩
  · have hfill : ¬ ((n : Int) + 1 ≤ 0) := by omega
    simp only [validateOrdersAndDetermineFillPrice, hfill, if_false, hstep, validateOrder_signed, orderHashOf,
      Except.map]
  · have hioc : iocForMarket7.InAbiRange := by unfold IOCOrder.InAbiRange BaseOrder.InAbiRange; decide
    obtain ⟨bs', henc', -, -⟩ := iocOrder_roundtrip hioc
    simp only [validatePlaceIOCorder, IOCOrder.hash_of_encode henc']
    rfl
  · have hfill : ¬ ((n : Int) + 1 ≤ 0) := by omega
    -- the globals are set, so the order hashes; the remainder by the minimum size `0` panics
    have hglobals : JurorV2.ensureSigningGlobals (mainnetSigning k e r) (default : BibliophileClient).snowChainID =
        mainnetSigning k e r := by
      simp [JurorV2.ensureSigningGlobals, mainnetSigning]
    have hexec : JurorV2.validateExecuteSignedOrder (mainnetSigning k e r) default signedForMarket7 .long (n + 1) =
        .error (.panic .divisionByZero) := by
      simp only [JurorV2.validateExecuteSignedOrder, hglobals]
      simp [SignedOrder.hash, mainnetSigning, validateSignedOrder, signedForMarket7, bind, Except.bind,
        Except.mapError, OrderType.code, toUint64, pure, Except.pure]
      rfl
    simp only [JurorV2.validateOrdersAndDetermineFillPrice, hfill, if_false, hstep, JurorV2.validateOrder_signed hdec,
      hexec]

end Hubblenet.Juror
