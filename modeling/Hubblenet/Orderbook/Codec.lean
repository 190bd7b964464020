import Hubblenet.Lib.Abi
import Hubblenet.Lib.Json
import Hubblenet.Orderbook.Types

/-!
# The wire formats of orders

`hubbleutils` encodes each order struct as the ABI tuple of `getOrderType` (`EncodeToABIWithoutType`), and
prefixes the type tag, `0` limit, `1` IOC, `2` signed, as `(uint8, bytes)` (`EncodeToABI`). A decoder unpacks the
tuple into an anonymous struct whose JSON tags are the tuple's field names, marshals it to JSON and unmarshals
that into the order struct (`DecodeFromRawOrder`). The hash of a limit or IOC order is the Keccak-256 of its
encoding without the tag; that of a signed order the EIP-712 hash of its typed data.

`order_wire_formats_roundtrip`: every order whose fields are in the ranges of their ABI types decodes back to
itself, and the tagged encoding decodes to its tag and the untagged encoding.
-/

namespace Hubblenet

open Lib.Abi Lib.Json

/-- `getOrderType`: the ABI tuple of each order struct. -/
def getOrderType : String → Except String (List (String × WordType))
  | "limit" =>
    .ok [("ammIndex", .uint 256), ("trader", .address), ("baseAssetQuantity", .int 256), ("price", .uint 256),
      ("salt", .uint 256), ("reduceOnly", .bool), ("postOnly", .bool)]
  | "ioc" =>
    .ok [("orderType", .uint 8), ("expireAt", .uint 256), ("ammIndex", .uint 256), ("trader", .address),
      ("baseAssetQuantity", .int 256), ("price", .uint 256), ("salt", .uint 256), ("reduceOnly", .bool)]
  | "signed" =>
    .ok [("orderType", .uint 8), ("expireAt", .uint 256), ("ammIndex", .uint 256), ("trader", .address),
      ("baseAssetQuantity", .int 256), ("price", .uint 256), ("salt", .uint 256), ("reduceOnly", .bool),
      ("postOnly", .bool)]
  | _ => .error "invalid order type"

/-! ## Encoding -/

/-- The fields of a `hu.LimitOrder` in the order of its tuple: `Pack` finds each by the capitalised tuple name. -/
def LimitOrder.abiFields (o : LimitOrder) : List WordValue :=
  [.num o.ammIndex, .address o.trader, .num o.baseAssetQuantity, .num o.price, .num o.salt, .bool o.reduceOnly,
    .bool o.postOnly]

def IOCOrder.abiFields (o : IOCOrder) : List WordValue :=
  [.num o.orderType, .num o.expireAt, .num o.ammIndex, .address o.trader, .num o.baseAssetQuantity, .num o.price,
    .num o.salt, .bool o.reduceOnly]

def SignedOrder.abiFields (o : SignedOrder) : List WordValue :=
  [.num o.orderType, .num o.expireAt, .num o.ammIndex, .address o.trader, .num o.baseAssetQuantity, .num o.price,
    .num o.salt, .bool o.reduceOnly, .bool o.postOnly]

/-- `LimitOrder.EncodeToABIWithoutType`. -/
def LimitOrder.encodeToABIWithoutType (order : LimitOrder) : Except String Bytes := do
  let limitOrderType ← getOrderType "limit"
  packArgs [.tuple limitOrderType] [.tuple order.abiFields]

/-- `IOCOrder.EncodeToABIWithoutType`. -/
def IOCOrder.encodeToABIWithoutType (order : IOCOrder) : Except String Bytes := do
  let iocOrderType ← getOrderType "ioc"
  packArgs [.tuple iocOrderType] [.tuple order.abiFields]

/-- `SignedOrder.EncodeToABIWithoutType`: the tuple and the signature. -/
def SignedOrder.encodeToABIWithoutType (order : SignedOrder) : Except String Bytes := do
  let signedOrderType ← getOrderType "signed"
  packArgs [.tuple signedOrderType, .bytes] [.tuple order.abiFields, .bytes order.sig]

/-- The body of the `EncodeToABI` methods: the type tag, then the encoding without it, as `(uint8, bytes)`. -/
def encodeWithType (tag : Nat) (packingFailed : String) (encoded : Except String Bytes) : Except String Bytes := do
  let encodedOrder ← encoded.mapError (packingFailed ++ ·)
  (packArgs [.word (.uint 8), .bytes] [.word (.num tag), .bytes encodedOrder]).mapError ("order encoding failed: " ++ ·)

/-- `LimitOrder.EncodeToABI`. -/
def LimitOrder.encodeToABI (order : LimitOrder) : Except String Bytes :=
  encodeWithType 0 "limit order packing failed: " order.encodeToABIWithoutType

/-- `IOCOrder.EncodeToABI`. -/
def IOCOrder.encodeToABI (order : IOCOrder) : Except String Bytes :=
  encodeWithType 1 "limit order packing failed: " order.encodeToABIWithoutType

/-- `SignedOrder.EncodeToABI`. -/
def SignedOrder.encodeToABI (order : SignedOrder) : Except String Bytes :=
  encodeWithType 2 "failed getting abi type: " order.encodeToABIWithoutType

/-! ## Decoding -/

/-- `json.Marshal` of a value of the struct type a JSON tag, such as `Unpack` gives for a tuple. -/
def jsonOfWord : WordValue → JsonValue
  | .num x => .number x
  | .address a => .string (marshalText 20 a)
  | .bool b => .bool b

/-- `json.Marshal` of the struct `Unpack` gives for a tuple: its fields under the tuple's names. -/
def marshalTuple (elems : List (String × WordType)) (vs : List WordValue) : JsonObject :=
  List.zipWith (fun e v => (e.1, jsonOfWord v)) elems vs

/-- One member of a JSON object decoded into a `hu.BaseOrder`, by the tags of its fields. -/
def BaseOrder.setField (o : BaseOrder) : String → JsonValue → BaseOrder
  | "ammIndex", v => { o with ammIndex := v.asBigInt.getD o.ammIndex }
  | "trader", v => { o with trader := (unmarshalFixedText 20 v).getD o.trader }
  | "baseAssetQuantity", v => { o with baseAssetQuantity := v.asBigInt.getD o.baseAssetQuantity }
  | "price", v => { o with price := v.asBigInt.getD o.price }
  | "salt", v => { o with salt := v.asBigInt.getD o.salt }
  | "reduceOnly", v => { o with reduceOnly := v.asBool.getD o.reduceOnly }
  | _, _ => o

/-- One member decoded into a `hu.LimitOrder`: its own field, or one of the embedded `BaseOrder`. -/
def LimitOrder.setField (o : LimitOrder) : String → JsonValue → LimitOrder
  | "postOnly", v => { o with postOnly := v.asBool.getD o.postOnly }
  | key, v => { o with toBaseOrder := o.toBaseOrder.setField key v }

def IOCOrder.setField (o : IOCOrder) : String → JsonValue → IOCOrder
  | "orderType", v => { o with orderType := v.asUint8.getD o.orderType }
  | "expireAt", v => { o with expireAt := v.asBigInt.getD o.expireAt }
  | key, v => { o with toBaseOrder := o.toBaseOrder.setField key v }

def SignedOrder.setField (o : SignedOrder) : String → JsonValue → SignedOrder
  | "orderType", v => { o with orderType := v.asUint8.getD o.orderType }
  | "expireAt", v => { o with expireAt := v.asBigInt.getD o.expireAt }
  | key, v => { o with toLimitOrder := o.toLimitOrder.setField key v }

/-- `LimitOrder.DecodeFromRawOrder`: the raw order through JSON into the order. -/
def LimitOrder.decodeFromRawOrder (order : LimitOrder) (rawOrder : JsonObject) : LimitOrder :=
  unmarshalInto LimitOrder.setField rawOrder order

def IOCOrder.decodeFromRawOrder (order : IOCOrder) (rawOrder : JsonObject) : IOCOrder :=
  unmarshalInto IOCOrder.setField rawOrder order

def SignedOrder.decodeFromRawOrder (order : SignedOrder) (rawOrder : JsonObject) : SignedOrder :=
  unmarshalInto SignedOrder.setField rawOrder order

/-- `DecodeLimitOrder`. -/
def decodeLimitOrder (encodedOrder : Bytes) : Except String LimitOrder := do
  let limitOrderType ← (getOrderType "limit").mapError ("failed getting abi type: " ++ ·)
  let order ← unpack [.tuple limitOrderType] encodedOrder
  -- `Unpack` of one tuple argument gives one tuple
  match order with
  | [.tuple vs] => pure ((default : LimitOrder).decodeFromRawOrder (marshalTuple limitOrderType vs))
  | _ => pure default

/-- `DecodeIOCOrder`. -/
def decodeIOCOrder (encodedOrder : Bytes) : Except String IOCOrder := do
  let iocOrderType ← (getOrderType "ioc").mapError ("failed getting abi type: " ++ ·)
  let order ← unpack [.tuple iocOrderType] encodedOrder
  match order with
  | [.tuple vs] => pure ((default : IOCOrder).decodeFromRawOrder (marshalTuple iocOrderType vs))
  | _ => pure default

/-- `DecodeSignedOrder`: the signature from the `bytes`, the rest through JSON. -/
def decodeSignedOrder (encodedOrder : Bytes) : Except String SignedOrder := do
  let signedOrderType ← (getOrderType "signed").mapError ("failed getting abi type: " ++ ·)
  let decodedValues ← unpack [.tuple signedOrderType, .bytes] encodedOrder
  match decodedValues with
  | [.tuple vs, .bytes sig] =>
    pure ({ (default : SignedOrder) with sig := sig }.decodeFromRawOrder (marshalTuple signedOrderType vs))
  | _ => pure default

/-- `hu.DecodeStep`. -/
structure DecodeStep where
  orderType : Nat
  encodedOrder : Bytes
  deriving DecidableEq, Repr

/-- `DecodeTypeAndEncodedOrder`. -/
def decodeTypeAndEncodedOrder (data : Bytes) : Except String DecodeStep := do
  let decodedValues ← unpack [.word (.uint 8), .bytes] data
  -- `Unpack` of `(uint8, bytes)` gives a `uint8` and a `[]byte`
  match decodedValues with
  | [.word (.num orderType), .bytes encodedOrder] => pure ⟨orderType.toNat, encodedOrder⟩
  | _ => pure ⟨0, []⟩

/-! ## Hashes -/

/-- `LimitOrder.Hash`, with `keccak256` for `crypto.Keccak256`. -/
def LimitOrder.hash (keccak256 : Bytes → Bytes) (order : LimitOrder) : Except String Hash := do
  let data ← order.encodeToABIWithoutType
  pure (fromBytes (keccak256 data))

/-- `IOCOrder.Hash`. -/
def IOCOrder.hash (keccak256 : Bytes → Bytes) (order : IOCOrder) : Except String Hash := do
  let data ← order.encodeToABIWithoutType
  pure (fromBytes (keccak256 data))

/-- `SignedOrder.Hash`: refused while the globals `ChainId` and `VerifyingContract` are unset; otherwise the
EIP-712 hash `encodeForSigning` of the order's typed data in the domain they name. -/
def SignedOrder.hash (chainId : Int) (verifyingContract : String)
    (encodeForSigning : Int → String → SignedOrder → Hash) (o : SignedOrder) : Except String Hash :=
  if verifyingContract = "" ∨ chainId = 0 then .error "ChainId or VerifyingContract not set"
  else .ok (encodeForSigning chainId verifyingContract o)

theorem LimitOrder.hash_of_encode {order : LimitOrder} {data : Bytes}
    (h : order.encodeToABIWithoutType = .ok data) (keccak256 : Bytes → Bytes) :
    order.hash keccak256 = .ok (fromBytes (keccak256 data)) := by
  simp only [LimitOrder.hash, h, bind, Except.bind, pure, Except.pure]

theorem IOCOrder.hash_of_encode {order : IOCOrder} {data : Bytes}
    (h : order.encodeToABIWithoutType = .ok data) (keccak256 : Bytes → Bytes) :
    order.hash keccak256 = .ok (fromBytes (keccak256 data)) := by
  simp only [IOCOrder.hash, h, bind, Except.bind, pure, Except.pure]

/-! ## Round trips -/

/-- A `hu.BaseOrder` whose fields are in the ranges of their ABI types. -/
def BaseOrder.InAbiRange (o : BaseOrder) : Prop :=
  0 ≤ o.ammIndex ∧ o.ammIndex < 2 ^ 256 ∧ o.trader < 2 ^ 160 ∧ -2 ^ 255 ≤ o.baseAssetQuantity ∧
    o.baseAssetQuantity < 2 ^ 255 ∧ 0 ≤ o.price ∧ o.price < 2 ^ 256 ∧ 0 ≤ o.salt ∧ o.salt < 2 ^ 256

/-- An IOC order in range: its base fields, a `uint8` type and a `uint256` expiry. -/
def IOCOrder.InAbiRange (o : IOCOrder) : Prop :=
  o.toBaseOrder.InAbiRange ∧ o.orderType < 256 ∧ 0 ≤ o.expireAt ∧ o.expireAt < 2 ^ 256

/-- A signed order in range, with a signature shorter than `2 ^ 61` bytes (any slice a node can hold). -/
def SignedOrder.InAbiRange (o : SignedOrder) : Prop :=
  o.toBaseOrder.InAbiRange ∧ o.orderType < 256 ∧ 0 ≤ o.expireAt ∧ o.expireAt < 2 ^ 256 ∧ o.sig.length < 2 ^ 61

/-- The tagged encoding of bytes decodes to the tag and the bytes. -/
theorem decodeTypeAndEncodedOrder_encodeWithType {tag : Nat} (htag : tag < 256) (packingFailed : String)
    {bs : Bytes} (hbs : bs.length < 2 ^ 62) :
    (encodeWithType tag packingFailed (.ok bs) >>= decodeTypeAndEncodedOrder) = .ok ⟨tag, bs⟩ := by
  have hfit : List.Forall₂ ArgType.Fits [.word (.uint 8), .bytes] [.word (.num tag), .bytes bs] := by
    refine .cons ⟨by decide, by omega, by omega⟩ (.cons trivial .nil)
  obtain ⟨data, hdata, hlen⟩ := packArgs_ok hfit
  have hsmall : data.length < 2 ^ 63 := by
    simp only [hlen, List.map_cons, List.map_nil, List.sum_cons, List.sum_nil, ArgType.getTypeSize,
      ArgValue.tailLength, length_packBytesSlice]
    omega
  have hunpack := unpack_packArgs hfit hdata hsmall
  simp [encodeWithType, Except.mapError, hdata, bind, Except.bind, decodeTypeAndEncodedOrder, hunpack, pure,
    Except.pure]

theorem limitOrder_fits {o : LimitOrder} (h : o.toBaseOrder.InAbiRange) :
    List.Forall₂ (fun (e : String × WordType) v => e.2.Fits v)
      [("ammIndex", .uint 256), ("trader", .address), ("baseAssetQuantity", .int 256), ("price", .uint 256),
        ("salt", .uint 256), ("reduceOnly", .bool), ("postOnly", .bool)] o.abiFields := by
  obtain ⟨h1, h2, h3, h4, h5, h6, h7, h8, h9⟩ := h
  simp only [LimitOrder.abiFields, List.forall₂_cons, WordType.Fits, List.Forall₂.nil, and_true, Nat.reduceSub]
  exact ⟨⟨le_refl _, h1, h2⟩, h3, ⟨by decide, le_refl _, h4, h5⟩, ⟨le_refl _, h6, h7⟩, le_refl _, h8, h9⟩

/-- A limit order in range decodes back to itself. -/
theorem limitOrder_roundtrip {o : LimitOrder} (h : o.toBaseOrder.InAbiRange) :
    ∃ bs, o.encodeToABIWithoutType = .ok bs ∧ decodeLimitOrder bs = .ok o ∧ bs.length < 2 ^ 62 := by
  have hfit : List.Forall₂ ArgType.Fits [.tuple _] [.tuple o.abiFields] :=
    .cons ⟨List.cons_ne_nil _ _, limitOrder_fits h⟩ .nil
  obtain ⟨data, hdata, hlen⟩ := packArgs_ok hfit
  have hsmall : data.length < 2 ^ 62 := by
    simp [hlen, ArgType.getTypeSize, ArgValue.tailLength]
  have hunpack := unpack_packArgs hfit hdata (by omega)
  refine ⟨data, by simp [LimitOrder.encodeToABIWithoutType, getOrderType, bind, Except.bind, hdata], ?_, hsmall⟩
  obtain ⟨h1, h2, h3, -⟩ := h
  simp [decodeLimitOrder, getOrderType, Except.mapError, bind, Except.bind, hunpack, pure, Except.pure,
    LimitOrder.decodeFromRawOrder, marshalTuple, LimitOrder.abiFields, jsonOfWord, LimitOrder.setField,
    BaseOrder.setField, JsonValue.asBigInt, JsonValue.asBool,
    unmarshalFixedText_marshalText_of_lt (show o.trader < 256 ^ 20 from h3)]

theorem iocOrder_fits {o : IOCOrder} (h : o.InAbiRange) :
    List.Forall₂ (fun (e : String × WordType) v => e.2.Fits v)
      [("orderType", .uint 8), ("expireAt", .uint 256), ("ammIndex", .uint 256), ("trader", .address),
        ("baseAssetQuantity", .int 256), ("price", .uint 256), ("salt", .uint 256), ("reduceOnly", .bool)]
      o.abiFields := by
  obtain ⟨⟨h1, h2, h3, h4, h5, h6, h7, h8, h9⟩, ht, he₁, he₂⟩ := h
  simp only [IOCOrder.abiFields, List.forall₂_cons, WordType.Fits, List.Forall₂.nil, and_true, Nat.reduceSub]
  exact ⟨⟨by decide, by omega, by omega⟩, ⟨le_refl _, he₁, he₂⟩, ⟨le_refl _, h1, h2⟩, h3,
    ⟨by decide, le_refl _, h4, h5⟩, ⟨le_refl _, h6, h7⟩, le_refl _, h8, h9⟩

/-- An IOC order in range decodes back to itself. -/
theorem iocOrder_roundtrip {o : IOCOrder} (h : o.InAbiRange) :
    ∃ bs, o.encodeToABIWithoutType = .ok bs ∧ decodeIOCOrder bs = .ok o ∧ bs.length < 2 ^ 62 := by
  have hfit : List.Forall₂ ArgType.Fits [.tuple _] [.tuple o.abiFields] :=
    .cons ⟨List.cons_ne_nil _ _, iocOrder_fits h⟩ .nil
  obtain ⟨data, hdata, hlen⟩ := packArgs_ok hfit
  have hsmall : data.length < 2 ^ 62 := by
    simp [hlen, ArgType.getTypeSize, ArgValue.tailLength]
  have hunpack := unpack_packArgs hfit hdata (by omega)
  refine ⟨data, by simp [IOCOrder.encodeToABIWithoutType, getOrderType, bind, Except.bind, hdata], ?_, hsmall⟩
  obtain ⟨⟨-, -, h3, -⟩, ht, -⟩ := h
  have ht' : (o.orderType : Int) < 256 := by omega
  simp [decodeIOCOrder, getOrderType, Except.mapError, bind, Except.bind, hunpack, pure, Except.pure,
    IOCOrder.decodeFromRawOrder, marshalTuple, IOCOrder.abiFields, jsonOfWord, IOCOrder.setField,
    BaseOrder.setField, JsonValue.asBigInt, JsonValue.asBool, JsonValue.asUint8, ht',
    unmarshalFixedText_marshalText_of_lt (show o.trader < 256 ^ 20 from h3)]

theorem signedOrder_fits {o : SignedOrder} (h : o.InAbiRange) :
    List.Forall₂ (fun (e : String × WordType) v => e.2.Fits v)
      [("orderType", .uint 8), ("expireAt", .uint 256), ("ammIndex", .uint 256), ("trader", .address),
        ("baseAssetQuantity", .int 256), ("price", .uint 256), ("salt", .uint 256), ("reduceOnly", .bool),
        ("postOnly", .bool)]
      o.abiFields := by
  obtain ⟨⟨h1, h2, h3, h4, h5, h6, h7, h8, h9⟩, ht, he₁, he₂, -⟩ := h
  simp only [SignedOrder.abiFields, List.forall₂_cons, WordType.Fits, List.Forall₂.nil, and_true, Nat.reduceSub]
  exact ⟨⟨by decide, by omega, by omega⟩, ⟨le_refl _, he₁, he₂⟩, ⟨le_refl _, h1, h2⟩, h3,
    ⟨by decide, le_refl _, h4, h5⟩, ⟨le_refl _, h6, h7⟩, le_refl _, h8, h9⟩

/-- A signed order in range decodes back to itself, its signature included. -/
theorem signedOrder_roundtrip {o : SignedOrder} (h : o.InAbiRange) :
    ∃ bs, o.encodeToABIWithoutType = .ok bs ∧ decodeSignedOrder bs = .ok o ∧ bs.length < 2 ^ 62 := by
  have hfit : List.Forall₂ ArgType.Fits [.tuple _, .bytes] [.tuple o.abiFields, .bytes o.sig] :=
    .cons ⟨List.cons_ne_nil _ _, signedOrder_fits h⟩ (.cons trivial .nil)
  obtain ⟨data, hdata, hlen⟩ := packArgs_ok hfit
  have hsig := h.2.2.2.2
  have hsmall : data.length < 2 ^ 62 := by
    simp only [hlen, List.map_cons, List.map_nil, List.sum_cons, List.sum_nil, ArgType.getTypeSize,
      ArgValue.tailLength, length_packBytesSlice, List.length_cons, List.length_nil]
    omega
  have hunpack := unpack_packArgs hfit hdata (by omega)
  refine ⟨data, by simp [SignedOrder.encodeToABIWithoutType, getOrderType, bind, Except.bind, hdata], ?_, hsmall⟩
  obtain ⟨⟨-, -, h3, -⟩, ht, -⟩ := h
  have ht' : (o.orderType : Int) < 256 := by omega
  simp [decodeSignedOrder, getOrderType, Except.mapError, bind, Except.bind, hunpack, pure, Except.pure,
    SignedOrder.decodeFromRawOrder, marshalTuple, SignedOrder.abiFields, jsonOfWord, SignedOrder.setField,
    LimitOrder.setField, BaseOrder.setField, JsonValue.asBigInt, JsonValue.asBool, JsonValue.asUint8, ht',
    unmarshalFixedText_marshalText_of_lt (show o.trader < 256 ^ 20 from h3)]

/-- The tagged encoding of a limit order in range decodes to tag `0` and the untagged encoding, which decodes
back to the order. -/
theorem limitOrder_tagged_roundtrip {o : LimitOrder} (h : o.toBaseOrder.InAbiRange) :
    ∃ bs data, o.encodeToABIWithoutType = .ok bs ∧ decodeLimitOrder bs = .ok o ∧ o.encodeToABI = .ok data ∧
      decodeTypeAndEncodedOrder data = .ok ⟨OrderType.limit.code, bs⟩ := by
  obtain ⟨bs, henc, hdec, hlen⟩ := limitOrder_roundtrip h
  have htagged := decodeTypeAndEncodedOrder_encodeWithType (show 0 < 256 by decide) "limit order packing failed: " hlen
  rw [← henc, ← LimitOrder.encodeToABI] at htagged
  obtain ⟨data, hdata, hstep⟩ := bind_eq_ok.mp htagged
  exact ⟨bs, data, henc, hdec, hdata, hstep⟩

theorem iocOrder_tagged_roundtrip {o : IOCOrder} (h : o.InAbiRange) :
    ∃ bs data, o.encodeToABIWithoutType = .ok bs ∧ decodeIOCOrder bs = .ok o ∧ o.encodeToABI = .ok data ∧
      decodeTypeAndEncodedOrder data = .ok ⟨OrderType.ioc.code, bs⟩ := by
  obtain ⟨bs, henc, hdec, hlen⟩ := iocOrder_roundtrip h
  have htagged := decodeTypeAndEncodedOrder_encodeWithType (show 1 < 256 by decide) "limit order packing failed: " hlen
  rw [← henc, ← IOCOrder.encodeToABI] at htagged
  obtain ⟨data, hdata, hstep⟩ := bind_eq_ok.mp htagged
  exact ⟨bs, data, henc, hdec, hdata, hstep⟩

theorem signedOrder_tagged_roundtrip {o : SignedOrder} (h : o.InAbiRange) :
    ∃ bs data, o.encodeToABIWithoutType = .ok bs ∧ decodeSignedOrder bs = .ok o ∧ o.encodeToABI = .ok data ∧
      decodeTypeAndEncodedOrder data = .ok ⟨OrderType.signed.code, bs⟩ := by
  obtain ⟨bs, henc, hdec, hlen⟩ := signedOrder_roundtrip h
  have htagged := decodeTypeAndEncodedOrder_encodeWithType (show 2 < 256 by decide) "failed getting abi type: " hlen
  rw [← henc, ← SignedOrder.encodeToABI] at htagged
  obtain ⟨data, hdata, hstep⟩ := bind_eq_ok.mp htagged
  exact ⟨bs, data, henc, hdec, hdata, hstep⟩

theorem order_wire_formats_roundtrip :
    (∀ o : LimitOrder, o.toBaseOrder.InAbiRange → ∃ bs, o.encodeToABIWithoutType = .ok bs ∧
      decodeLimitOrder bs = .ok o ∧ (o.encodeToABI >>= decodeTypeAndEncodedOrder) = .ok ⟨0, bs⟩ ∧
      ∀ keccak256, (decodeLimitOrder bs >>= LimitOrder.hash keccak256) = o.hash keccak256) ∧
    (∀ o : IOCOrder, o.InAbiRange → ∃ bs, o.encodeToABIWithoutType = .ok bs ∧
      decodeIOCOrder bs = .ok o ∧ (o.encodeToABI >>= decodeTypeAndEncodedOrder) = .ok ⟨1, bs⟩ ∧
      ∀ keccak256, (decodeIOCOrder bs >>= IOCOrder.hash keccak256) = o.hash keccak256) ∧
    (∀ o : SignedOrder, o.InAbiRange → ∃ bs, o.encodeToABIWithoutType = .ok bs ∧
      decodeSignedOrder bs = .ok o ∧ (o.encodeToABI >>= decodeTypeAndEncodedOrder) = .ok ⟨2, bs⟩ ∧
      ∀ chainId verifyingContract encodeForSigning,
        (decodeSignedOrder bs >>= SignedOrder.hash chainId verifyingContract encodeForSigning) =
          o.hash chainId verifyingContract encodeForSigning) := by
  refine ⟨fun o h => ?_, fun o h => ?_, fun o h => ?_⟩
  · obtain ⟨bs, data, henc, hdec, hdata, hstep⟩ := limitOrder_tagged_roundtrip h
    refine ⟨bs, henc, hdec, ?_, fun _ => by rw [hdec]; simp only [bind, Except.bind]⟩
    rw [hdata]
    exact hstep
  · obtain ⟨bs, data, henc, hdec, hdata, hstep⟩ := iocOrder_tagged_roundtrip h
    refine ⟨bs, henc, hdec, ?_, fun _ => by rw [hdec]; simp only [bind, Except.bind]⟩
    rw [hdata]
    exact hstep
  · obtain ⟨bs, data, henc, hdec, hdata, hstep⟩ := signedOrder_tagged_roundtrip h
    refine ⟨bs, henc, hdec, ?_, fun _ _ _ => by rw [hdec]; simp only [bind, Except.bind]⟩
    rw [hdata]
    exact hstep

/-- A short limit order, an IOC order and a signed order with a 65-byte signature. -/
def sampleLimitOrder : LimitOrder := ⟨⟨0, 7, -(10 ^ 18), 10 ^ 6, 1, false⟩, true⟩

def sampleIOCOrder : IOCOrder := ⟨⟨1, 7, 10 ^ 18, 2 * 10 ^ 6, 2, true⟩, 1, 1700000000⟩

def sampleSignedOrder : SignedOrder := ⟨⟨⟨0, 9, -(5 * 10 ^ 17), 999999, 3, false⟩, true⟩, 2, 1700000000,
  List.replicate 65 1⟩

theorem order_wire_formats_roundtrip_samples :
    sampleLimitOrder.toBaseOrder.InAbiRange ∧ sampleIOCOrder.InAbiRange ∧ sampleSignedOrder.InAbiRange ∧
    (∃ bs, sampleLimitOrder.encodeToABIWithoutType = .ok bs ∧ decodeLimitOrder bs = .ok sampleLimitOrder) ∧
    (∃ bs, sampleIOCOrder.encodeToABIWithoutType = .ok bs ∧ decodeIOCOrder bs = .ok sampleIOCOrder) ∧
    (∃ bs, sampleSignedOrder.encodeToABIWithoutType = .ok bs ∧ decodeSignedOrder bs = .ok sampleSignedOrder) := by
  have hl : sampleLimitOrder.toBaseOrder.InAbiRange := by unfold BaseOrder.InAbiRange; decide
  have hi : sampleIOCOrder.InAbiRange := by unfold IOCOrder.InAbiRange BaseOrder.InAbiRange; decide
  have hs : sampleSignedOrder.InAbiRange := by unfold SignedOrder.InAbiRange BaseOrder.InAbiRange; decide
  obtain ⟨bl, hl₁, hl₂, -⟩ := order_wire_formats_roundtrip.1 _ hl
  obtain ⟨bi, hi₁, hi₂, -⟩ := order_wire_formats_roundtrip.2.1 _ hi
  obtain ⟨bsg, hs₁, hs₂, -⟩ := order_wire_formats_roundtrip.2.2 _ hs
  exact ⟨hl, hi, hs, ⟨bl, hl₁, hl₂⟩, ⟨bi, hi₁, hi₂⟩, ⟨bsg, hs₁, hs₂⟩⟩

end Hubblenet
