import Mathlib

/-!
# The Solidity ABI, as `accounts/abi` packs and unpacks it

The part of the codec that flat argument lists use: one-word values (integers of any size, addresses, booleans),
static tuples of them, and dynamic `bytes`. `packArgs` is `Arguments.Pack`: the heads of the arguments in order, a
static value in place and the offset of a dynamic one, then the dynamic encodings. `unpack` is `Arguments.Unpack`
with `UnpackValues`, `toGoType`, `forTupleUnpack`, `lengthPrefixPointsTo`, `ReadInteger` and `readBool`, with their
checks and messages. A `big.Int` is an `Int`, an address the number its 20 bytes spell.

The main result is `unpack_packArgs`: what `packArgs` gives, `unpack` reads back, for values that fit their types
and an encoding shorter than `2 ^ 63` bytes. Its proof reads each argument where the packer put it: `At data p l`
says that `data` holds `l` at `p`.
-/

namespace Hubblenet.Lib.Abi

/-- A `[]byte`. -/
abbrev Bytes := List UInt8

/-! ## Big-endian bytes -/

/-- The `n` low bytes of `x`, most significant first. -/
def toBytes : Nat → Nat → Bytes
  | 0, _ => []
  | n + 1, x => toBytes n (x / 256) ++ [UInt8.ofNat x]

/-- `new(big.Int).SetBytes(bs)`. -/
def fromBytes (bs : Bytes) : Nat := bs.foldl (fun acc b => acc * 256 + b.toNat) 0

/-- A 32-byte word of `x < 2 ^ 256`: `packNum` and `math.PaddedBigBytes(x, 32)`. -/
def word (x : Nat) : Bytes := toBytes 32 x

/-- `math.U256Bytes`: an integer as a word, two's complement when negative. -/
def u256Bytes (x : Int) : Bytes := word (x % 2 ^ 256).toNat

/-- `common.LeftPadBytes`. -/
def leftPadBytes (bs : Bytes) (l : Nat) : Bytes := List.replicate (l - bs.length) 0 ++ bs

/-- `common.RightPadBytes`. -/
def rightPadBytes (bs : Bytes) (l : Nat) : Bytes := bs ++ List.replicate (l - bs.length) 0

/-- `packBytesSlice`: the length, then the bytes padded to whole words. -/
def packBytesSlice (bs : Bytes) (l : Nat) : Bytes := word l ++ rightPadBytes bs ((l + 31) / 32 * 32)

/-- `output[i:j]`. -/
def slice (bs : Bytes) (i j : Nat) : Bytes := (bs.drop i).take (j - i)

/-- `common.BytesToAddress`: the last 20 bytes. -/
def bytesToAddress (b : Bytes) : Nat := fromBytes (b.drop (b.length - 20))

@[simp] theorem length_toBytes (n x : Nat) : (toBytes n x).length = n := by
  induction n generalizing x with
  | zero => rfl
  | succ n ih => simp [toBytes, ih]

@[simp] theorem length_word (x : Nat) : (word x).length = 32 := length_toBytes 32 x

@[simp] theorem length_u256Bytes (x : Int) : (u256Bytes x).length = 32 := length_word _

theorem fromBytes_append_singleton (l : Bytes) (b : UInt8) : fromBytes (l ++ [b]) = fromBytes l * 256 + b.toNat := by
  simp [fromBytes, List.foldl_append]

theorem fromBytes_toBytes (n x : Nat) : fromBytes (toBytes n x) = x % 256 ^ n := by
  induction n generalizing x with
  | zero => simp [toBytes, fromBytes, Nat.mod_one]
  | succ n ih =>
    have hbyte : (UInt8.ofNat x).toNat = x % 256 := by simp
    rw [toBytes, fromBytes_append_singleton, ih, hbyte, Nat.pow_succ, Nat.mul_comm (256 ^ n), Nat.mod_mul]
    omega

/-- A computation that went on to `f` succeeded first. -/
theorem bind_eq_ok {ε α β : Type} {x : Except ε α} {f : α → Except ε β} {b : β} :
    x >>= f = .ok b ↔ ∃ a, x = .ok a ∧ f a = .ok b := by
  cases x <;> simp [bind, Except.bind]

theorem mapError_eq_ok {ε ε' α : Type} {x : Except ε α} {f : ε → ε'} {a : α} :
    x.mapError f = .ok a ↔ x = .ok a := by
  cases x <;> simp [Except.mapError]

theorem map_eq_ok {ε α β : Type} {x : Except ε α} {f : α → β} {b : β} :
    x.map f = .ok b ↔ ∃ a, x = .ok a ∧ f a = b := by
  cases x <;> simp [Except.map]

/-- A `mapM` that succeeded gave each element's own result, in order. -/
theorem mapM_eq_ok {ε α β : Type} {f : α → Except ε β} {xs : List α} {ys : List β} :
    xs.mapM f = .ok ys ↔ List.Forall₂ (fun x y => f x = .ok y) xs ys := by
  induction xs generalizing ys with
  | nil => cases ys <;> simp [pure, Except.pure]
  | cons x xs ih =>
    -- the head's result, then the tail's
    simp only [List.mapM_cons, bind_eq_ok, pure, Except.pure, Except.ok.injEq]
    cases ys with
    | nil => simp
    | cons y ys => simp [List.forall₂_cons, ← ih]

/-! ## Where a value sits in the data -/

/-- `data` holds `l` from position `p` on. -/
def At (data : Bytes) (p : Nat) (l : Bytes) : Prop := (data.drop p).take l.length = l

theorem At.append {data : Bytes} {p : Nat} {l₁ l₂ : Bytes} :
    At data p (l₁ ++ l₂) ↔ At data p l₁ ∧ At data (p + l₁.length) l₂ := by
  unfold At
  rw [List.length_append, List.take_add, List.drop_drop]
  constructor
  · intro h
    have hlen : ((data.drop p).take l₁.length).length = l₁.length := by
      have := congrArg List.length h
      simp only [List.length_append, List.length_take] at this ⊢
      omega
    exact List.append_inj h hlen
  · rintro ⟨h₁, h₂⟩
    rw [h₁, h₂]

theorem At.le {data : Bytes} {p : Nat} {l : Bytes} (h : At data p l) (hl : 0 < l.length) :
    p + l.length ≤ data.length := by
  have := congrArg List.length h
  simp only [List.length_take, List.length_drop] at this
  omega

theorem At.slice_eq {data : Bytes} {p : Nat} {l : Bytes} (h : At data p l) : slice data p (p + l.length) = l := by
  rw [slice, Nat.add_sub_cancel_left]
  exact h

theorem At.drop {data : Bytes} {p q : Nat} {l : Bytes} (h : At data (p + q) l) : At (data.drop p) q l := by
  rw [At, List.drop_drop]
  exact h

theorem at_append_left (l r : Bytes) : At (l ++ r) 0 l := by
  simp [At]

theorem at_append_right (l r : Bytes) : At (l ++ r) l.length r := by
  simp [At]

/-! ## Types and values -/

/-- The one-word types: `uintN`, `intN`, `address` and `bool`. -/
inductive WordType where
  | uint (size : Nat)
  | int (size : Nat)
  | address
  | bool
  deriving DecidableEq, Repr

/-- The argument types: a word, a static tuple of named words, or `bytes`. -/
inductive ArgType where
  | word (t : WordType)
  | tuple (elems : List (String × WordType))
  | bytes
  deriving DecidableEq, Repr

/-- The Go values of one-word types: a `*big.Int` or a Go integer, a `common.Address`, a `bool`. -/
inductive WordValue where
  | num (x : Int)
  | address (a : Nat)
  | bool (b : Bool)
  deriving DecidableEq, Repr

/-- The Go values of arguments: a word, the fields of a struct, a `[]byte`. -/
inductive ArgValue where
  | word (v : WordValue)
  | tuple (vs : List WordValue)
  | bytes (bs : Bytes)
  deriving DecidableEq, Repr

/-- `Type.Size`. -/
def WordType.size : WordType → Nat
  | .uint size | .int size => size
  | .address => 20
  | .bool => 0

/-- The `reflect.Kind` of the Go type of a word type. -/
def WordType.kind : WordType → String
  | .uint 8 => "uint8" | .uint 16 => "uint16" | .uint 32 => "uint32" | .uint 64 => "uint64"
  | .int 8 => "int8" | .int 16 => "int16" | .int 32 => "int32" | .int 64 => "int64"
  | .uint _ | .int _ => "ptr"
  | .address => "array"
  | .bool => "bool"

def ArgType.kind : ArgType → String
  | .word t => t.kind
  | .tuple _ => "struct"
  | .bytes => "slice"

/-- The `reflect.Kind` of a value; an integer counts as a `*big.Int`. -/
def WordValue.kind : WordValue → String
  | .num _ => "ptr"
  | .address _ => "array"
  | .bool _ => "bool"

def ArgValue.kind : ArgValue → String
  | .word v => v.kind
  | .tuple _ => "struct"
  | .bytes _ => "slice"

/-- `getTypeSize`: the bytes a type takes in the head. -/
def ArgType.getTypeSize : ArgType → Nat
  | .tuple elems => 32 * elems.length
  | _ => 32

/-- `isDynamicType`. -/
def ArgType.isDynamicType : ArgType → Bool
  | .bytes => true
  | _ => false

/-- A value of the type, in its range. -/
def WordType.Fits : WordType → WordValue → Prop
  | .uint size, .num x => size ≤ 256 ∧ 0 ≤ x ∧ x < 2 ^ size
  | .int size, .num x => 0 < size ∧ size ≤ 256 ∧ -2 ^ (size - 1) ≤ x ∧ x < 2 ^ (size - 1)
  | .address, .address a => a < 2 ^ 160
  | .bool, .bool _ => True
  | _, _ => False

/-- A value of the type, in its range; a tuple has at least one field. -/
def ArgType.Fits : ArgType → ArgValue → Prop
  | .word t, .word v => t.Fits v
  | .tuple elems, .tuple vs => elems ≠ [] ∧ List.Forall₂ (fun e v => e.2.Fits v) elems vs
  | .bytes, .bytes _ => True
  | _, _ => False

/-! ## Packing -/

/-- `typeErr`. -/
def typeErr (expected got : String) : String := "abi: cannot use " ++ got ++ " as type " ++ expected ++ " as argument"

/-- `Type.pack` of a one-word type: `packNum`, the left-padded address, or the boolean word. -/
def packWord : WordType → WordValue → Except String Bytes
  | .uint _, .num x | .int _, .num x => .ok (u256Bytes x)
  | .address, .address a => .ok (leftPadBytes (toBytes 20 a) 32)
  | .bool, .bool b => .ok (word (if b then 1 else 0))
  | t, v => .error (typeErr t.kind v.kind)

/-- `Type.pack` of a static tuple: its fields in order, each in place. -/
def packTuple : List (String × WordType) → List WordValue → Except String Bytes
  | [], _ => .ok []
  | (name, _) :: _, [] => .error ("field " ++ name ++ " for tuple not found in the given struct")
  | (_, t) :: elems, v :: vs => do
    let val ← packWord t v
    let rest ← packTuple elems vs
    pure (val ++ rest)

/-- `Type.pack`. -/
def pack : ArgType → ArgValue → Except String Bytes
  | .word t, .word v => packWord t v
  | .tuple elems, .tuple vs => packTuple elems vs
  | .bytes, .bytes bs => .ok (packBytesSlice bs bs.length)
  | t, v => .error (typeErr t.kind v.kind)

/-- The loop of `Arguments.Pack` over the arguments left: their heads and their variable input, the next
dynamic value going at `inputOffset`. -/
def packLoop : List ArgType → List ArgValue → Nat → Except String (Bytes × Bytes)
  | t :: ts, v :: vs, inputOffset => do
    let packed ← pack t v
    if t.isDynamicType then
      let (ret, variableInput) ← packLoop ts vs (inputOffset + packed.length)
      pure (word inputOffset ++ ret, packed ++ variableInput)
    else
      let (ret, variableInput) ← packLoop ts vs inputOffset
      pure (packed ++ ret, variableInput)
  | _, _, _ => .ok ([], [])

/-- `Arguments.Pack`. -/
def packArgs (abiArgs : List ArgType) (args : List ArgValue) : Except String Bytes :=
  if args.length ≠ abiArgs.length then
    .error ("argument count mismatch: got " ++ toString args.length ++ " for " ++ toString abiArgs.length)
  else do
    let (ret, variableInput) ← packLoop abiArgs args (abiArgs.map ArgType.getTypeSize).sum
    pure (ret ++ variableInput)

/-! ## Unpacking -/

/-- `ReadInteger` past its range check: the value if it is below `2 ^ bits`. -/
def checkUint (ret : Nat) (bits : Nat) (err : String) : Except String Int :=
  if ret < 2 ^ bits then .ok ret else .error err

/-- The signed range check of `ReadInteger`. -/
def checkInt (ret : Int) (bits : Nat) (err : String) : Except String Int :=
  if -2 ^ (bits - 1) ≤ ret ∧ ret < 2 ^ (bits - 1) then .ok ret else .error err

/-- The unsigned cases of `ReadInteger`. -/
def readUint (size : Nat) (ret : Nat) : Except String Int :=
  match size with
  | 8 => checkUint ret 8 "abi: improperly encoded uint8 value"
  | 16 => checkUint ret 16 "abi: improperly encoded uint16 value"
  | 32 => checkUint ret 32 "abi: improperly encoded uint32 value"
  | 64 => checkUint ret 64 "abi: improperly encoded uint64 value"
  | _ => .ok ret

/-- The signed cases of `ReadInteger`. -/
def readInt (size : Nat) (ret : Int) : Except String Int :=
  match size with
  | 8 => checkInt ret 8 "abi: improperly encoded int8 value"
  | 16 => checkInt ret 16 "abi: improperly encoded int16 value"
  | 32 => checkInt ret 32 "abi: improperly encoded int32 value"
  | 64 => checkInt ret 64 "abi: improperly encoded int64 value"
  | _ => .ok ret

/-- `ReadInteger`: a word with bit 255 set is negative, unless the type is unsigned. -/
def readInteger (t : WordType) (b : Bytes) : Except String Int :=
  let ret := fromBytes b
  match t with
  | .uint size => readUint size ret
  | t => readInt t.size (if ret / 2 ^ 255 % 2 = 1 then (ret : Int) - 2 ^ 256 else ret)

/-- `readBool`: 31 zero bytes, then `0` or `1`. -/
def readBool (word : Bytes) : Except String Bool :=
  if (word.take 31).all (· = 0) then
    match (word.getD 31 0).toNat with
    | 0 => .ok false
    | 1 => .ok true
    | _ => .error "abi: improperly encoded boolean value"
  else .error "abi: improperly encoded boolean value"

/-- The one-word cases of `toGoType`'s switch. -/
def readWord : WordType → Bytes → Except String WordValue
  | .bool, returnOutput => .bool <$> readBool returnOutput
  | .address, returnOutput => .ok (.address (bytesToAddress returnOutput))
  | t, returnOutput => .num <$> readInteger t returnOutput

/-- The message of `toGoType` on data too short for the word at `index`. -/
def lengthInsufficient (len need : Nat) : String :=
  "abi: cannot marshal in to go type: length insufficient " ++ toString len ++ " require " ++ toString need

/-- `toGoType` at a one-word type. -/
def toGoTypeWord (index : Nat) (t : WordType) (output : Bytes) : Except String WordValue :=
  if output.length < index + 32 then .error (lengthInsufficient output.length (index + 32))
  else readWord t (slice output index (index + 32))

/-- `forTupleUnpack` of a static tuple of words, from its field `index` on. -/
def forTupleUnpack : List (String × WordType) → Nat → Bytes → Except String (List WordValue)
  | [], _, _ => .ok []
  | (_, t) :: elems, index, output => do
    let v ← toGoTypeWord (index * 32) t output
    let vs ← forTupleUnpack elems (index + 1) output
    pure (v :: vs)

/-- `lengthPrefixPointsTo`: where the bytes that the offset at `index` points to start, and how many there are. -/
def lengthPrefixPointsTo (index : Nat) (output : Bytes) : Except String (Nat × Nat) :=
  let bigOffsetEnd := fromBytes (slice output index (index + 32)) + 32
  if output.length < bigOffsetEnd then
    .error ("abi: cannot marshal in to go slice: offset " ++ toString bigOffsetEnd ++
      " would go over slice boundary (len=" ++ toString output.length ++ ")")
  else if 2 ^ 63 ≤ bigOffsetEnd then .error ("abi offset larger than int64: " ++ toString bigOffsetEnd)
  else
    let lengthBig := fromBytes (slice output (bigOffsetEnd - 32) bigOffsetEnd)
    let totalSize := bigOffsetEnd + lengthBig
    if 2 ^ 63 ≤ totalSize then .error ("abi: length larger than int64: " ++ toString totalSize)
    else if output.length < totalSize then .error (lengthInsufficient output.length totalSize)
    else .ok (bigOffsetEnd, lengthBig)

/-- `toGoType`. -/
def toGoType (index : Nat) (t : ArgType) (output : Bytes) : Except String ArgValue :=
  match t with
  | .word w => .word <$> toGoTypeWord index w output
  | .tuple elems =>
    if output.length < index + 32 then .error (lengthInsufficient output.length (index + 32))
    else .tuple <$> forTupleUnpack elems 0 (output.drop index)
  | .bytes =>
    if output.length < index + 32 then .error (lengthInsufficient output.length (index + 32))
    else do
      let (begin, length) ← lengthPrefixPointsTo index output
      pure (.bytes (slice output begin (begin + length)))

/-- The loop of `UnpackValues` from the argument at word `index` (its index plus the virtual arguments of the
static tuples before it). -/
def unpackLoop : List ArgType → Nat → Bytes → Except String (List ArgValue)
  | [], _, _ => .ok []
  | t :: ts, index, data => do
    let v ← toGoType (index * 32) t data
    let vs ← unpackLoop ts (index + t.getTypeSize / 32) data
    pure (v :: vs)

/-- `Arguments.Unpack`. -/
def unpack (arguments : List ArgType) (data : Bytes) : Except String (List ArgValue) :=
  if data.length = 0 then
    if arguments.length ≠ 0 then .error "abi: attempting to unmarshall an empty string while arguments are expected"
    else .ok []
  else unpackLoop arguments 0 data

/-! ## Reading back what was packed -/

theorem fromBytes_u256Bytes (x : Int) : fromBytes (u256Bytes x) = (x % 2 ^ 256).toNat := by
  have hlt : (x % 2 ^ 256).toNat < 256 ^ 32 := by omega
  rw [u256Bytes, word, fromBytes_toBytes, Nat.mod_eq_of_lt hlt]

theorem readUint_of_lt {size ret : Nat} (h : ret < 2 ^ size) : readUint size ret = .ok ret := by
  unfold readUint
  split <;> simp_all [checkUint]

theorem readInt_of_mem {size : Nat} {ret : Int} (h : -2 ^ (size - 1) ≤ ret ∧ ret < 2 ^ (size - 1)) :
    readInt size ret = .ok ret := by
  unfold readInt
  split <;> simp_all [checkInt]

theorem readBool_word (b : Bool) : readBool (word (if b then 1 else 0)) = .ok b := by
  cases b <;> decide

/-- A word packed from a value that fits its type reads back as that value. -/
theorem readWord_of_packWord {t : WordType} {v : WordValue} {b : Bytes} (hf : t.Fits v)
    (h : packWord t v = .ok b) : b.length = 32 ∧ readWord t b = .ok v := by
  cases t <;> cases v <;> simp only [WordType.Fits] at hf <;> simp only [packWord, Except.ok.injEq] at h <;> subst h
  case uint.num size x =>
    obtain ⟨hsize, h0, hlt⟩ := hf
    have hbound : (2 : Int) ^ size ≤ 2 ^ 256 := by
      exact_mod_cast Nat.pow_le_pow_right (show 0 < 2 by decide) hsize
    have hcast : ((2 ^ size : Nat) : Int) = (2 : Int) ^ size := by simp
    have hread : fromBytes (u256Bytes x) < 2 ^ size := by rw [fromBytes_u256Bytes]; omega
    have hval : ((fromBytes (u256Bytes x) : Nat) : Int) = x := by rw [fromBytes_u256Bytes]; omega
    refine ⟨length_u256Bytes x, ?_⟩
    simp only [readWord, readInteger]
    rw [readUint_of_lt hread, hval]
    rfl
  case int.num size x =>
    obtain ⟨hpos, hsize, hlo, hhi⟩ := hf
    -- both signs of `x` meet at `2 ^ 255`
    have hbound : (2 : Int) ^ (size - 1) ≤ 2 ^ 255 := by
      exact_mod_cast Nat.pow_le_pow_right (show 0 < 2 by decide) (show size - 1 ≤ 255 by omega)
    have hx : (if fromBytes (u256Bytes x) / 2 ^ 255 % 2 = 1 then (fromBytes (u256Bytes x) : Int) - 2 ^ 256
        else (fromBytes (u256Bytes x) : Int)) = x := by
      rw [fromBytes_u256Bytes]
      split_ifs <;> omega
    refine ⟨length_u256Bytes x, ?_⟩
    simp only [readWord, readInteger, WordType.size, hx, readInt_of_mem ⟨hlo, hhi⟩]
    rfl
  case address.address a =>
    have hdrop : (leftPadBytes (toBytes 20 a) 32).drop 12 = toBytes 20 a := by
      simp [leftPadBytes]
    refine ⟨by simp [leftPadBytes], ?_⟩
    simp only [readWord, bytesToAddress, show (leftPadBytes (toBytes 20 a) 32).length - 20 = 12 by
      simp [leftPadBytes], hdrop, fromBytes_toBytes, Except.ok.injEq, WordValue.address.injEq]
    omega
  case bool.bool b =>
    exact ⟨length_word _, by simp only [readWord, readBool_word]; rfl⟩

/-- A static tuple packed from fitting fields: a word a field, read back field by field. -/
theorem forTupleUnpack_of_packTuple {elems : List (String × WordType)} {vs : List WordValue}
    (hf : List.Forall₂ (fun e v => e.2.Fits v) elems vs) {b : Bytes} (h : packTuple elems vs = .ok b) :
    b.length = 32 * elems.length ∧
      ∀ {out : Bytes} {index : Nat}, At out (index * 32) b → forTupleUnpack elems index out = .ok vs := by
  induction hf generalizing b with
  | nil =>
    simp only [packTuple, Except.ok.injEq] at h
    subst h
    exact ⟨rfl, fun _ => rfl⟩
  | @cons e v elems vs hv _ ih =>
    obtain ⟨name, t⟩ := e
    obtain ⟨val, hval, h⟩ := bind_eq_ok.mp h
    obtain ⟨rest, hrest, h⟩ := bind_eq_ok.mp h
    cases h
    obtain ⟨hlen, hread⟩ := readWord_of_packWord hv hval
    obtain ⟨hlen', ih'⟩ := ih hrest
    refine ⟨by simp only [List.length_append, hlen, hlen', List.length_cons]; omega, fun {out index} hat => ?_⟩
    obtain ⟨hat₁, hat₂⟩ := At.append.mp hat
    have hle := hat₁.le (by omega)
    have hslice : slice out (index * 32) (index * 32 + 32) = val := hlen ▸ hat₁.slice_eq
    rw [hlen, show index * 32 + 32 = (index + 1) * 32 by omega] at hat₂
    simp only [forTupleUnpack, toGoTypeWord, show ¬ out.length < index * 32 + 32 by omega, if_false, hslice,
      hread, ih' hat₂]
    rfl

@[simp] theorem length_packBytesSlice (bs : Bytes) :
    (packBytesSlice bs bs.length).length = 32 + max bs.length ((bs.length + 31) / 32 * 32) := by
  simp [packBytesSlice, rightPadBytes]
  omega

/-- Bytes packed at `offset`, with the offset in the head at `index`, are found by `lengthPrefixPointsTo`. -/
theorem lengthPrefixPointsTo_of_at {data : Bytes} {index offset : Nat} {bs : Bytes}
    (hhead : At data index (word offset)) (htail : At data offset (packBytesSlice bs bs.length))
    (hsmall : data.length < 2 ^ 63) :
    lengthPrefixPointsTo index data = .ok (offset + 32, bs.length) ∧
      slice data (offset + 32) (offset + 32 + bs.length) = bs := by
  have hend := htail.le (by rw [length_packBytesSlice]; omega)
  rw [length_packBytesSlice] at hend
  obtain ⟨hlenword, hpad⟩ := At.append.mp htail
  rw [length_word] at hpad
  obtain ⟨hbs, -⟩ := At.append.mp hpad
  have hoffset : fromBytes (slice data index (index + 32)) = offset := by
    rw [← length_word offset, hhead.slice_eq, word, fromBytes_toBytes]
    exact Nat.mod_eq_of_lt (by omega)
  have hlength : fromBytes (slice data offset (offset + 32)) = bs.length := by
    rw [← length_word bs.length, hlenword.slice_eq, word, fromBytes_toBytes]
    exact Nat.mod_eq_of_lt (by omega)
  refine ⟨?_, hbs.slice_eq⟩
  simp only [lengthPrefixPointsTo, hoffset, Nat.add_sub_cancel, hlength]
  split_ifs <;> first | omega | rfl

theorem getTypeSize_pos {t : ArgType} {v : ArgValue} (hf : t.Fits v) : 0 < t.getTypeSize := by
  cases t <;> cases v <;> simp only [ArgType.Fits] at hf <;> simp only [ArgType.getTypeSize]
  · omega
  case tuple.tuple elems vs =>
    have := List.length_pos_of_ne_nil hf.1
    omega
  · omega

/-- One argument of the loop of `Pack`: a dynamic one leaves its offset in the head and its encoding in the
variable input, a static one its encoding in the head. -/
theorem packLoop_cons_eq_ok {t : ArgType} {ts : List ArgType} {v : ArgValue} {vs : List ArgValue} {offset : Nat}
    {ret vi : Bytes} (h : packLoop (t :: ts) (v :: vs) offset = .ok (ret, vi)) :
    ∃ packed ret' vi', pack t v = .ok packed ∧
      if t.isDynamicType then
        packLoop ts vs (offset + packed.length) = .ok (ret', vi') ∧ ret = word offset ++ ret' ∧ vi = packed ++ vi'
      else packLoop ts vs offset = .ok (ret', vi') ∧ ret = packed ++ ret' ∧ vi = vi' := by
  obtain ⟨packed, hpacked, h⟩ := bind_eq_ok.mp h
  cases hd : t.isDynamicType with
  | false =>
    rw [hd, if_neg Bool.false_ne_true] at h
    obtain ⟨⟨ret', vi'⟩, hrest, h⟩ := bind_eq_ok.mp h
    simp only [pure, Except.pure, Except.ok.injEq, Prod.mk.injEq] at h
    exact ⟨packed, ret', vi', hpacked, hrest, h.1.symm, h.2.symm⟩
  | true =>
    rw [hd, if_pos rfl] at h
    obtain ⟨⟨ret', vi'⟩, hrest, h⟩ := bind_eq_ok.mp h
    simp only [pure, Except.pure, Except.ok.injEq, Prod.mk.injEq] at h
    exact ⟨packed, ret', vi', hpacked, hrest, h.1.symm, h.2.symm⟩

/-- A static argument packs to as many bytes as its type takes. -/
theorem length_pack_of_static {t : ArgType} {v : ArgValue} (hf : t.Fits v) (hs : t.isDynamicType = false)
    {packed : Bytes} (h : pack t v = .ok packed) : packed.length = t.getTypeSize := by
  cases t <;> cases v <;> simp only [ArgType.Fits] at hf <;>
    simp only [ArgType.isDynamicType, Bool.true_eq_false] at hs
  case word.word w u => exact (readWord_of_packWord hf h).1
  case tuple.tuple elems us => exact (forTupleUnpack_of_packTuple hf.2 h).1

/-- The heads take the sizes of the types. -/
theorem length_packLoop_fst {ts : List ArgType} {vs : List ArgValue} (hf : List.Forall₂ ArgType.Fits ts vs)
    {offset : Nat} {ret vi : Bytes} (h : packLoop ts vs offset = .ok (ret, vi)) :
    ret.length = (ts.map ArgType.getTypeSize).sum := by
  induction hf generalizing offset ret vi with
  | nil =>
    simp only [packLoop, Except.ok.injEq, Prod.mk.injEq] at h
    simp [h.1]
  | @cons t v ts vs hv _ ih =>
    obtain ⟨packed, ret', vi', hpacked, hcase⟩ := packLoop_cons_eq_ok h
    clear h
    rw [List.map_cons, List.sum_cons]
    cases t <;> cases v <;> simp only [ArgType.Fits] at hv <;>
      simp only [ArgType.isDynamicType, Bool.false_eq_true, if_false, if_true] at hcase
    case word.word w u =>
      obtain ⟨hrest, rfl, -⟩ := hcase
      rw [List.length_append, ih hrest, length_pack_of_static (show ArgType.Fits (.word w) (.word u) from hv) rfl
        hpacked]
    case tuple.tuple elems us =>
      obtain ⟨hrest, rfl, -⟩ := hcase
      rw [List.length_append, ih hrest,
        length_pack_of_static (show ArgType.Fits (.tuple elems) (.tuple us) from hv) rfl hpacked]
    case bytes.bytes bs =>
      obtain ⟨hrest, hret, -⟩ := hcase
      rw [hret, List.length_append, ih hrest, length_word]
      rfl

/-- The loop of `UnpackValues` reads each argument where the loop of `Pack` put it: a static one in the head,
a dynamic one at the offset its head holds. -/
theorem unpackLoop_of_packLoop {ts : List ArgType} {vs : List ArgValue} (hf : List.Forall₂ ArgType.Fits ts vs)
    {offset : Nat} {ret vi : Bytes} (h : packLoop ts vs offset = .ok (ret, vi)) {data : Bytes} {index : Nat}
    (hret : At data (index * 32) ret) (hvi : At data offset vi) (hsmall : data.length < 2 ^ 63) :
    unpackLoop ts index data = .ok vs := by
  induction hf generalizing offset ret vi index with
  | nil => rfl
  | @cons t v ts vs hv _ ih =>
    obtain ⟨packed, ret', vi', hpacked, hcase⟩ := packLoop_cons_eq_ok h
    clear h
    cases t <;> cases v <;> simp only [ArgType.Fits] at hv <;>
      simp only [ArgType.isDynamicType, Bool.false_eq_true, if_false, if_true] at hcase
    case word.word w u =>
      obtain ⟨hrest, rfl, rfl⟩ := hcase
      obtain ⟨hlen, hread⟩ := readWord_of_packWord hv hpacked
      obtain ⟨hat₁, hat₂⟩ := At.append.mp hret
      have hle := hat₁.le (by omega)
      have hslice : slice data (index * 32) (index * 32 + 32) = packed := hlen ▸ hat₁.slice_eq
      rw [hlen, show index * 32 + 32 = (index + 32 / 32) * 32 by omega] at hat₂
      simp only [unpackLoop, toGoType, toGoTypeWord, show ¬ data.length < index * 32 + 32 by omega, if_false,
        hslice, hread, ArgType.getTypeSize, ih hrest hat₂ hvi]
      rfl
    case tuple.tuple elems us =>
      obtain ⟨hrest, rfl, rfl⟩ := hcase
      obtain ⟨hlen, hread⟩ := forTupleUnpack_of_packTuple hv.2 hpacked
      have hpos := List.length_pos_of_ne_nil hv.1
      obtain ⟨hat₁, hat₂⟩ := At.append.mp hret
      have hle := hat₁.le (by omega)
      have htuple : forTupleUnpack elems 0 (data.drop (index * 32)) = .ok us :=
        hread (At.drop (by rw [Nat.zero_mul, Nat.add_zero]; exact hat₁))
      rw [hlen, show index * 32 + 32 * elems.length = (index + 32 * elems.length / 32) * 32 by omega] at hat₂
      simp only [unpackLoop, toGoType, show ¬ data.length < index * 32 + 32 by omega, if_false, htuple,
        ArgType.getTypeSize, ih hrest hat₂ hvi]
      rfl
    case bytes.bytes bs =>
      obtain ⟨hrest, hret', hvi'⟩ := hcase
      rw [hret'] at hret
      rw [hvi'] at hvi
      simp only [pack, Except.ok.injEq] at hpacked
      subst hpacked
      obtain ⟨hat₁, hat₂⟩ := At.append.mp hret
      obtain ⟨hvi₁, hvi₂⟩ := At.append.mp hvi
      have hle := hat₁.le (by simp)
      obtain ⟨hpoints, hslice⟩ := lengthPrefixPointsTo_of_at hat₁ hvi₁ hsmall
      rw [length_word, show index * 32 + 32 = (index + 32 / 32) * 32 by omega] at hat₂
      simp only [unpackLoop, toGoType, show ¬ data.length < index * 32 + 32 by rw [length_word] at hle; omega,
        if_false, hpoints, ArgType.getTypeSize, ih hrest hat₂ hvi₂, bind, Except.bind, pure, Except.pure, hslice]

/-- What `Arguments.Pack` gives for values that fit their types, `Arguments.Unpack` reads back. -/
theorem unpack_packArgs {ts : List ArgType} {vs : List ArgValue} (hf : List.Forall₂ ArgType.Fits ts vs)
    {data : Bytes} (h : packArgs ts vs = .ok data) (hsmall : data.length < 2 ^ 63) : unpack ts data = .ok vs := by
  unfold packArgs at h
  rw [if_neg (by rw [hf.length_eq]; exact not_not_intro rfl)] at h
  obtain ⟨⟨ret, vi⟩, hloop, h⟩ := bind_eq_ok.mp h
  simp only [pure, Except.pure, Except.ok.injEq] at h
  subst h
  have hlen := length_packLoop_fst hf hloop
  cases hf with
  | nil => simp [unpack, unpackLoop]
  | @cons t v ts' vs' hv hrest =>
    have hpos := getTypeSize_pos hv
    have hne : (ret ++ vi).length ≠ 0 := by
      simp only [List.map_cons, List.sum_cons] at hlen
      simp only [List.length_append]
      omega
    rw [unpack, if_neg hne]
    exact unpackLoop_of_packLoop (.cons hv hrest) hloop (at_append_left ret vi)
      (hlen ▸ at_append_right ret vi) hsmall

/-! ## Packing succeeds on fitting values, and how long it is -/

theorem packWord_ok {t : WordType} {v : WordValue} (hf : t.Fits v) : ∃ b, packWord t v = .ok b := by
  cases t <;> cases v <;> simp only [WordType.Fits] at hf <;> exact ⟨_, rfl⟩

theorem packTuple_ok {elems : List (String × WordType)} {vs : List WordValue}
    (hf : List.Forall₂ (fun e v => e.2.Fits v) elems vs) : ∃ b, packTuple elems vs = .ok b := by
  induction hf with
  | nil => exact ⟨[], rfl⟩
  | @cons e v elems vs hv _ ih =>
    obtain ⟨val, hval⟩ := packWord_ok hv
    obtain ⟨rest, hrest⟩ := ih
    exact ⟨val ++ rest, by simp [packTuple, hval, hrest, bind, Except.bind, pure, Except.pure]⟩

theorem pack_ok {t : ArgType} {v : ArgValue} (hf : t.Fits v) : ∃ b, pack t v = .ok b := by
  cases t <;> cases v <;> simp only [ArgType.Fits] at hf
  case word.word w u => exact packWord_ok hf
  case tuple.tuple elems us => exact packTuple_ok hf.2
  case bytes.bytes bs => exact ⟨_, rfl⟩

/-- The bytes a value adds to the variable input: its encoding if it is dynamic. -/
def ArgValue.tailLength : ArgValue → Nat
  | .bytes bs => (packBytesSlice bs bs.length).length
  | _ => 0

/-- The loop of `Pack` goes through on fitting values, and its variable input holds the dynamic encodings. -/
theorem packLoop_ok {ts : List ArgType} {vs : List ArgValue} (hf : List.Forall₂ ArgType.Fits ts vs)
    (offset : Nat) : ∃ ret vi, packLoop ts vs offset = .ok (ret, vi) ∧ vi.length = (vs.map ArgValue.tailLength).sum := by
  induction hf generalizing offset with
  | nil => exact ⟨[], [], rfl, rfl⟩
  | @cons t v ts vs hv _ ih =>
    obtain ⟨packed, hpacked⟩ := pack_ok hv
    cases t <;> cases v <;> simp only [ArgType.Fits] at hv
    case bytes.bytes bs =>
      obtain ⟨ret, vi, hloop, hlen⟩ := ih (offset + packed.length)
      simp only [pack, Except.ok.injEq] at hpacked
      refine ⟨word offset ++ ret, packed ++ vi, ?_, ?_⟩
      · subst hpacked
        simp only [packLoop, pack, ArgType.isDynamicType, if_true, bind, Except.bind, hloop, pure, Except.pure]
      · simp [← hpacked, hlen, ArgValue.tailLength]
    all_goals
      obtain ⟨ret, vi, hloop, hlen⟩ := ih offset
      refine ⟨packed ++ ret, vi, ?_, by simpa [ArgValue.tailLength] using hlen⟩
      simp [packLoop, hpacked, hloop, ArgType.isDynamicType, bind, Except.bind, pure, Except.pure]

/-- `Arguments.Pack` goes through on fitting values: the heads take the sizes of the types, the variable input
the encodings of the dynamic values. -/
theorem packArgs_ok {ts : List ArgType} {vs : List ArgValue} (hf : List.Forall₂ ArgType.Fits ts vs) :
    ∃ data, packArgs ts vs = .ok data ∧
      data.length = (ts.map ArgType.getTypeSize).sum + (vs.map ArgValue.tailLength).sum := by
  obtain ⟨ret, vi, hloop, hlen⟩ := packLoop_ok hf (ts.map ArgType.getTypeSize).sum
  refine ⟨ret ++ vi, ?_, by rw [List.length_append, length_packLoop_fst hf hloop, hlen]⟩
  rw [packArgs, if_neg (by rw [hf.length_eq]; exact not_not_intro rfl), hloop]
  rfl

end Hubblenet.Lib.Abi
