import Mathlib

/-!
# JSON documents of flat records, as `encoding/json` writes and reads them

A document is an object of keyed values: integers (a `big.Int` or a Go integer, written in decimal and read
back exactly), strings and booleans. `unmarshalInto` is `json.Unmarshal` into a struct: the members in order,
each handed to the struct's setter for its key, which finds the field by its tag and keeps the field unchanged
when the value does not decode into the field's type (`json.Unmarshal` then reports an error and goes on).
Fixed-size byte arrays are written as `0x`-prefixed hexadecimal text (`hexutil`'s `MarshalText`) and read back
by `unmarshalFixedText`, which wants the prefix and exactly two digits a byte (`unmarshalFixedText_marshalText`).
-/

namespace Hubblenet.Lib.Json

/-- The values of a flat JSON object. -/
inductive JsonValue where
  | number (x : Int)
  | string (s : String)
  | bool (b : Bool)
  deriving DecidableEq, Repr

/-- A JSON object, its members in the order they are written. -/
abbrev JsonObject := List (String × JsonValue)

/-- `json.Unmarshal` of an object into a struct that starts as `init`, with `set` the struct's decoding of one
member. -/
def unmarshalInto {σ : Type} (set : σ → String → JsonValue → σ) (o : JsonObject) (init : σ) : σ :=
  o.foldl (fun st kv => set st kv.1 kv.2) init

@[simp] theorem unmarshalInto_nil {σ : Type} (set : σ → String → JsonValue → σ) (init : σ) :
    unmarshalInto set [] init = init := rfl

@[simp] theorem unmarshalInto_cons {σ : Type} (set : σ → String → JsonValue → σ) (k : String) (v : JsonValue)
    (o : JsonObject) (init : σ) : unmarshalInto set ((k, v) :: o) init = unmarshalInto set o (set init k v) := rfl

/-! ## Decoding a value into a field -/

/-- Into a `*big.Int`: a number. -/
def JsonValue.asBigInt : JsonValue → Option Int
  | .number x => some x
  | _ => none

/-- Into a `uint8`: a number in range. -/
def JsonValue.asUint8 : JsonValue → Option Nat
  | .number x => if 0 ≤ x ∧ x < 256 then some x.toNat else none
  | _ => none

/-- Into a `bool`. -/
def JsonValue.asBool : JsonValue → Option Bool
  | .bool b => some b
  | _ => none

/-! ## Hexadecimal text -/

/-- The lower-case digit of `d < 16`. -/
def hexDigit (d : Nat) : Char := if d < 10 then Char.ofNat (48 + d) else Char.ofNat (87 + d)

/-- The value of a hexadecimal digit of either case. -/
def hexDigitValue (c : Char) : Option Nat :=
  if '0' ≤ c ∧ c ≤ '9' then some (c.toNat - 48)
  else if 'a' ≤ c ∧ c ≤ 'f' then some (c.toNat - 87)
  else if 'A' ≤ c ∧ c ≤ 'F' then some (c.toNat - 55)
  else none

/-- The `n` low hexadecimal digits of `x`, most significant first. -/
def hexDigits : Nat → Nat → List Char
  | 0, _ => []
  | n + 1, x => hexDigits n (x / 16) ++ [hexDigit (x % 16)]

/-- The number hexadecimal digits spell, if they all are digits. -/
def parseHex (cs : List Char) : Option Nat :=
  cs.foldl (fun acc c => acc.bind fun a => (hexDigitValue c).map (a * 16 + ·)) (some 0)

/-- `MarshalText` of an `n`-byte array holding `x`. -/
def marshalText (n x : Nat) : String := String.ofList ('0' :: 'x' :: hexDigits (2 * n) x)

/-- `UnmarshalFixedJSON` into an `n`-byte array: a string, `0x` or `0X`, then two hexadecimal digits a byte. -/
def unmarshalFixedText (n : Nat) : JsonValue → Option Nat
  | .string s =>
    match s.toList with
    | '0' :: x :: digits => if (x = 'x' ∨ x = 'X') ∧ digits.length = 2 * n then parseHex digits else none
    | _ => none
  | _ => none

theorem hexDigitValue_hexDigit : ∀ d : Fin 16, hexDigitValue (hexDigit d) = some d := by decide

theorem parseHex_append_singleton (cs : List Char) (c : Char) :
    parseHex (cs ++ [c]) = (parseHex cs).bind fun a => (hexDigitValue c).map (a * 16 + ·) := by
  simp [parseHex, List.foldl_append]

@[simp] theorem length_hexDigits (n x : Nat) : (hexDigits n x).length = n := by
  induction n generalizing x with
  | zero => rfl
  | succ n ih => simp [hexDigits, ih]

theorem parseHex_hexDigits (n x : Nat) : parseHex (hexDigits n x) = some (x % 16 ^ n) := by
  induction n generalizing x with
  | zero => simp [hexDigits, parseHex, Nat.mod_one]
  | succ n ih =>
    have hd : hexDigitValue (hexDigit (x % 16)) = some (x % 16) :=
      hexDigitValue_hexDigit ⟨x % 16, Nat.mod_lt x (by decide)⟩
    rw [hexDigits, parseHex_append_singleton, ih, Option.bind_some, hd, Option.map_some, Nat.pow_succ,
      Nat.mul_comm (16 ^ n), Nat.mod_mul]
    congr 1
    omega

/-- Hexadecimal text of an `n`-byte array reads back as the number the array holds. -/
theorem unmarshalFixedText_marshalText (n x : Nat) :
    unmarshalFixedText n (.string (marshalText n x)) = some (x % 256 ^ n) := by
  have hpow : (16 : Nat) ^ (2 * n) = 256 ^ n := by rw [Nat.pow_mul]
  simp [unmarshalFixedText, marshalText, String.toList_ofList, parseHex_hexDigits, hpow]

theorem unmarshalFixedText_marshalText_of_lt {n x : Nat} (h : x < 256 ^ n) :
    unmarshalFixedText n (.string (marshalText n x)) = some x := by
  rw [unmarshalFixedText_marshalText, Nat.mod_eq_of_lt h]

end Hubblenet.Lib.Json
