import Mathlib

/-!
# What the models take from the Go language

* `Panic`: the run-time panics the modelled code can raise. Code that only computes returns `Except Panic _`, or
  `Except (Failure ε) _` when it also returns an error;
  code that mutates state returns an `Outcome`: the state at the point where it stopped, and the panic if it
  stopped on one (a recovered panic leaves the mutations made before it in place).
* `GoMap K V`: a built-in map, an association list with distinct keys (Mathlib's `AList`). A `range` loop over a
  map visits its entries in an order the runtime chooses afresh on each loop; a model of such a loop takes the
  order as an argument, a permutation of `entries`.
* `math/big`: values are `Int`. `Div` and `Mod` are Euclidean like Lean's `/` and `%`, but panic on a zero
  divisor (`bigMod`); `Int64()` and `Uint64()` keep the low 64 bits of the magnitude (`toInt64`, `toUint64`).
* Early returns: a check `if c { return err }` is a `do` block's `if c then throw e`, and the block returns only
  when `c` fails and the rest of it returns (`ite_throw_bind_eq_ok`; a check made only when `b` holds,
  `ite_guard_throw_bind_eq_ok`). Two blocks return together when their first steps do and their rests do after
  them (`exists_bind_eq_ok_iff`).
-/

namespace Hubblenet.Go

/-- The run-time panics of the modelled code. -/
inductive Panic where
  /-- a field read or a method call through a nil pointer -/
  | nilDereference
  /-- `Div`, `Mod` or `/` with a zero divisor -/
  | divisionByZero
  /-- a slice index out of range -/
  | indexOutOfRange
  /-- a type assertion `x.(T)` on a value of another dynamic type -/
  | typeAssertion
  deriving DecidableEq, Repr

/-- How a call that returns an `error`, and may panic, ends when it does not return normally: with the error it
returns (with what its caller reads beside it), or on a panic. -/
inductive Failure (ε : Type) where
  | error (e : ε)
  | panic (p : Panic)
  deriving DecidableEq, Repr

/-- The state a mutating call leaves, and the panic it stopped on, if any. -/
structure Outcome (σ : Type*) where
  state : σ
  panic : Option Panic
  deriving DecidableEq, Repr

/-- A built-in map `map[K]V`. -/
abbrev GoMap (K V : Type*) := AList (fun _ : K => V)

/-- `new(big.Int).Mod(x, y)`: the Euclidean remainder, in `[0, |y|)`; a zero `y` panics. -/
def bigMod (x y : Int) : Except Panic Int :=
  if y = 0 then .error .divisionByZero else .ok (x % y)

/-- `new(big.Int).Div(x, y)`: the Euclidean quotient; a zero `y` panics. -/
def bigDiv (x y : Int) : Except Panic Int :=
  if y = 0 then .error .divisionByZero else .ok (x / y)

/-- The conversion of an integer to `int64`: two's complement wrap-around. -/
def wrapInt64 (v : Int) : Int := (v + 2 ^ 63) % 2 ^ 64 - 2 ^ 63

/-- `x.Int64()`: the low 64 bits of `|x|` read as an `int64`, negated when `x` is negative. -/
def toInt64 (x : Int) : Int :=
  let v := wrapInt64 (x.natAbs % 2 ^ 64)
  if x < 0 then wrapInt64 (-v) else v

/-- `x.Uint64()`: the low 64 bits of `|x|`. -/
def toUint64 (x : Int) : Nat := x.natAbs % 2 ^ 64

@[simp] theorem bigMod_of_ne {x y : Int} (h : y ≠ 0) : bigMod x y = .ok (x % y) := if_neg h

@[simp] theorem bigMod_zero (x : Int) : bigMod x 0 = .error .divisionByZero := if_pos rfl

/-- A `do` block that passes the check `if c then throw e` returns what the rest of it returns. -/
theorem ite_throw_bind_eq_ok {ε α : Type} {c : Prop} [Decidable c] {e : ε} {rest : Unit → Except ε α} {r : α} :
    (if c then throw e >>= rest else rest ()) = .ok r ↔ ¬c ∧ rest () = .ok r := by
  by_cases hc : c <;> simp [hc, throw, throwThe, MonadExceptOf.throw, bind, Except.bind]

/-- A `do` block that passes the check `if c then throw e`, made only when `b` holds, returns what the rest of it
returns. -/
theorem ite_guard_throw_bind_eq_ok {ε α : Type} {b c : Prop} [Decidable b] [Decidable c] {e : ε}
    {rest : Unit → Except ε α} {r : α} :
    (if b then (if c then throw e >>= rest else rest ()) else rest ()) = .ok r ↔ (b → ¬c) ∧ rest () = .ok r := by
  by_cases hb : b
  · simp [hb, ite_throw_bind_eq_ok]
  · simp [hb]

/-- Two `do` blocks return together when their first steps return together and, after them, their rests do. -/
theorem exists_bind_eq_ok_iff {ε α α' β β' : Type} {x : Except ε α} {x' : Except ε α'} {f : α → Except ε β}
    {g : α' → Except ε β'} (hx : (∃ a, x = .ok a) ↔ ∃ a', x' = .ok a')
    (hf : ∀ a a', x = .ok a → x' = .ok a' → ((∃ r, f a = .ok r) ↔ ∃ r, g a' = .ok r)) :
    (∃ r, x >>= f = .ok r) ↔ ∃ r, x' >>= g = .ok r := by
  cases x with
  | error e =>
    cases x' with
    | error e' => simp [bind, Except.bind]
    | ok a' => simp at hx
  | ok a =>
    cases x' with
    | error e' => simp at hx
    | ok a' => exact hf a a' rfl rfl

/-- A remainder that `Mod` reports as zero is a divisibility. -/
theorem dvd_of_bigMod_eq {x y r : Int} (h : bigMod x y = .ok r) (hr : r = 0) : y ∣ x := by
  unfold bigMod at h
  split at h
  · cases h
  · cases h
    exact Int.dvd_of_emod_eq_zero hr

end Hubblenet.Go
