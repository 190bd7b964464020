import Mathlib

/-!
# Margin arithmetic of `hubbleutils`

Prices carry 6 decimals, quantities 18; `Div1e6` and `Div1e18` are `math/big`'s Euclidean division by a
positive constant, Lean's `/` on `Int`. `getRequiredMargin` is not odd in its quantity: on a quantity whose
notional is not a whole number of units the quotient rounds down on both signs, so reserving for `q` and then for
`-q` need not cancel (`processEvents_reorg_virtualReserved`).
-/

namespace Hubblenet

/-- `hu.Div1e6`. -/
def div1e6 (a : Int) : Int := a / 10 ^ 6

/-- `hu.Div1e18`. -/
def div1e18 (a : Int) : Int := a / 10 ^ 18

/-- `hu.Mul1e6`. -/
def mul1e6 (a : Int) : Int := a * 10 ^ 6

/-- `hu.GetRequiredMargin`: the margin a fill of `fillAmount` at `price` needs, fee included. -/
def getRequiredMargin (price fillAmount minAllowableMargin takerFee : Int) : Int :=
  let quoteAsset := fillAmount * price / 10 ^ 18
  quoteAsset * minAllowableMargin / 10 ^ 6 + quoteAsset * takerFee / 10 ^ 6

/-- With no fee, the margins of two quantities add up to at most the margin of their sum: both divisions round
down, and a sum rounds down at most as far as its parts together. -/
theorem getRequiredMargin_add_le {price a b mam : Int} (hmam : 0 ≤ mam) :
    getRequiredMargin price a mam 0 + getRequiredMargin price b mam 0 ≤ getRequiredMargin price (a + b) mam 0 := by
  unfold getRequiredMargin
  have hquote : a * price / 10 ^ 18 + b * price / 10 ^ 18 ≤ (a + b) * price / 10 ^ 18 := by
    rw [Int.add_mul]
    exact Int.ediv_add_ediv_le_add_ediv (by norm_num)
  simp only [Int.mul_zero, Int.zero_ediv, Int.add_zero]
  calc a * price / 10 ^ 18 * mam / 10 ^ 6 + b * price / 10 ^ 18 * mam / 10 ^ 6
      ≤ (a * price / 10 ^ 18 * mam + b * price / 10 ^ 18 * mam) / 10 ^ 6 :=
        Int.ediv_add_ediv_le_add_ediv (by norm_num)
    _ = (a * price / 10 ^ 18 + b * price / 10 ^ 18) * mam / 10 ^ 6 := by rw [Int.add_mul]
    _ ≤ (a + b) * price / 10 ^ 18 * mam / 10 ^ 6 :=
        Int.ediv_le_ediv (by norm_num) (Int.mul_le_mul_of_nonneg_right hquote hmam)

/-- The margins of the pieces of a quantity add up to at most the margin of the whole. -/
theorem sum_getRequiredMargin_le {price mam : Int} (hmam : 0 ≤ mam) (rest : Int) :
    ∀ qs : List Int, (qs.map fun q => getRequiredMargin price q mam 0).sum + getRequiredMargin price rest mam 0 ≤
      getRequiredMargin price (qs.sum + rest) mam 0
  | [] => by simp
  | q :: qs => by
    have ih := @sum_getRequiredMargin_le price mam hmam rest qs
    have hstep := @getRequiredMargin_add_le price q (qs.sum + rest) mam hmam
    simp only [List.map_cons, List.sum_cons]
    rw [Int.add_assoc q]
    omega

end Hubblenet
