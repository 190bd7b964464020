import Hubblenet.Lib.Slice

/-!
# Binary search over an index range

`search n f` is the halving loop of a `sort.Search`-style binary search: it keeps a range `[i, j)` with `f` false
below `i` and true from `j` on (reading index `n` as true), halves it at `(i + j) / 2`, and returns `i` once the
range is empty. Nothing is assumed of `f` for the loop to end (`searchLoop_le`). For a predicate that is monotone
below `n` (`MonotoneBelow`) the result is the least index where `f` holds, or `n` when there is none
(`search_spec`): `f` fails everywhere below it and holds everywhere from it up to `n`.

Inserting an element at the position such a search finds keeps a list sorted (`pairwise_insertAt_search`): the
predicate asks, of each element `y`, whether the new element goes before `y`, and it has to agree with the order.
-/

namespace Hubblenet.Lib

/-- The loop of the search on the range `[i, j)`. -/
def searchLoop (f : Nat → Bool) (i j : Nat) : Nat :=
  if i < j then
    if !f ((i + j) / 2) then searchLoop f ((i + j) / 2 + 1) j else searchLoop f i ((i + j) / 2)
  else i
termination_by j - i

/-- The search over `[0, n)`. -/
def search (n : Nat) (f : Nat → Bool) : Nat := searchLoop f 0 n

/-- `f` is monotone below `n`: once it holds at an index, it holds at every later index below `n`. -/
def MonotoneBelow (n : Nat) (f : Nat → Bool) : Prop :=
  ∀ a b, a ≤ b → b < n → f a = true → f b = true

/-- The loop never goes past the right end of its range. -/
theorem searchLoop_le (f : Nat → Bool) (i j : Nat) (h : i ≤ j) : searchLoop f i j ≤ j := by
  fun_induction searchLoop f i j with
  | case1 i j hij hf ih => exact ih (by omega)
  | case2 i j hij hf ih => have := ih (by omega); omega
  | case3 i j hij => omega

/-- The two loop invariants carry through the loop: `f` fails below the left end and holds from the right end
up to `n`; at the end the ends meet. -/
theorem searchLoop_spec {n : Nat} {f : Nat → Bool} (hf : MonotoneBelow n f) (i j : Nat) (hij : i ≤ j)
    (hjn : j ≤ n) (hlo : ∀ k < i, f k = false) (hhi : ∀ k, j ≤ k → k < n → f k = true) :
    (∀ k < searchLoop f i j, f k = false) ∧ (∀ k, searchLoop f i j ≤ k → k < n → f k = true) := by
  fun_induction searchLoop f i j with
  | case1 i j hlt hmid ih =>
    -- `f` fails at the midpoint, so by monotonicity it fails on the whole left half
    refine ih (by omega) hjn (fun k hk => ?_) hhi
    rcases Nat.lt_or_ge k i with hki | hki
    · exact hlo k hki
    · cases hk' : f k with
      | false => rfl
      | true =>
        have := hf k ((i + j) / 2) (by omega) (by omega) hk'
        simp_all
  | case2 i j hlt hmid ih =>
    -- `f` holds at the midpoint, so it holds from there on
    refine ih (by omega) (by omega) hlo (fun k hk hkn => hf ((i + j) / 2) k hk hkn ?_)
    simpa using hmid
  | case3 i j hge =>
    have hji : j = i := by omega
    subst hji
    exact ⟨hlo, hhi⟩

/-- **The search finds the least index where a monotone predicate holds.** -/
theorem search_spec {n : Nat} {f : Nat → Bool} (hf : MonotoneBelow n f) :
    search n f ≤ n ∧ (∀ k < search n f, f k = false) ∧ (∀ k, search n f ≤ k → k < n → f k = true) :=
  ⟨searchLoop_le f 0 n (Nat.zero_le n),
    searchLoop_spec hf 0 n (Nat.zero_le n) (Nat.le_refl n) (fun _ h => absurd h (Nat.not_lt_zero _))
      (fun _ h h' => by omega)⟩

/-! ## Sorted insertion -/

section Insert

variable {α : Type*}

theorem getD_of_lt {l : List α} {i : Nat} (d : α) (h : i < l.length) : l.getD i d = l[i] := by
  simp [List.getD_eq_getElem?_getD, h]

/-- **Inserting at the searched position keeps a list sorted.** The search asks `f y` of each element `y`: `f y`
says that `x` goes before `y` (`htrue`), its failure that `y` goes before `x` (`hfalse`), and it stays true
along the order (`hmono`). -/
theorem pairwise_insertAt_search {R : α → α → Prop} {l : List α} {x d : α} {f : α → Bool}
    (hl : l.Pairwise R) (htrue : ∀ y ∈ l, f y = true → R x y) (hfalse : ∀ y ∈ l, f y = false → R y x)
    (hmono : ∀ y ∈ l, ∀ z ∈ l, f y = true → R y z → f z = true) :
    (insertAt l (search l.length fun i => f (l.getD i d)) x).Pairwise R := by
  -- a sorted list makes the search predicate monotone
  have hg : MonotoneBelow l.length (fun i => f (l.getD i d)) := by
    intro a b hab hb ha
    simp only at ha ⊢
    rcases Nat.lt_or_eq_of_le hab with hlt | rfl
    · have hR := List.pairwise_iff_getElem.mp hl a b (by omega) hb hlt
      rw [getD_of_lt d (by omega)] at ha
      rw [getD_of_lt d hb]
      exact hmono _ (List.getElem_mem _) _ (List.getElem_mem _) ha hR
    · exact ha
  obtain ⟨hkn, hbelow, habove⟩ := search_spec hg
  apply pairwise_insertAt hl
  · intro y hy
    obtain ⟨j, hj, rfl⟩ := List.mem_take_iff_getElem.mp hy
    have hfj := hbelow j (by omega)
    simp only [getD_of_lt d (show j < l.length by omega)] at hfj
    exact hfalse _ (List.getElem_mem _) hfj
  · intro y hy
    obtain ⟨j, hj, rfl⟩ := List.mem_drop_iff_getElem.mp hy
    have hj' : search l.length (fun i => f (l.getD i d)) + j < l.length := by omega
    have hfj := habove _ (Nat.le_add_right _ j) (by omega)
    simp only [getD_of_lt d hj'] at hfj
    exact htrue _ (List.getElem_mem _) hfj

end Insert

end Hubblenet.Lib
