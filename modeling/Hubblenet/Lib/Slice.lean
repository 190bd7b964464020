import Mathlib

/-!
# Slices edited in place

Two idioms on a slice `s` of a garbage-collected language, read as lists:

* `insertAt s k x` is `s = append(s, zero); copy(s[k+1:], s[k:]); s[k] = x`: `x` lands at position `k`
  (`insertAt_perm`), and a list sorted for `R` stays sorted when everything before `k` comes before `x` and
  everything from `k` on comes after it (`pairwise_insertAt`);
* `removeAt s k` is `append(s[:k], s[k+1:]...)`; removing the first position a search finds is `eraseP`
  (`removeFirst_eq_eraseP`), so it keeps every sortedness and every `Nodup`.

A loop over a sorted slice that breaks at the first element failing a test visits every element that passes it,
when failing the test is inherited along the order (`takeWhile_eq_filter_of_pairwise`).

A loop that takes elements while a running total is negative, adding what each one releases, takes a greedy prefix
(`GreedyPrefix`): the first `k` elements, where `k` is the first count at which the total is no longer negative, or
all of them.

An unstable sort (`sort.Slice`) may leave a list in any order sorted for its less function (`SortedBy`); where the
less function orders every two different elements one way or the other, that order is unique, whatever order the
list came in (`SortedBy.eq`).
-/

namespace Hubblenet.Lib

variable {α : Type*}

/-- `x` inserted at position `k` by shifting the tail one slot right. -/
def insertAt (l : List α) (k : Nat) (x : α) : List α := l.take k ++ x :: l.drop k

/-- Position `k` removed by appending the tail after it to the head before it. -/
def removeAt (l : List α) (k : Nat) : List α := l.take k ++ l.drop (k + 1)

/-- Remove the first element `p` finds, or nothing when `p` finds none. -/
def removeFirst (l : List α) (p : α → Bool) : List α :=
  match l.findIdx? p with
  | none => l
  | some i => removeAt l i

theorem insertAt_perm (l : List α) (k : Nat) (x : α) : (insertAt l k x).Perm (x :: l) := by
  unfold insertAt
  calc (l.take k ++ x :: l.drop k).Perm (x :: (l.take k ++ l.drop k)) := List.perm_middle
    _ = x :: l := by rw [List.take_append_drop]

@[simp] theorem mem_insertAt {l : List α} {k : Nat} {x y : α} : y ∈ insertAt l k x ↔ y = x ∨ y ∈ l :=
  (insertAt_perm l k x).mem_iff.trans List.mem_cons

theorem nodup_insertAt {l : List α} {k : Nat} {x : α} (hl : l.Nodup) (hx : x ∉ l) : (insertAt l k x).Nodup :=
  (insertAt_perm l k x).nodup_iff.mpr (List.nodup_cons.mpr ⟨hx, hl⟩)

/-- Inserting between the elements that come before `x` and those that come after it keeps a list sorted. -/
theorem pairwise_insertAt {R : α → α → Prop} {l : List α} {k : Nat} {x : α} (hl : l.Pairwise R)
    (hb : ∀ y ∈ l.take k, R y x) (ha : ∀ y ∈ l.drop k, R x y) : (insertAt l k x).Pairwise R := by
  have hsplit : (l.take k ++ l.drop k).Pairwise R := by rwa [List.take_append_drop]
  obtain ⟨htake, hdrop, hcross⟩ := List.pairwise_append.mp hsplit
  refine List.pairwise_append.mpr ⟨htake, List.pairwise_cons.mpr ⟨ha, hdrop⟩, ?_⟩
  intro a hamem b hbmem
  rcases List.mem_cons.mp hbmem with rfl | hb'
  · exact hb a hamem
  · exact hcross a hamem b hb'

/-- Erasing what was inserted gives back the list it was inserted into. -/
theorem erase_insertAt [BEq α] [LawfulBEq α] {l : List α} {k : Nat} {x : α} (hx : x ∉ l) :
    (insertAt l k x).erase x = l := by
  unfold insertAt
  rw [List.erase_append_right _ (fun h => hx (List.mem_of_mem_take h)), List.erase_cons_head, List.take_append_drop]

theorem removeFirst_eq_eraseP (l : List α) (p : α → Bool) : removeFirst l p = l.eraseP p := by
  rw [List.eraseP_eq_eraseIdx, removeFirst]
  cases l.findIdx? p <;> simp [removeAt, List.eraseIdx_eq_take_drop_succ]

/-- When `p` picks out exactly `x` on a duplicate-free list, removing the first match is erasing `x`. -/
theorem removeFirst_eq_erase [DecidableEq α] {l : List α} {p : α → Bool} {x : α}
    (hp : ∀ y ∈ l, p y = true ↔ y = x) : removeFirst l p = l.erase x := by
  rw [removeFirst_eq_eraseP, List.erase_eq_eraseP']
  induction l with
  | nil => rfl
  | cons y ys ih =>
    have hy := hp y List.mem_cons_self
    rw [List.eraseP_cons, List.eraseP_cons]
    by_cases hyx : y = x
    · subst hyx
      simp [hy.mpr rfl]
    · have hpy : p y = false := by simpa [hyx] using hy
      have hbeq : (y == x) = false := by simpa using hyx
      simp [hpy, hbeq, ih (fun z hz => hp z (List.mem_cons_of_mem _ hz))]

/-- Breaking at the first element that fails `p` misses none that passes it, on a list sorted for an order along
which failing `p` is inherited. -/
theorem takeWhile_eq_filter_of_pairwise {R : α → α → Prop} {p : α → Bool}
    (hp : ∀ a b, R a b → p a = false → p b = false) :
    ∀ {l : List α}, l.Pairwise R → l.takeWhile p = l.filter p
  | [], _ => rfl
  | a :: l, hl => by
    obtain ⟨ha, hl⟩ := List.pairwise_cons.mp hl
    by_cases hpa : p a
    · rw [List.takeWhile_cons_of_pos hpa, List.filter_cons_of_pos hpa, takeWhile_eq_filter_of_pairwise hp hl]
    · -- everything after `a` comes after it, so fails `p` with it
      have hrest : l.filter p = [] :=
        List.filter_eq_nil_iff.mpr fun b hb => by simpa using hp a b (ha b hb) (by simpa using hpa)
      rw [List.takeWhile_cons_of_neg hpa, List.filter_cons_of_neg hpa, hrest]

section Greedy

variable {r : α → Int} {a : Int}

/-- `picked` is what a greedy walk over `candidates` from the total `a` takes: the first `k` candidates, each taken
while the total with what those before it release is negative, and either all of them or up to a total that is not. -/
def GreedyPrefix (r : α → Int) (a : Int) (candidates picked : List α) : Prop :=
  ∃ k, picked = candidates.take k ∧ (∀ i < k, a + ((candidates.take i).map r).sum < 0) ∧
    (k = candidates.length ∨ 0 ≤ a + ((candidates.take k).map r).sum)

theorem GreedyPrefix.nil : GreedyPrefix r a [] [] := ⟨0, rfl, fun _ h => absurd h (Nat.not_lt_zero _), .inl rfl⟩

/-- From a total that is not negative the walk takes nothing. -/
theorem GreedyPrefix.of_nonneg (ha : 0 ≤ a) (candidates : List α) : GreedyPrefix r a candidates [] :=
  ⟨0, rfl, fun _ h => absurd h (Nat.not_lt_zero _), .inr (by simpa using ha)⟩

theorem GreedyPrefix.eq_nil_of_nonneg {candidates picked : List α} (ha : 0 ≤ a)
    (h : GreedyPrefix r a candidates picked) : picked = [] := by
  obtain ⟨k, rfl, hneg, -⟩ := h
  cases k with
  | zero => rfl
  | succ k =>
    have h0 := hneg 0 (Nat.succ_pos k)
    simp only [List.take_zero, List.map_nil, List.sum_nil] at h0
    omega

/-- Taking a candidate at a negative total, then walking on from the total with what it releases. -/
theorem GreedyPrefix.cons {x : α} {candidates picked : List α} (ha : a < 0)
    (h : GreedyPrefix r (a + r x) candidates picked) : GreedyPrefix r a (x :: candidates) (x :: picked) := by
  obtain ⟨k, rfl, hneg, hstop⟩ := h
  refine ⟨k + 1, rfl, fun i hi => ?_, ?_⟩
  · cases i with
    | zero => simpa using ha
    | succ i =>
      have hi' := hneg i (by omega)
      simp only [List.take_succ_cons, List.map_cons, List.sum_cons]
      omega
  · rcases hstop with rfl | hstop
    · exact .inl rfl
    · right
      simp only [List.take_succ_cons, List.map_cons, List.sum_cons]
      omega

end Greedy

section UnstableSort

variable {less : α → α → Bool} {l l' s s' : List α}

/-- `s` is an order an unstable sort by `less` may leave `l` in: a permutation of `l` in which no element is `less`
than one before it. -/
def SortedBy (less : α → α → Bool) (l s : List α) : Prop :=
  s.Perm l ∧ s.Pairwise fun a b => less b a = false

/-- Where `less` orders every two different elements of `l` one way or the other, every sort of `l`, and of every
permutation of `l`, is the same list. -/
theorem SortedBy.eq (hs : SortedBy less l s) (hs' : SortedBy less l' s') (hperm : l.Perm l')
    (htotal : ∀ a ∈ l, ∀ b ∈ l, a ≠ b → less a b = true ∨ less b a = true) : s = s' := by
  refine List.Perm.eq_of_pairwise ?_ hs.2 hs'.2 (hs.1.trans (hperm.trans hs'.1.symm))
  intro a b ha hb hba hab
  by_contra hne
  have hal : a ∈ l := hs.1.subset ha
  have hbl : b ∈ l := hperm.symm.subset (hs'.1.subset hb)
  rcases htotal a hal b hbl hne with h | h
  · exact absurd h (by simp [hab])
  · exact absurd h (by simp [hba])

end UnstableSort

end Hubblenet.Lib
