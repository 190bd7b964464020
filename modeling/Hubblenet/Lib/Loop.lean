import Mathlib

/-!
# Loops that need not end

A loop `for cond { body }` over a state `σ`: one pass either leaves the loop with a state (`.done`: the
condition failed, or the body reached a `break` or a `return`) or goes round again (`.yield`). `loop body n s`
runs at most `n` passes from `s` and gives the state the loop left with, or `none` when the passes ran out.
A loop *ends* from `s` when some `n` gives `some`; more passes then give the same state (`loop_add`).

Three rules settle a loop without unfolding it:
* `loop_of_variant`: a measure that every pass going round lowers, on states of an invariant, bounds the passes
  (the loop ends within `μ s + 1` passes);
* `loop_invariant`: a property every pass going round keeps, and from which a pass leaving gives `Q`, gives `Q`
  of the final state;
* `loop_eq_none`: a property from which every pass goes round again, to a state with it, means that no number
  of passes is enough: the loop does not end.

A list kept as links, a head and for each element the next one with `nil` ending it (`ListedFrom`), is walked
by a loop that goes from a node to its link or stops at it: the loop stops at a node of the list within one pass
more than the list is long (`loop_of_listedFrom`). On a list sorted for a strict order the link of a node reaches
every later node or lies before it (`ListedFrom.next_rel`).
-/

namespace Hubblenet.Lib

variable {σ : Type*} (body : σ → ForInStep σ)

/-- At most `n` passes of `body` from `s`: the state the loop left with, or `none` when the passes ran out. -/
def loop : Nat → σ → Option σ
  | 0, _ => none
  | n + 1, s =>
    match body s with
    | .done s' => some s'
    | .yield s' => loop n s'

/-- The loop ends from `s`. -/
def Ends (s : σ) : Prop := ∃ n r, loop body n s = some r

variable {body}

theorem loop_succ_done {s s' : σ} (n : Nat) (h : body s = .done s') : loop body (n + 1) s = some s' := by
  simp [loop, h]

theorem loop_succ_yield {s s' : σ} (n : Nat) (h : body s = .yield s') :
    loop body (n + 1) s = loop body n s' := by
  simp [loop, h]

/-- A loop that left with a state leaves with it whatever further passes it is given. -/
theorem loop_add {n : Nat} {s r : σ} (h : loop body n s = some r) (k : Nat) : loop body (n + k) s = some r := by
  induction n generalizing s with
  | zero => cases h
  | succ n ih =>
    cases hb : body s with
    | done s' =>
      rw [loop_succ_done n hb] at h
      rw [Nat.add_right_comm, loop_succ_done _ hb, h]
    | yield s' =>
      rw [loop_succ_yield n hb] at h
      rw [Nat.add_right_comm, loop_succ_yield _ hb]
      exact ih h

theorem loop_mono {n m : Nat} {s r : σ} (h : loop body n s = some r) (hnm : n ≤ m) : loop body m s = some r := by
  obtain ⟨k, rfl⟩ := Nat.exists_eq_add_of_le hnm
  exact loop_add h k

section Rules

variable (P Q : σ → Prop)

/-- Termination: passes that go round lower `μ` and keep `P`, so from `s` the loop ends within `μ s + 1` passes. -/
theorem loop_of_variant (μ : σ → Nat)
    (hstep : ∀ s s', P s → body s = .yield s' → P s' ∧ μ s' < μ s) {s : σ} (hs : P s) :
    ∃ r, loop body (μ s + 1) s = some r := by
  -- strong induction on the measure of the state the loop is in
  induction hμ : μ s using Nat.strongRecOn generalizing s with
  | _ m ih =>
    subst hμ
    cases hb : body s with
    | done s' => exact ⟨s', loop_succ_done _ hb⟩
    | yield s' =>
      obtain ⟨hs', hlt⟩ := hstep s s' hs hb
      obtain ⟨r, hr⟩ := ih (μ s') hlt hs' rfl
      refine ⟨r, ?_⟩
      rw [loop_succ_yield _ hb]
      exact loop_mono hr hlt

/-- Partial correctness: an invariant of the passes that go round, and what a pass that leaves gives. -/
theorem loop_invariant (hyield : ∀ s s', P s → body s = .yield s' → P s')
    (hdone : ∀ s s', P s → body s = .done s' → Q s') {n : Nat} {s r : σ} (hs : P s)
    (h : loop body n s = some r) : Q r := by
  induction n generalizing s with
  | zero => cases h
  | succ n ih =>
    cases hb : body s with
    | done s' =>
      rw [loop_succ_done n hb, Option.some.injEq] at h
      exact h ▸ hdone s s' hs hb
    | yield s' =>
      rw [loop_succ_yield n hb] at h
      exact ih (hyield s s' hs hb) h

/-- Divergence: from a state of `P` every pass goes round to a state of `P`, so no number of passes is enough. -/
theorem loop_eq_none (hstep : ∀ s, P s → ∃ s', body s = .yield s' ∧ P s') {s : σ} (hs : P s) (n : Nat) :
    loop body n s = none := by
  induction n generalizing s with
  | zero => rfl
  | succ n ih =>
    obtain ⟨s', hb, hs'⟩ := hstep s hs
    rw [loop_succ_yield n hb]
    exact ih hs'

end Rules

/-! ## Lists linked through a map -/

section Linked

/-- `l` is the list linked from `x` through `next`, `nil` ending it. -/
def ListedFrom (next : σ → σ) (nil : σ) : σ → List σ → Prop
  | x, [] => x = nil
  | x, a :: l => x = a ∧ a ≠ nil ∧ ListedFrom next nil (next a) l

variable {next : σ → σ} {nil : σ}

theorem ListedFrom.head_mem : ∀ {l : List σ} {x : σ}, ListedFrom next nil x l → x ≠ nil → x ∈ l
  | [], _, hl, hx => absurd hl hx
  | _ :: _, _, ⟨rfl, _, _⟩, _ => List.mem_cons_self

theorem ListedFrom.ne_nil_iff : ∀ {l : List σ} {x : σ}, ListedFrom next nil x l → (x ≠ nil ↔ l ≠ [])
  | [], _, hx => by simp [ListedFrom] at hx; simp [hx]
  | _ :: _, _, ⟨rfl, hb, _⟩ => by simp [hb]

/-- On a list sorted for an asymmetric `R`, the link of `a` reaches `b` or lies between them. -/
theorem ListedFrom.next_rel {R : σ → σ → Prop} (hR : ∀ a b, R a b → ¬ R b a) :
    ∀ {l : List σ} {x : σ}, ListedFrom next nil x l → l.Pairwise R →
      ∀ {a b : σ}, a ∈ l → b ∈ l → R a b →
      next a = b ∨ next a ∈ l ∧ R (next a) b
  | [], _, _, _, _, _, ha, _, _ => by cases ha
  | c :: l, _, ⟨_, _, hl⟩, hs, a, b, ha, hb, hab => by
    obtain ⟨hc, htail⟩ := List.pairwise_cons.mp hs
    rcases List.mem_cons.mp ha with rfl | ha'
    · rcases List.mem_cons.mp hb with rfl | hb'
      · exact absurd hab (hR _ _ hab)
      · -- `b` comes after `a`, so the list goes on past `a`, to its link
        cases l with
        | nil => cases hb'
        | cons d l =>
          obtain ⟨hd, -, -⟩ := hl
          rcases List.mem_cons.mp hb' with rfl | hb''
          · exact .inl hd
          · exact .inr ⟨hd ▸ List.mem_cons_of_mem _ List.mem_cons_self,
              hd ▸ (List.pairwise_cons.mp htail).1 b hb''⟩
    · rcases List.mem_cons.mp hb with rfl | hb'
      · exact absurd (hc a ha') (hR _ _ hab)
      · rcases hl.next_rel hR htail ha' hb' hab with h | ⟨hmem, hrel⟩
        · exact .inl h
        · exact .inr ⟨List.mem_cons_of_mem _ hmem, hrel⟩

/-- A loop that walks a linked list, either going on to the link of a node or stopping at it, stops at a node of
the list within one pass more than the list is long. -/
theorem loop_of_listedFrom (P Q : σ → Prop)
    (hpass : ∀ c, P c → c ≠ nil →
      (body c = .yield (next c) ∧ next c ≠ nil ∧ P (next c)) ∨ (body c = .done c ∧ Q c)) :
    ∀ {l : List σ} {x : σ} {n : Nat}, ListedFrom next nil x l → x ≠ nil → P x → l.length < n →
      ∃ r ∈ l, loop body n x = some r ∧ Q r
  | [], _, _, hl, hx, _, _ => absurd hl hx
  | a :: l, _, n + 1, ⟨rfl, ha, hl⟩, _, hP, hn => by
    rcases hpass _ hP ha with ⟨hb, hnext, hPnext⟩ | ⟨hb, hQ⟩
    · obtain ⟨r, hr, hloop, hQ⟩ := loop_of_listedFrom P Q hpass hl hnext hPnext (by simp at hn; omega)
      exact ⟨r, List.mem_cons_of_mem _ hr, by rw [loop_succ_yield n hb, hloop], hQ⟩
    · exact ⟨_, List.mem_cons_self, loop_succ_done n hb, hQ⟩

end Linked

end Hubblenet.Lib
