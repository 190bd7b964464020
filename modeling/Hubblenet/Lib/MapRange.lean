import Mathlib

/-!
# Loops over a map that write the visited key

A `range` loop over a map visits its entries in an order the runtime chooses. When the body of the loop writes,
for the entry it visits, only that entry's key of the map it builds (`WritesKey`), and what it writes there depends
only on what that map held at the key, then the map the loop leaves holds at every key what one visit of that key
makes of the map it started from (`lookup_foldl_of_writesKey`). The order of the visits drops out: every visit order
of the same entries leaves the same map, key by key.

A key the loop visits holds what its visit wrote (`lookup_foldl_of_dlookup_some`), any other key what it held
(`lookup_foldl_of_dlookup_none`). The two bodies of this kind the models meet: `if p(k, v) { out[k] = f(k, v) }`
(`lookup_foldl_insertIf`), and `if v == z { delete(out, k) } else { out[k] = v }` (`lookup_foldl_setOrErase`).
-/

namespace Hubblenet.Lib

variable {K V W : Type*} [DecidableEq K]

/-- The body of a loop writes the key it visits and no other, as a function of what the map held there. -/
structure WritesKey (g : AList (fun _ : K => W) → (Σ _ : K, V) → AList (fun _ : K => W)) : Prop where
  other : ∀ m e k, k ≠ e.1 → (g m e).lookup k = m.lookup k
  own : ∀ m m' e, m.lookup e.1 = m'.lookup e.1 → (g m e).lookup e.1 = (g m' e).lookup e.1

/-- A loop over entries with distinct keys whose body writes the visited key leaves at each key what the visit of
that key makes of the starting map, whatever the order of the visits. -/
theorem lookup_foldl_of_writesKey {g : AList (fun _ : K => W) → (Σ _ : K, V) → AList (fun _ : K => W)}
    (hg : WritesKey g) :
    ∀ {l : List (Σ _ : K, V)}, l.NodupKeys → ∀ (init : AList (fun _ : K => W)) (k : K),
      (l.foldl g init).lookup k = match l.dlookup k with
        | some v => (g init ⟨k, v⟩).lookup k
        | none => init.lookup k
  | [], _, _, _ => rfl
  | ⟨k', v'⟩ :: l, hl, init, k => by
    obtain ⟨hk', hl⟩ := List.nodupKeys_cons.mp hl
    rw [List.foldl_cons, lookup_foldl_of_writesKey hg hl]
    by_cases hk : k = k'
    · -- the visit of `k` is the only one, and the later visits leave it
      subst hk
      rw [List.dlookup_eq_none.mpr hk', List.dlookup_cons_eq]
    · rw [List.dlookup_cons_ne _ _ hk]
      have hinit : (g init ⟨k', v'⟩).lookup k = init.lookup k := hg.other init ⟨k', v'⟩ k hk
      cases l.dlookup k with
      | none => exact hinit
      | some v => exact hg.own _ _ ⟨k, v⟩ hinit

section Bodies

variable {l : List (Σ _ : K, V)} {k : K}

/-- A key the loop visits holds what its visit wrote. -/
theorem lookup_foldl_of_dlookup_some {g : AList (fun _ : K => W) → (Σ _ : K, V) → AList (fun _ : K => W)}
    (hg : WritesKey g) (hl : l.NodupKeys) (init : AList (fun _ : K => W)) {v : V} (hk : l.dlookup k = some v) :
    (l.foldl g init).lookup k = (g init ⟨k, v⟩).lookup k := by
  rw [lookup_foldl_of_writesKey hg hl, hk]

/-- A key the loop does not visit holds what it held. -/
theorem lookup_foldl_of_dlookup_none {g : AList (fun _ : K => W) → (Σ _ : K, V) → AList (fun _ : K => W)}
    (hg : WritesKey g) (hl : l.NodupKeys) (init : AList (fun _ : K => W)) (hk : l.dlookup k = none) :
    (l.foldl g init).lookup k = init.lookup k := by
  rw [lookup_foldl_of_writesKey hg hl, hk]

variable (p : (Σ _ : K, V) → Bool) (f : (Σ _ : K, V) → W)

/-- `if p(k, v) { out[k] = f(k, v) }`. -/
def insertIf (m : AList (fun _ : K => W)) (e : Σ _ : K, V) : AList (fun _ : K => W) :=
  if p e then m.insert e.1 (f e) else m

theorem writesKey_insertIf : WritesKey (insertIf p f) where
  other m e k hk := by
    unfold insertIf
    split_ifs
    · exact AList.lookup_insert_ne hk
    · rfl
  own m m' e h := by
    unfold insertIf
    split_ifs
    · rw [AList.lookup_insert, AList.lookup_insert]
    · exact h

theorem lookup_foldl_insertIf (hl : l.NodupKeys) (init : AList (fun _ : K => W)) {v : V} (hk : l.dlookup k = some v) :
    (l.foldl (insertIf p f) init).lookup k = if p ⟨k, v⟩ then some (f ⟨k, v⟩) else init.lookup k := by
  rw [lookup_foldl_of_dlookup_some (writesKey_insertIf p f) hl init hk, insertIf]
  split_ifs
  · exact AList.lookup_insert _
  · rfl

/-- `if v == z { delete(out, k) } else { out[k] = v }`. -/
def setOrErase [DecidableEq V] (z : V) (m : AList (fun _ : K => V)) (e : Σ _ : K, V) : AList (fun _ : K => V) :=
  if e.2 = z then m.erase e.1 else m.insert e.1 e.2

theorem writesKey_setOrErase [DecidableEq V] (z : V) : WritesKey (setOrErase (K := K) z) where
  other m e k hk := by
    unfold setOrErase
    split_ifs
    · exact AList.lookup_erase_ne hk
    · exact AList.lookup_insert_ne hk
  own m m' e _ := by
    unfold setOrErase
    split_ifs
    · rw [AList.lookup_erase, AList.lookup_erase]
    · rw [AList.lookup_insert, AList.lookup_insert]

theorem lookup_foldl_setOrErase [DecidableEq V] (z : V) {l : List (Σ _ : K, V)} (hl : l.NodupKeys)
    (init : AList (fun _ : K => V)) {v : V} (hk : l.dlookup k = some v) :
    (l.foldl (setOrErase z) init).lookup k = if v = z then none else some v := by
  rw [lookup_foldl_of_dlookup_some (writesKey_setOrErase z) hl init hk, setOrErase]
  split_ifs
  · exact AList.lookup_erase _ _
  · exact AList.lookup_insert _

end Bodies

end Hubblenet.Lib
