import Mathlib

/-!
# A heap of records behind pointers, and maps over it

A `Heap α` is the list of the records a program has allocated; pointer `p` reaches the `p`-th. Allocation
appends (`alloc`, whose pointer is the old length and which leaves every older record in place:
`read_alloc_new`, `read_alloc_old`), a write through a pointer replaces one record (`read_write_same`,
`read_write_other`). A read is total: a pointer the program holds is always in range, and the models state
that as an invariant where they need it.

`mapVals` rewrites every value of an association list and keeps its keys (`lookup_mapVals`).
-/

namespace Hubblenet.Lib

/-- The records behind pointers `0, 1, …`. -/
abbrev Heap (α : Type*) := List α

namespace Heap

variable {α : Type*}

/-- A new record; its pointer is `h.length`. -/
def alloc (h : Heap α) (x : α) : Heap α := h ++ [x]

/-- The record at `p` replaced by `x`. -/
def write (h : Heap α) (p : Nat) (x : α) : Heap α := h.set p x

@[simp] theorem length_alloc (h : Heap α) (x : α) : (h.alloc x).length = h.length + 1 := by
  simp [alloc]

@[simp] theorem length_write (h : Heap α) (p : Nat) (x : α) : (h.write p x).length = h.length := by
  simp [write]

variable [Inhabited α]

/-- The record pointer `p` reaches. -/
def read (h : Heap α) (p : Nat) : α := h.getD p default

@[simp] theorem read_alloc_new (h : Heap α) (x : α) : (h.alloc x).read h.length = x := by
  simp [read, alloc]

theorem read_alloc_old {h : Heap α} {p : Nat} (hp : p < h.length) (x : α) : (h.alloc x).read p = h.read p := by
  simp [read, alloc, List.getD_eq_getElem?_getD, List.getElem?_append_left hp]

@[simp] theorem read_write_same {h : Heap α} {p : Nat} (hp : p < h.length) (x : α) : (h.write p x).read p = x := by
  simp [read, write, List.getD_eq_getElem?_getD, hp]

theorem read_write_other (h : Heap α) {p q : Nat} (hpq : q ≠ p) (x : α) : (h.write p x).read q = h.read q := by
  simp [read, write, List.getD_eq_getElem?_getD, Ne.symm hpq]

theorem read_append_left {h : Heap α} {p : Nat} (hp : p < h.length) (h' : Heap α) :
    read (h ++ h') p = h.read p := by
  simp [read, List.getD_eq_getElem?_getD, List.getElem?_append_left hp]

theorem read_append_right (h h' : Heap α) (p : Nat) : read (h ++ h') (h.length + p) = h'.read p := by
  simp [read, List.getD_eq_getElem?_getD, List.getElem?_append_right]

/-- A block appended after `h`, read back at `h.length, h.length + 1, …`. -/
theorem map_read_append_range (h l rest : Heap α) :
    (List.range l.length).map (fun i => read (h ++ (l ++ rest)) (h.length + i)) = l := by
  apply List.ext_getElem (by simp)
  intro i h₁ h₂
  rw [List.getElem_map, List.getElem_range, read_append_right, read_append_left h₂, read,
    List.getD_eq_getElem?_getD, List.getElem?_eq_getElem h₂, Option.getD_some]

end Heap

section MapVals

variable {K : Type*} [DecidableEq K] {V W : Type*}

/-- Every value rewritten by `f`. -/
def mapVals (f : V → W) (m : AList (fun _ : K => V)) : AList (fun _ : K => W) :=
  ⟨m.entries.map (Sigma.map id fun _ => f), m.nodupKeys.map₂ _ _⟩

@[simp] theorem lookup_mapVals (f : V → W) (m : AList (fun _ : K => V)) (k : K) :
    (mapVals f m).lookup k = (m.lookup k).map f := by
  simp only [mapVals, AList.lookup]
  exact List.dlookup_map₂ k

end MapVals

end Hubblenet.Lib
