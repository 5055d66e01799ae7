import Mathlib.Data.List.Nodup
import Mathlib.Data.List.Perm.Basic
import Mathlib.Logic.Function.Basic

/-!
Cells that are copied onto other cells, one copy after the other.
-/

namespace Copying

variable {α γ : Type}

/--
No two copies have the same destination, and no destination is a source.
-/
structure Separate (copies : List (α × α)) : Prop where
  nodup : (copies.map (·.2)).Nodup
  notMem : ∀ copy ∈ copies, copy.2 ∉ copies.map (·.1)

variable {copies copies' : List (α × α)}

theorem Separate.perm (h : Separate copies) (hperm : copies'.Perm copies) : Separate copies' := by
  constructor
  . rw [(hperm.map _).nodup_iff]
    exact h.nodup
  . intro copy hcopy
    rw [(hperm.map _).mem_iff]
    exact h.notMem copy (hperm.mem_iff.mp hcopy)

variable [DecidableEq α]

/--
The contents of the cells after the copies, each from a source to a destination, in this order.
-/
def execute (copies : List (α × α)) (contents : α → γ) : α → γ :=
  copies.foldl (fun contents copy => Function.update contents copy.2 (contents copy.1)) contents

variable {copy : α × α} {contents : α → γ}

theorem execute_append
    : execute (copies ++ copies') contents = execute copies' (execute copies contents) :=
  List.foldl_append ..

theorem execute_of_notMem {a : α} (h : a ∉ copies.map (·.2))
    : execute copies contents a = contents a := by
  induction copies generalizing contents with
  | nil => rfl
  | cons first copies ih =>
    rw [List.map_cons, List.mem_cons, not_or] at h
    change execute copies (Function.update contents first.2 (contents first.1)) a = contents a
    rw [ih h.2, Function.update_of_ne h.1]

/--
Whatever the order of separate copies, every destination gets what its source held before.
-/
theorem execute_of_mem (h : Separate copies) (hcopy : copy ∈ copies)
    : execute copies contents copy.2 = contents copy.1 := by
  induction copies generalizing contents with
  | nil => cases hcopy
  | cons first copies ih =>
    have hnodup := List.nodup_cons.mp h.nodup
    have hsources : ∀ c ∈ first :: copies, c.2 ≠ first.1 ∧ c.2 ∉ copies.map (·.1) := by
      intro c hc
      have := h.notMem c hc
      rwa [List.map_cons, List.mem_cons, not_or] at this
    have hrest : Separate copies :=
      ⟨hnodup.2, fun c hc => (hsources c (List.mem_cons_of_mem _ hc)).2⟩
    change execute copies (Function.update contents first.2 (contents first.1)) copy.2 = _
    rcases List.mem_cons.mp hcopy with rfl | hcopy
    . rw [execute_of_notMem hnodup.1, Function.update_self]
    . have hne : copy.1 ≠ first.2 := by
        intro heq
        apply (hsources first List.mem_cons_self).2
        rw [← heq]
        exact List.mem_map_of_mem hcopy
      rw [ih hrest hcopy, Function.update_of_ne hne]

theorem execute_eq_of_perm (h : Separate copies) (hperm : copies'.Perm copies)
    : execute copies' contents = execute copies contents := by
  funext a
  by_cases hmem : a ∈ copies.map (·.2)
  . rcases List.mem_map.mp hmem with ⟨copy, hcopy, rfl⟩
    rw [execute_of_mem (h.perm hperm) (hperm.mem_iff.mpr hcopy), execute_of_mem h hcopy]
  . rw [execute_of_notMem hmem, execute_of_notMem fun hmem' => hmem ((hperm.map _).mem_iff.mp hmem')]

end Copying
