import Mathlib.Data.List.Nodup

/-!
Regions of one size that are copied from one memory to another.
-/

namespace Region

variable {γ : Type}

/--
The destination after `length` cells are copied to it.
-/
def copy (src dst : Nat → γ) (srcStart dstStart length : Nat) : Nat → γ := fun a =>
  if dstStart ≤ a ∧ a < dstStart + length then src (srcStart + (a - dstStart)) else dst a

/--
Copy the region `x` of the source to the region `y` of the destination, for each `(x, y)`.
-/
def copyAll (src : Nat → γ) (srcStart dstStart size : Nat) (mapping : List (Nat × Nat))
    (dst : Nat → γ) : Nat → γ :=
  mapping.foldl
    (fun dst block => copy src dst (srcStart + block.1 * size) (dstStart + block.2 * size) size) dst

variable {src dst : Nat → γ} {srcStart dstStart size x y k a : Nat} {mapping : List (Nat × Nat)}

theorem copyAll_cons (block : Nat × Nat)
    : copyAll src srcStart dstStart size (block :: mapping) dst
        = copyAll src srcStart dstStart size mapping
            (copy src dst (srcStart + block.1 * size) (dstStart + block.2 * size) size) := by
  rfl

theorem not_mem_of_ne {y' : Nat} (hne : y ≠ y') (hk : k < size)
    : ¬ (y' * size ≤ y * size + k ∧ y * size + k < y' * size + size) := by
  rintro ⟨hle, hlt⟩
  rcases Nat.lt_or_gt_of_ne hne with hless | hgreater
  . have := Nat.mul_le_mul_right size hless
    rw [Nat.succ_mul] at this
    omega
  . have := Nat.mul_le_mul_right size hgreater
    rw [Nat.succ_mul] at this
    omega

theorem copyAll_of_forall
    (h : ∀ block ∈ mapping,
      ¬ (dstStart + block.2 * size ≤ a ∧ a < dstStart + block.2 * size + size))
    : copyAll src srcStart dstStart size mapping dst a = dst a := by
  induction mapping generalizing dst with
  | nil => rfl
  | cons block mapping ih =>
    rw [copyAll_cons, ih fun block' hblock' => h block' (List.mem_cons_of_mem _ hblock')]
    unfold copy
    rw [if_neg (h block List.mem_cons_self)]

/--
Every region of the destination gets its source.
-/
theorem copyAll_of_mem (src dst : Nat → γ) (srcStart dstStart : Nat)
    (hnodup : (mapping.map (·.2)).Nodup) (hmem : (x, y) ∈ mapping) (hk : k < size)
    : copyAll src srcStart dstStart size mapping dst (dstStart + y * size + k)
        = src (srcStart + x * size + k) := by
  induction mapping generalizing dst with
  | nil => cases hmem
  | cons block mapping ih =>
    rw [List.map_cons, List.nodup_cons] at hnodup
    rw [copyAll_cons]
    rcases List.mem_cons.mp hmem with rfl | hmem
    . rw [copyAll_of_forall]
      . unfold copy
        dsimp only
        rw [if_pos (by omega)]
        congr 1
        omega
      . intro block' hblock' hinside
        have hne : y ≠ block'.2 := by
          intro heq
          apply hnodup.1
          change y ∈ _
          rw [heq]
          exact List.mem_map_of_mem hblock'
        exact not_mem_of_ne hne hk (by omega)
    . exact ih _ hnodup.2 hmem

end Region
