import Mathlib.Data.Multiset.UnionInter
import Mathlib.Data.Finset.Card
import Mathlib.Data.Fintype.Basic
import Mathlib.Logic.Function.Basic

/-!
A pool of reference counted resources. The resources are kept in several free lists; a resource
goes back to its list when its last reference is released. `Balanced` relates the counters and the
free lists to the multiset of references that are held outside of the pool.
-/

structure RefPool (ι β : Type) where
  free : ι → List β
  refCount : β → Nat

namespace RefPool

variable {ι β : Type} [DecidableEq β]

/--
Hand out `b`, the first resource of list `i`; the others of the list are `rest`.
-/
def take [DecidableEq ι] (p : RefPool ι β) (i : ι) (b : β) (rest : List β) : RefPool ι β where
  free := Function.update p.free i rest
  refCount := Function.update p.refCount b (p.refCount b + 1)

/--
Hand out one more reference to `b`.
-/
def share (p : RefPool ι β) (b : β) : RefPool ι β where
  free := p.free
  refCount := Function.update p.refCount b (p.refCount b + 1)

/--
Set the counter of `b`.
-/
def setCount (p : RefPool ι β) (b : β) (n : Nat) : RefPool ι β where
  free := p.free
  refCount := Function.update p.refCount b n

/--
Give back one reference to `b`; the last one puts `b` on list `i`.
-/
def release [DecidableEq ι] (p : RefPool ι β) (i : ι) (b : β) : RefPool ι β where
  free := if p.refCount b = 1 then Function.update p.free i (b :: p.free i) else p.free
  refCount := Function.update p.refCount b (p.refCount b - 1)

/--
The pool accounts for exactly the references in `own`: every counter is the number of references,
and a list holds, once, each of its resources that has none.
-/
structure Balanced (home : β → ι) (univ : Set β) (p : RefPool ι β) (own : Multiset β) : Prop where
  nodup_free : ∀ i, (p.free i).Nodup
  mem_free : ∀ i b, b ∈ p.free i ↔ home b = i ∧ b ∈ univ ∧ b ∉ own
  refCount_eq : ∀ b ∈ univ, p.refCount b = own.count b
  mem_univ : ∀ b ∈ own, b ∈ univ

namespace Balanced

variable {home : β → ι} {univ : Set β} {p : RefPool ι β} {own : Multiset β} {i : ι} {b : β}

theorem one_le_refCount (h : Balanced home univ p own) (hb : b ∈ own) : 1 ≤ p.refCount b := by
  rw [h.refCount_eq b (h.mem_univ b hb)]
  exact Multiset.one_le_count_iff_mem.mpr hb

theorem head_free (h : Balanced home univ p own) {rest : List β} (hfree : p.free i = b :: rest)
    : home b = i ∧ b ∈ univ ∧ b ∉ own := by
  rw [← h.mem_free, hfree]
  exact List.mem_cons_self

theorem take [DecidableEq ι] (h : Balanced home univ p own) {rest : List β} (hfree : p.free i = b :: rest)
    : Balanced home univ (p.take i b rest) (b ::ₘ own) := by
  have ⟨hhome, huniv, hown⟩ := h.head_free hfree
  have hnodup := h.nodup_free i
  rw [hfree, List.nodup_cons] at hnodup
  refine ⟨?_, ?_, ?_, ?_⟩
  . intro j
    by_cases hj : j = i
    . subst hj
      simpa [RefPool.take] using hnodup.2
    . simpa [RefPool.take, hj] using h.nodup_free j
  . intro j c
    by_cases hj : j = i
    . subst hj
      have hmem := h.mem_free j c
      rw [hfree, List.mem_cons] at hmem
      simp only [RefPool.take, Function.update_self, Multiset.mem_cons]
      grind
    . have hmem := h.mem_free j c
      simp only [RefPool.take, Function.update_of_ne hj, Multiset.mem_cons]
      grind
  . intro c hc
    by_cases hcb : c = b
    . subst hcb
      simp [RefPool.take, h.refCount_eq c hc]
    . simp [RefPool.take, hcb, h.refCount_eq c hc]
  . intro c hc
    rcases Multiset.mem_cons.mp hc with rfl | hc
    . exact huniv
    . exact h.mem_univ c hc

theorem share (h : Balanced home univ p own) (hb : b ∈ own)
    : Balanced home univ (p.share b) (b ::ₘ own) := by
  refine ⟨h.nodup_free, ?_, ?_, ?_⟩
  . intro j c
    rw [Multiset.mem_cons]
    have := h.mem_free j c
    simp only [RefPool.share]
    grind
  . intro c hc
    by_cases hcb : c = b
    . subst hcb
      simp [RefPool.share, h.refCount_eq c hc]
    . simp [RefPool.share, hcb, h.refCount_eq c hc]
  . intro c hc
    rcases Multiset.mem_cons.mp hc with rfl | hc
    . exact h.mem_univ c hb
    . exact h.mem_univ c hc

theorem setCount (h : Balanced home univ p (b ::ₘ own)) (hb : b ∉ own) {n : Nat} (hn : 1 ≤ n)
    : Balanced home univ (p.setCount b n) (Multiset.replicate n b + own) := by
  have hne : n ≠ 0 := by omega
  refine ⟨h.nodup_free, ?_, ?_, ?_⟩
  . intro j c
    have := h.mem_free j c
    simp only [RefPool.setCount, Multiset.mem_add, Multiset.mem_replicate, Multiset.mem_cons] at *
    grind
  . intro c hc
    by_cases hcb : c = b
    . subst hcb
      simp [RefPool.setCount, Multiset.count_eq_zero_of_notMem hb]
    . simp [RefPool.setCount, hcb, h.refCount_eq c hc, Multiset.count_replicate, Ne.symm hcb]
  . intro c hc
    simp only [Multiset.mem_add, Multiset.mem_replicate] at hc
    apply h.mem_univ c
    rw [Multiset.mem_cons]
    grind

theorem release [DecidableEq ι] (h : Balanced home univ p own) (hb : b ∈ own) (hi : home b = i)
    : Balanced home univ (p.release i b) (own.erase b) := by
  have hcount := h.refCount_eq b (h.mem_univ b hb)
  have huniv := h.mem_univ b hb
  have hpos := h.one_le_refCount hb
  have hmem : ∀ c, c ∈ own.erase b ↔ c ∈ own ∧ (c = b → p.refCount b ≠ 1) := by
    intro c
    by_cases hcb : c = b
    . subst hcb
      rw [← Multiset.one_le_count_iff_mem, Multiset.count_erase_self, ← hcount]
      constructor
      . intro h
        exact ⟨hb, by omega⟩
      . intro h
        have := h.2 rfl
        omega
    . simp [Multiset.mem_erase_of_ne hcb, hcb]
  have hnotfree : b ∉ p.free i := by
    rw [h.mem_free]
    grind
  refine ⟨?_, ?_, ?_, ?_⟩
  . intro j
    simp only [RefPool.release]
    split
    . by_cases hj : j = i
      . subst hj
        simpa using ⟨hnotfree, h.nodup_free j⟩
      . simpa [hj] using h.nodup_free j
    . exact h.nodup_free j
  . intro j c
    have hfree := h.mem_free j c
    rw [hmem]
    simp only [RefPool.release]
    split
    . by_cases hj : j = i
      . subst hj
        simp only [Function.update_self, List.mem_cons]
        grind
      . simp only [Function.update_of_ne hj]
        grind
    . grind
  . intro c hc
    by_cases hcb : c = b
    . subst hcb
      simp [RefPool.release, hcount]
    . simp [RefPool.release, hcb, h.refCount_eq c hc, Multiset.count_erase_of_ne hcb]
  . intro c hc
    exact h.mem_univ c (Multiset.mem_of_mem_erase hc)

/--
Every resource of a list is either on it or referenced.
-/
theorem length_free_add_card [DecidableEq ι] (h : Balanced home univ p own) {s : Finset β}
    (hs : ∀ b, b ∈ s ↔ home b = i ∧ b ∈ univ)
    : (p.free i).length + (own.toFinset.filter fun b => home b = i).card = s.card := by
  rw [← List.toFinset_card_of_nodup (h.nodup_free i), ← Finset.card_union_of_disjoint]
  . congr 1
    ext b
    have hfree := h.mem_free i b
    have huniv := h.mem_univ b
    simp only [Finset.mem_union, List.mem_toFinset, Finset.mem_filter, Multiset.mem_toFinset, hs]
    grind
  . rw [Finset.disjoint_left]
    intro b hb
    have hfree := h.mem_free i b
    simp only [List.mem_toFinset, Finset.mem_filter, Multiset.mem_toFinset] at *
    grind

end Balanced

end RefPool
