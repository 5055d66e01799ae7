import Mathlib.Data.List.AList
import Mathlib.Algebra.BigOperators.Group.List.Basic

/-!
Splitting an association list at one of its keys, and finding the element of a list that contributes
to it.
-/

theorem List.eq_of_nodup_flatMap {α β : Type} {f : α → List β} {l : List α} {a a' : α} {b : β}
    (h : (l.flatMap f).Nodup) (ha : a ∈ l) (ha' : a' ∈ l) (hb : b ∈ f a) (hb' : b ∈ f a')
    : a = a' := by
  induction l with
  | nil => cases ha
  | cons x l ih =>
    rw [List.flatMap_cons, List.nodup_append] at h
    have hdisjoint : ∀ y ∈ l, b ∈ f x → b ∉ f y := fun y hy hx hb =>
      h.2.2 b hx b (List.mem_flatMap.mpr ⟨y, hy, hb⟩) rfl
    rcases List.mem_cons.mp ha with rfl | hmem
    . rcases List.mem_cons.mp ha' with rfl | hmem'
      . rfl
      . exact absurd hb' (hdisjoint a' hmem' hb)
    . rcases List.mem_cons.mp ha' with rfl | hmem'
      . exact absurd hb (hdisjoint a hmem hb')
      . exact ih h.2.1 hmem hmem'

namespace AList

variable {α β : Type} [DecidableEq α]

theorem entries_perm_of_lookup_eq_some {s : AList (fun _ : α => β)} {a : α} {b : β}
    (h : s.lookup a = some b) : s.entries.Perm (⟨a, b⟩ :: (s.erase a).entries) := by
  rcases s with ⟨l, hl⟩
  change List.dlookup a l = some b at h
  change l.Perm (⟨a, b⟩ :: List.kerase a l)
  induction l with
  | nil => simp at h
  | cons e l ih =>
    rcases e with ⟨k, v⟩
    by_cases hk : a = k
    . subst hk
      rw [List.dlookup_cons_eq] at h
      cases h
      have : List.kerase a (⟨a, b⟩ :: l) = l := List.kerase_cons_eq rfl
      rw [this]
    . have hlookup : List.dlookup a (⟨k, v⟩ :: l) = List.dlookup a l :=
        List.dlookup_cons_ne l ⟨k, v⟩ hk
      rw [hlookup] at h
      have hkerase : List.kerase a (⟨k, v⟩ :: l) = ⟨k, v⟩ :: List.kerase a l :=
        List.kerase_cons_ne hk
      rw [hkerase]
      have := ih (List.nodupKeys_cons.mp hl).2 h
      exact (List.Perm.cons _ this).trans (List.Perm.swap _ _ _)

theorem erase_eq_self_of_lookup_eq_none {s : AList (fun _ : α => β)} {a : α}
    (h : s.lookup a = none) : s.erase a = s := by
  apply AList.ext
  have : a ∉ s.entries.keys := fun hmem => lookup_eq_none.mp h (mem_keys.mpr hmem)
  exact List.kerase_of_notMem_keys this

theorem eq_empty_of_union_eq_empty {s t : AList (fun _ : α => β)} (h : s ∪ t = ∅)
    : s = ∅ ∧ t = ∅ := by
  have hnot : ∀ a, a ∉ s ∪ t := by
    intro a
    rw [h]
    exact AList.notMem_empty a
  have hempty : ∀ {u : AList (fun _ : α => β)}, (∀ a, a ∉ u) → u = ∅ := by
    intro u hu
    cases hentries : u.entries with
    | nil => exact AList.ext hentries
    | cons e entries =>
      refine absurd ?_ (hu e.1)
      rw [AList.mem_keys, AList.keys, hentries]
      exact List.mem_cons_self
  exact ⟨hempty fun a ha => hnot a (AList.mem_union.mpr (.inl ha)),
    hempty fun a ha => hnot a (AList.mem_union.mpr (.inr ha))⟩

theorem mem_entries_iff {s : AList (fun _ : α => β)} {e : Sigma fun _ : α => β}
    : e ∈ s.entries ↔ s.lookup e.1 = some e.2 := by
  rw [← Option.mem_def, mem_lookup_iff]

section InsertAll

variable {s : AList (fun _ : α => β)} {pairs : List (α × β)} {a : α} {b : β}

/--
Insert the pairs one after the other.
-/
def insertAll (s : AList (fun _ : α => β)) (pairs : List (α × β)) : AList (fun _ : α => β) :=
  pairs.foldl (fun s pair => s.insert pair.1 pair.2) s

theorem lookup_insertAll_of_notMem (h : a ∉ pairs.map (·.1))
    : (s.insertAll pairs).lookup a = s.lookup a := by
  induction pairs generalizing s with
  | nil => rfl
  | cons pair pairs ih =>
    rw [List.map_cons, List.mem_cons, not_or] at h
    change ((s.insert pair.1 pair.2).insertAll pairs).lookup a = s.lookup a
    rw [ih h.2, AList.lookup_insert_ne h.1]

theorem lookup_insertAll_of_mem (hnodup : (pairs.map (·.1)).Nodup) (h : (a, b) ∈ pairs)
    : (s.insertAll pairs).lookup a = some b := by
  induction pairs generalizing s with
  | nil => cases h
  | cons pair pairs ih =>
    have hpairs := List.nodup_cons.mp hnodup
    change ((s.insert pair.1 pair.2).insertAll pairs).lookup a = some b
    rcases List.mem_cons.mp h with rfl | h
    . rw [lookup_insertAll_of_notMem hpairs.1, AList.lookup_insert]
    . exact ih hpairs.2 h

theorem mem_or_lookup_of_lookup_insertAll (h : (s.insertAll pairs).lookup a = some b)
    : (a, b) ∈ pairs ∨ s.lookup a = some b := by
  induction pairs generalizing s with
  | nil => exact .inr h
  | cons pair pairs ih =>
    rcases ih h with hmem | hlookup
    . exact .inl (List.mem_cons_of_mem _ hmem)
    . by_cases ha : a = pair.1
      . subst ha
        rw [AList.lookup_insert] at hlookup
        cases hlookup
        exact .inl List.mem_cons_self
      . rw [AList.lookup_insert_ne ha] at hlookup
        exact .inr hlookup

theorem insertAll_union (t : AList (fun _ : α => β))
    : s.insertAll pairs ∪ t = (s ∪ t).insertAll pairs := by
  induction pairs generalizing s with
  | nil => rfl
  | cons pair pairs ih =>
    change (s.insert pair.1 pair.2).insertAll pairs ∪ t
      = ((s ∪ t).insert pair.1 pair.2).insertAll pairs
    rw [ih, AList.insert_union]

end InsertAll

variable {M : Type} [AddCommMonoid M] (f : β → M)

/--
The sum of a quantity over the values of the association list.
-/
def sumValues (s : AList (fun _ : α => β)) : M :=
  (s.entries.map fun e => f e.2).sum

theorem sumValues_of_lookup_eq_some {s : AList (fun _ : α => β)} {a : α} {b : β}
    (h : s.lookup a = some b) : s.sumValues f = f b + (s.erase a).sumValues f := by
  unfold sumValues
  rw [((entries_perm_of_lookup_eq_some h).map _).sum_eq]
  simp

theorem sumValues_insert (s : AList (fun _ : α => β)) (a : α) (b : β)
    : (s.insert a b).sumValues f = f b + (s.erase a).sumValues f := by
  unfold sumValues
  rw [entries_insert]
  simp
  rfl

theorem sumValues_congr {s t : AList (fun _ : α => β)} (h : ∀ a, s.lookup a = t.lookup a)
    : s.sumValues f = t.sumValues f := by
  have hperm : s.entries.Perm t.entries := by
    apply List.lookup_ext s.nodupKeys t.nodupKeys
    intro a b
    have := h a
    unfold AList.lookup at this
    rw [this]
  unfold sumValues
  exact (hperm.map _).sum_eq

end AList
