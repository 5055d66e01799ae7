import Mathlib.Data.List.Nodup

/-!
Maps that are iterated in the order in which their keys came.
-/

structure IndexMap (α β : Type) where
  entries : List (α × β)
  nodup : (entries.map (·.1)).Nodup

namespace IndexMap

variable {α β : Type} [DecidableEq α]

def new : IndexMap α β where
  entries := []
  nodup := List.nodup_nil

def get? (map : IndexMap α β) (key : α) : Option β :=
  (map.entries.find? fun entry => entry.1 = key).map (·.2)

/--
The entries when `key`, if it is there, gets the value `value` in its place.
-/
def replaced (entries : List (α × β)) (key : α) (value : β) : List (α × β) :=
  entries.map fun entry => if entry.1 = key then (key, value) else entry

theorem keys_replaced (entries : List (α × β)) (key : α) (value : β)
    : (replaced entries key value).map (·.1) = entries.map (·.1) := by
  unfold replaced
  rw [List.map_map]
  apply List.map_congr_left
  intro entry _
  by_cases hkey : entry.1 = key <;> simp [hkey]

/--
A new key comes last.
-/
def insert (map : IndexMap α β) (key : α) (value : β) : IndexMap α β :=
  if h : key ∈ map.entries.map (·.1) then
    {
      entries := replaced map.entries key value
      nodup := (keys_replaced map.entries key value).symm ▸ map.nodup
    }
  else
    {
      entries := map.entries ++ [(key, value)]
      nodup := by
        rw [List.map_append, List.map_singleton]
        exact map.nodup.append (List.nodup_singleton key) (by simpa using h)
    }

/--
The entries after the one that is removed move up.
-/
def shiftRemove (map : IndexMap α β) (key : α) : Option β × IndexMap α β :=
  (
    map.get? key,
    {
      entries := map.entries.filter fun entry => entry.1 ≠ key
      nodup := map.nodup.sublist (List.filter_sublist.map _)
    }
  )

variable {map : IndexMap α β} {key : α} {value : β} {entry : α × β}

theorem notMem_keys_of_get?_eq_none (h : map.get? key = none)
    : key ∉ map.entries.map (·.1) := by
  unfold get? at h
  rw [Option.map_eq_none_iff, List.find?_eq_none] at h
  intro hmem
  rcases List.mem_map.mp hmem with ⟨entry, hentry, heq⟩
  exact h entry hentry (by simpa using heq)

theorem entries_insert_of_notMem (h : key ∉ map.entries.map (·.1))
    : (map.insert key value).entries = map.entries ++ [(key, value)] := by
  unfold insert
  rw [dif_neg h]

theorem mem_entries_insert (h : entry ∈ (map.insert key value).entries)
    : entry ∈ map.entries ∨ entry = (key, value) := by
  unfold insert at h
  split at h
  . unfold replaced at h
    rcases List.mem_map.mp h with ⟨old, hold, rfl⟩
    split
    . exact .inr rfl
    . exact .inl hold
  . simpa using h

theorem shiftRemove_of_split {before after : List (α × β)}
    (h : map.entries = before ++ (key, value) :: after)
    : (map.shiftRemove key).1 = some value
        ∧ (map.shiftRemove key).2.entries = before ++ after := by
  have hnodup := map.nodup
  rw [h, List.map_append, List.map_cons, List.nodup_middle, List.nodup_cons, List.mem_append,
    not_or] at hnodup
  have hne : ∀ {entries : List (α × β)}, key ∉ entries.map (·.1) → ∀ entry ∈ entries,
      entry.1 ≠ key := by
    rintro entries hnotMem entry hentry rfl
    exact hnotMem (List.mem_map_of_mem hentry)
  have hbefore := hne hnodup.1.1
  have hafter := hne hnodup.1.2
  constructor
  . have hnone : before.find? (fun entry => decide (entry.1 = key)) = none := by
      simpa using fun entry value hentry => hbefore (entry, value) hentry
    change map.get? key = some value
    unfold get?
    rw [h, List.find?_append, hnone]
    simp
  . unfold shiftRemove
    dsimp only
    rw [h, List.filter_append, List.filter_cons]
    simp only [ne_eq, not_true_eq_false, decide_false, Bool.false_eq_true, if_false]
    rw [List.filter_eq_self.mpr (by simpa using fun a b hentry => hbefore (a, b) hentry),
      List.filter_eq_self.mpr (by simpa using fun a b hentry => hafter (a, b) hentry)]

end IndexMap
