import Mathlib.Logic.Basic

/-!
Lists around a ring. The first elements are distinct, and from the index `window` on an element is
either a new one or the one that stands at its index modulo `window`.
-/

structure List.IsRing {α : Type} (window : Nat) (l : List α) : Prop where
  first : ∀ {i j : Nat}, i < j → j < window → j < l.length → l[i]? ≠ l[j]?
  later : ∀ {j : Nat}, window ≤ j → j < l.length →
    l[j]? = l[j % window]? ∨ ∀ i, i ≠ j → l[i]? ≠ l[j]?

namespace List.IsRing

variable {α : Type} {window : Nat} {l l' : List α} {x : α}

theorem nil : List.IsRing window ([] : List α) := by
  constructor
  . intro i j _ _ hj
    cases hj
  . intro j _ hj
    cases hj

theorem of_append (h : List.IsRing window (l ++ l')) : List.IsRing window l := by
  have hleft : ∀ {j : Nat}, j < l.length → (l ++ l')[j]? = l[j]? := List.getElem?_append_left
  constructor
  . intro i j hij hj hlength
    have hne := h.first hij hj (by rw [List.length_append]; omega)
    rwa [hleft hlength, hleft (by omega)] at hne
  . intro j hj hlength
    have hmod : j % window ≤ j := Nat.mod_le j window
    rcases h.later hj (by rw [List.length_append]; omega) with heq | hne
    . left
      rwa [hleft hlength, hleft (by omega)] at heq
    . right
      intro i hi
      by_cases hilength : i < l.length
      . have hne := hne i hi
        rwa [hleft hlength, hleft hilength] at hne
      . rw [List.getElem?_eq_none (by omega), List.getElem?_eq_getElem hlength]
        simp

theorem getElem?_ne_some (hx : x ∉ l) (i : Nat) : l[i]? ≠ some x := by
  intro hi
  exact hx (List.mem_of_getElem? hi)

/--
A new element.
-/
theorem push (h : List.IsRing window l) (hx : x ∉ l) : List.IsRing window (l ++ [x]) := by
  have hleft : ∀ {j : Nat}, j < l.length → (l ++ [x])[j]? = l[j]? := List.getElem?_append_left
  have hlast : (l ++ [x])[l.length]? = some x := List.getElem?_concat_length
  constructor
  . intro i j hij hj hlength
    rw [List.length_append, List.length_singleton] at hlength
    by_cases heq : j = l.length
    . subst heq
      rw [hlast, hleft hij]
      exact getElem?_ne_some hx i
    . rw [hleft (by omega : j < l.length), hleft (by omega)]
      exact h.first hij hj (by omega)
  . intro j hj hlength
    rw [List.length_append, List.length_singleton] at hlength
    by_cases heq : j = l.length
    . right
      subst heq
      intro i hi
      rw [hlast]
      by_cases hilength : i < l.length
      . rw [hleft hilength]
        exact getElem?_ne_some hx i
      . rw [List.getElem?_eq_none (by rw [List.length_append, List.length_singleton]; omega)]
        simp
    . have hmod : j % window ≤ j := Nat.mod_le j window
      have hj' : j < l.length := by omega
      rw [hleft hj', hleft (by omega)]
      rcases h.later hj hj' with hreuse | hne
      . exact .inl hreuse
      . right
        intro i hi
        by_cases hilength : i < l.length
        . rw [hleft hilength]
          exact hne i hi
        . by_cases hi' : i = l.length
          . subst hi'
            rw [hlast]
            exact (getElem?_ne_some hx j).symm
          . rw [List.getElem?_eq_none (by rw [List.length_append, List.length_singleton]; omega),
              List.getElem?_eq_getElem hj']
            simp

/--
The element that stands at the index modulo `window` once more.
-/
theorem reuse (h : List.IsRing window l) (hpos : 0 < window) (hwindow : window ≤ l.length)
    (hx : l[l.length % window]? = some x) : List.IsRing window (l ++ [x]) := by
  have hleft : ∀ {j : Nat}, j < l.length → (l ++ [x])[j]? = l[j]? := List.getElem?_append_left
  have hlast : (l ++ [x])[l.length]? = some x := List.getElem?_concat_length
  have hmodlt : l.length % window < window := Nat.mod_lt _ hpos
  constructor
  . intro i j hij hj _
    rw [hleft (by omega : j < l.length), hleft (by omega)]
    exact h.first hij hj (by omega)
  . intro j hj hlength
    rw [List.length_append, List.length_singleton] at hlength
    by_cases heq : j = l.length
    . left
      subst heq
      rw [hlast, hleft (by omega), hx]
    . have hmod : j % window ≤ j := Nat.mod_le j window
      have hj' : j < l.length := by omega
      rw [hleft hj', hleft (by omega)]
      rcases h.later hj hj' with hreuse | hne
      . exact .inl hreuse
      . right
        intro i hi
        by_cases hilength : i < l.length
        . rw [hleft hilength]
          exact hne i hi
        . by_cases hi' : i = l.length
          . subst hi'
            rw [hlast, ← hx]
            exact hne _ (by omega)
          . rw [List.getElem?_eq_none (by rw [List.length_append, List.length_singleton]; omega),
              List.getElem?_eq_getElem hj']
            simp

theorem mod_ne_mod {i j : Nat} (hij : i < j) (hj : j < i + window) : i % window ≠ j % window := by
  intro heq
  have hdvd : window ∣ j - i := Nat.dvd_of_mod_eq_zero (Nat.sub_mod_eq_zero_of_mod_eq heq.symm)
  have := Nat.le_of_dvd (by omega) hdvd
  omega

theorem first_ne (h : List.IsRing window l) {i j : Nat} (hij : i ≠ j) (hi : i < window)
    (hj : j < window) (hwindow : window ≤ l.length) : l[i]? ≠ l[j]? := by
  rcases Nat.lt_or_gt_of_ne hij with hlt | hgt
  . exact h.first hlt hj (by omega)
  . exact (h.first hgt hi (by omega)).symm

/--
Elements less than `window` apart are distinct.
-/
theorem getElem?_ne (h : List.IsRing window l) {i j : Nat} (hij : i < j) (hj : j < i + window)
    (hlength : j < l.length) : l[i]? ≠ l[j]? := by
  have hpos : 0 < window := by omega
  by_cases hfirst : j < window
  . exact h.first hij hfirst hlength
  . rcases h.later (by omega) hlength with hreuse | hne
    . have hjmod : j % window < window := Nat.mod_lt j hpos
      rw [hreuse]
      by_cases hi : i < window
      . have hmod := mod_ne_mod hij hj
        rw [Nat.mod_eq_of_lt hi] at hmod
        exact h.first_ne hmod hi hjmod (by omega)
      . rcases h.later (by omega : window ≤ i) (by omega) with hreuse' | hne
        . rw [hreuse']
          exact h.first_ne (mod_ne_mod hij hj) (Nat.mod_lt i hpos) hjmod (by omega)
        . exact (hne _ (by omega)).symm
    . exact hne i (by omega)

theorem map {β : Type} {f : α → β} (h : List.IsRing window l)
    (hf : ∀ x ∈ l, ∀ y ∈ l, f x = f y → x = y) : List.IsRing window (l.map f) := by
  have hne : ∀ {i j : Nat}, j < l.length → l[i]? ≠ l[j]? → (l.map f)[i]? ≠ (l.map f)[j]? := by
    intro i j hj hne heq
    rw [List.getElem?_map, List.getElem?_map, List.getElem?_eq_getElem hj] at heq
    rcases Option.map_eq_some_iff.mp heq with ⟨x, hx, hfx⟩
    apply hne
    rw [hx, List.getElem?_eq_getElem hj,
      hf x (List.mem_of_getElem? hx) _ (List.getElem_mem hj) hfx]
  constructor
  . intro i j hij hj hlength
    rw [List.length_map] at hlength
    exact hne hlength (h.first hij hj hlength)
  . intro j hj hlength
    rw [List.length_map] at hlength
    rcases h.later hj hlength with hreuse | hnew
    . left
      rw [List.getElem?_map, List.getElem?_map, hreuse]
    . right
      intro i hi
      exact hne hlength (hnew i hi)

end List.IsRing
