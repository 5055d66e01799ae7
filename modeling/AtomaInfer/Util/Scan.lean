import Mathlib.Order.Lattice
import Mathlib.Data.List.Basic

/-!
A scan of a list for the heaviest of its oldest elements, which stops at the first element that is
younger than the best one so far. Where the list is not in order of age, the scan may miss them.
-/

namespace Scan

variable {α τ ω : Type} [LinearOrder τ] [LinearOrder ω] (time : α → τ) (weight : α → ω)

/--
The scan of `xs` when `leader` is the best element so far.
-/
def pick (leader : α) (xs : List α) : α :=
  match xs with
  | [] => leader
  | x :: xs =>
    if time leader < time x then leader
    else if weight leader < weight x then pick x xs
    else pick leader xs

/--
`x` is as old as any element, and as heavy as any one of its age.
-/
structure IsBest (xs : List α) (x : α) : Prop where
  mem : x ∈ xs
  time_le : ∀ y ∈ xs, time x ≤ time y
  weight_le : ∀ y ∈ xs, time y = time x → weight y ≤ weight x

/--
`x` is the first of the heaviest elements.
-/
def Leads (xs : List α) (x : α) : Prop :=
  ∃ before after,
    xs = before ++ x :: after
      ∧ (∀ y ∈ before, weight y < weight x)
      ∧ ∀ y ∈ after, weight y ≤ weight x

/--
No element is younger than the first of the heaviest elements before it.
-/
def Unbroken (xs : List α) : Prop :=
  ∀ before x after leader, xs = before ++ x :: after → Leads weight before leader →
    time x ≤ time leader

/--
One of the best elements comes after lighter ones only, and the scan does not stop at these.
-/
def Exposed (xs : List α) : Prop :=
  ∃ before x after,
    xs = before ++ x :: after
      ∧ IsBest time weight xs x
      ∧ (∀ y ∈ before, weight y < weight x)
      ∧ Unbroken time weight before

variable {time weight} {xs ys : List α} {x y leader : α}

theorem pick_mem (leader : α) (xs : List α) : pick time weight leader xs ∈ leader :: xs := by
  induction xs generalizing leader with
  | nil => simp [pick]
  | cons x xs ih =>
    unfold pick
    split
    . exact List.mem_cons_self
    . split
      . exact List.mem_cons_of_mem _ (ih x)
      . rcases List.mem_cons.mp (ih leader) with hmem | hmem
        . rw [hmem]
          exact List.mem_cons_self
        . exact List.mem_cons_of_mem _ (List.mem_cons_of_mem _ hmem)

theorem pick_map {β : Type} (f : β → α) (leader : β) (xs : List β)
    : pick time weight (f leader) (xs.map f)
        = f (pick (fun x => time (f x)) (fun x => weight (f x)) leader xs) := by
  induction xs generalizing leader with
  | nil => rfl
  | cons x xs ih =>
    rw [List.map_cons, pick, pick, ih, ih]
    split
    . rfl
    . split <;> rfl

theorem Leads.mem (h : Leads weight xs x) : x ∈ xs := by
  rcases h with ⟨before, after, rfl, -⟩
  simp

theorem Leads.weight_le (h : Leads weight xs x) (hy : y ∈ xs) : weight y ≤ weight x := by
  rcases h with ⟨before, after, rfl, hbefore, hafter⟩
  rcases List.mem_append.mp hy with hy | hy
  . exact (hbefore y hy).le
  . rcases List.mem_cons.mp hy with rfl | hy
    . exact le_rfl
    . exact hafter y hy

theorem Leads.singleton (weight : α → ω) (x : α) : Leads weight [x] x :=
  ⟨[], [], rfl, by simp, by simp⟩

theorem Leads.pass (h : Leads weight xs leader) (hle : weight x ≤ weight leader)
    : Leads weight (xs ++ [x]) leader := by
  rcases h with ⟨before, after, rfl, hbefore, hafter⟩
  refine ⟨before, after ++ [x], by simp, hbefore, ?_⟩
  intro y hy
  rcases List.mem_append.mp hy with hy | hy
  . exact hafter y hy
  . rw [List.mem_singleton.mp hy]
    exact hle

theorem Leads.take (h : Leads weight xs leader) (hlt : weight leader < weight x)
    : Leads weight (xs ++ [x]) x :=
  ⟨xs, [], rfl, fun _ hy => (h.weight_le hy).trans_lt hlt, by simp⟩

theorem Leads.unique (h : Leads weight xs x) (h' : Leads weight xs y) : x = y := by
  rcases h with ⟨before, after, rfl, hbefore, hafter⟩
  rcases h' with ⟨before', after', heq, hbefore', hafter'⟩
  rcases List.append_eq_append_iff.mp heq with ⟨between, rfl, hrest⟩ | ⟨between, rfl, hrest⟩
  . cases between with
    | nil => exact (List.cons.inj hrest).1
    | cons z between =>
      rcases List.cons.inj hrest with ⟨rfl, rfl⟩
      exact absurd (hafter y (by simp)) (not_le.mpr (hbefore' x (by simp)))
  . cases between with
    | nil => exact (List.cons.inj hrest).1.symm
    | cons z between =>
      rcases List.cons.inj hrest with ⟨rfl, rfl⟩
      exact absurd (hafter' x (by simp)) (not_le.mpr (hbefore y (by simp)))

theorem Unbroken.of_append (h : Unbroken time weight (xs ++ ys)) : Unbroken time weight xs := by
  intro before x after leader hsplit hleads
  exact h before x (after ++ ys) leader (by simp [hsplit]) hleads

theorem Unbroken.singleton (time : α → τ) (weight : α → ω) (x : α)
    : Unbroken time weight [x] := by
  intro before y after leader hsplit hleads
  rcases List.singleton_eq_append_iff.mp hsplit with ⟨rfl, -⟩ | ⟨-, hcons⟩
  . exact absurd hleads.mem List.not_mem_nil
  . cases hcons

theorem Unbroken.concat (h : Unbroken time weight xs) (hleads : Leads weight xs leader)
    (hle : time x ≤ time leader) : Unbroken time weight (xs ++ [x]) := by
  intro before y after leader' hsplit hleads'
  rcases List.eq_nil_or_concat after with rfl | ⟨init, last, rfl⟩
  . rcases List.append_inj' hsplit rfl with ⟨rfl, hcons⟩
    cases hcons
    rw [hleads'.unique hleads]
    exact hle
  . rw [List.concat_eq_append, ← List.cons_append, ← List.append_assoc] at hsplit
    exact h before y init leader' (List.append_inj' hsplit rfl).1 hleads'

/--
The scan comes to the element that it picks, without a stop, past lighter ones only.
-/
theorem exists_split_pick (hleads : Leads weight xs leader) (hunbroken : Unbroken time weight xs)
    (ys : List α)
    : ∃ before after,
        xs ++ ys = before ++ pick time weight leader ys :: after
          ∧ (∀ y ∈ before, weight y < weight (pick time weight leader ys))
          ∧ Unbroken time weight before := by
  induction ys generalizing xs leader with
  | nil =>
    rcases hleads with ⟨before, after, rfl, hbefore, -⟩
    exact ⟨before, after, by simp [pick], hbefore, hunbroken.of_append⟩
  | cons y ys ih =>
    by_cases hyounger : time leader < time y
    . rcases hleads with ⟨before, after, rfl, hbefore, -⟩
      refine ⟨before, after ++ y :: ys, ?_, ?_, hunbroken.of_append⟩
      . simp [pick, hyounger]
      . simpa [pick, hyounger] using hbefore
    . have hle : time y ≤ time leader := not_lt.mp hyounger
      have hunbroken' := hunbroken.concat hleads hle
      by_cases hheavier : weight leader < weight y
      . simpa [pick, hyounger, hheavier] using ih (hleads.take hheavier) hunbroken'
      . simpa [pick, hyounger, hheavier] using ih (hleads.pass (not_lt.mp hheavier)) hunbroken'

/--
Over an unbroken list the scan keeps the first of the heaviest elements.
-/
theorem pick_append (hleads : Leads weight xs leader) (hunbroken : Unbroken time weight (xs ++ ys))
    (rest : List α)
    : ∃ leader',
        Leads weight (xs ++ ys) leader'
          ∧ pick time weight leader (ys ++ rest) = pick time weight leader' rest := by
  induction ys generalizing xs leader with
  | nil => exact ⟨leader, by simpa using hleads, rfl⟩
  | cons y ys ih =>
    have hle : time y ≤ time leader := hunbroken xs y ys leader rfl hleads
    rw [← List.singleton_append, ← List.append_assoc] at hunbroken ⊢
    by_cases hheavier : weight leader < weight y
    . simpa [pick, not_lt.mpr hle, hheavier] using ih (hleads.take hheavier) hunbroken
    . simpa [pick, not_lt.mpr hle, hheavier]
        using ih (hleads.pass (not_lt.mp hheavier)) hunbroken

/--
The scan does not leave one of the best elements.
-/
theorem pick_eq_self (htime : ∀ y ∈ ys, time x ≤ time y)
    (hweight : ∀ y ∈ ys, time y = time x → weight y ≤ weight x) : pick time weight x ys = x := by
  induction ys with
  | nil => rfl
  | cons y ys ih =>
    have hrest := ih (fun z hz => htime z (List.mem_cons_of_mem _ hz))
      (fun z hz => hweight z (List.mem_cons_of_mem _ hz))
    unfold pick
    split
    . rfl
    . next hyounger =>
      have heq : time y = time x :=
        le_antisymm (not_lt.mp hyounger) (htime y List.mem_cons_self)
      rw [if_neg (not_lt.mpr (hweight y List.mem_cons_self heq)), hrest]

/--
The scan picks one of the best elements exactly when one is exposed to it.
-/
theorem isBest_pick_iff (x : α) (xs : List α)
    : IsBest time weight (x :: xs) (pick time weight x xs) ↔ Exposed time weight (x :: xs) := by
  constructor
  . intro hbest
    rcases exists_split_pick (Leads.singleton weight x) (Unbroken.singleton time weight x) xs
      with ⟨before, after, hsplit, hbefore, hunbroken⟩
    exact ⟨before, _, after, hsplit, hbest, hbefore, hunbroken⟩
  . rintro ⟨before, best, after, hsplit, hbest, hbefore, hunbroken⟩
    have hkeeps : pick time weight best after = best := by
      have hmem : ∀ y ∈ after, y ∈ x :: xs := by
        intro y hy
        rw [hsplit]
        simp [hy]
      exact pick_eq_self (fun y hy => hbest.time_le y (hmem y hy))
        (fun y hy => hbest.weight_le y (hmem y hy))
    suffices hpick : pick time weight x xs = best by rwa [hpick]
    cases before with
    | nil =>
      cases hsplit
      exact hkeeps
    | cons first before =>
      rw [List.cons_append] at hsplit
      rcases List.cons.inj hsplit with ⟨rfl, hxs⟩
      rw [hxs] at hbest ⊢
      rcases pick_append (Leads.singleton weight x) (by simpa using hunbroken) (best :: after)
        with ⟨leader, hleads, hpick⟩
      have hmem : leader ∈ x :: before := by simpa using hleads.mem
      have holder : time best ≤ time leader :=
        hbest.time_le leader (List.mem_append_left (best :: after) hmem)
      rw [hpick, pick, if_neg (not_lt.mpr holder), if_pos (hbefore leader hmem), hkeeps]

/--
In a list in order of age the scan picks one of the best elements.
-/
theorem isBest_pick_of_pairwise (h : (x :: xs).Pairwise (time · ≤ time ·))
    : IsBest time weight (x :: xs) (pick time weight x xs) := by
  induction xs generalizing x with
  | nil => exact ⟨by simp [pick], by simp [pick], by simp [pick]⟩
  | cons y ys ih =>
    rcases List.pairwise_cons.mp h with ⟨hx, hrest⟩
    unfold pick
    split
    . next hyounger =>
      have hlater : ∀ z ∈ y :: ys, time x < time z := by
        intro z hz
        rcases List.mem_cons.mp hz with rfl | hz
        . exact hyounger
        . exact hyounger.trans_le ((List.pairwise_cons.mp hrest).1 z hz)
      refine ⟨List.mem_cons_self, ?_, ?_⟩
      . intro z hz
        rcases List.mem_cons.mp hz with rfl | hz
        . exact le_rfl
        . exact (hlater z hz).le
      . intro z hz heq
        rcases List.mem_cons.mp hz with rfl | hz
        . exact le_rfl
        . exact absurd heq (hlater z hz).ne'
    . next hyounger =>
      have heq : time y = time x := le_antisymm (not_lt.mp hyounger) (hx y List.mem_cons_self)
      split
      . next hheavier =>
        have hbest := ih hrest
        have hweight := hbest.weight_le y List.mem_cons_self
        refine ⟨List.mem_cons_of_mem _ hbest.mem, ?_, ?_⟩
        . intro z hz
          rcases List.mem_cons.mp hz with rfl | hz
          . rw [← heq]
            exact hbest.time_le y List.mem_cons_self
          . exact hbest.time_le z hz
        . intro z hz hsame
          rcases List.mem_cons.mp hz with rfl | hz
          . exact hheavier.le.trans (hweight (heq.trans hsame))
          . exact hbest.weight_le z hz hsame
      . next hheavier =>
        have hpair : (x :: ys).Pairwise (time · ≤ time ·) :=
          List.pairwise_cons.mpr ⟨fun z hz => hx z (List.mem_cons_of_mem _ hz),
            (List.pairwise_cons.mp hrest).2⟩
        have hbest := ih hpair
        have hweight := hbest.weight_le x List.mem_cons_self
        refine ⟨?_, ?_, ?_⟩
        . rcases List.mem_cons.mp hbest.mem with hmem | hmem
          . rw [hmem]
            exact List.mem_cons_self
          . exact List.mem_cons_of_mem _ (List.mem_cons_of_mem _ hmem)
        . intro z hz
          rcases List.mem_cons.mp hz with rfl | hz
          . exact hbest.time_le z List.mem_cons_self
          . rcases List.mem_cons.mp hz with rfl | hz
            . rw [heq]
              exact hbest.time_le x List.mem_cons_self
            . exact hbest.time_le z (List.mem_cons_of_mem _ hz)
        . intro z hz hsame
          rcases List.mem_cons.mp hz with rfl | hz
          . exact hweight hsame
          . rcases List.mem_cons.mp hz with rfl | hz
            . exact (not_lt.mp hheavier).trans (hweight (heq.symm.trans hsame))
            . exact hbest.weight_le z (List.mem_cons_of_mem _ hz) hsame

end Scan
