import Mathlib.Logic.Relation

/-!
Loops that carry the measure that makes them end, and the rules for them: what one iteration
preserves, a whole run preserves.
-/

/--
A loop over local variables `σ` that ends with a result `ρ` or fails with `ε`. `step` is its body.
-/
structure Loop (ε σ ρ : Type) where
  step : σ → Except ε (σ ⊕ ρ)
  measure : σ → Nat
  decreasing : ∀ {s s' : σ}, step s = .ok (.inl s') → measure s' < measure s

namespace Loop

variable {ε σ ρ : Type} (l : Loop ε σ ρ)

def run (s : σ) : Except ε ρ :=
  match _h : l.step s with
  | .error e => .error e
  | .ok (.inr r) => .ok r
  | .ok (.inl s') => run s'
termination_by l.measure s
decreasing_by exact l.decreasing _h

/--
`s'` is one of the values the local variables take when the loop is started with `s`.
-/
def Reaches (s s' : σ) : Prop :=
  Relation.ReflTransGen (fun s s' => l.step s = .ok (.inl s')) s s'

theorem run_of_next {s s' : σ} (h : l.step s = .ok (.inl s')) : l.run s = l.run s' := by
  rw [run]
  split
  . next h' => rw [h] at h'; cases h'
  . next h' => rw [h] at h'; cases h'
  . next h' => rw [h] at h'; cases h'; rfl

theorem run_of_done {s : σ} {r : ρ} (h : l.step s = .ok (.inr r)) : l.run s = .ok r := by
  rw [run]
  split
  . next h' => rw [h] at h'; cases h'
  . next h' => rw [h] at h'; cases h'; rfl
  . next h' => rw [h] at h'; cases h'

theorem run_of_error {s : σ} {e : ε} (h : l.step s = .error e) : l.run s = .error e := by
  rw [run]
  split
  . next h' => rw [h] at h'; cases h'; rfl
  . next h' => rw [h] at h'; cases h'
  . next h' => rw [h] at h'; cases h'

/--
A run that ends reaches a last iteration, the one that returns.
-/
theorem exists_last_of_run_eq_ok {s : σ} {r : ρ} (h : l.run s = .ok r)
    : ∃ s', l.Reaches s s' ∧ l.step s' = .ok (.inr r) := by
  cases hstep : l.step s with
  | error e =>
    rw [l.run_of_error hstep] at h
    cases h
  | ok v =>
    cases v with
    | inl s' =>
      rw [l.run_of_next hstep] at h
      have := l.decreasing hstep
      rcases exists_last_of_run_eq_ok h with ⟨last, hreach, hlast⟩
      exact ⟨last, .head hstep hreach, hlast⟩
    | inr r' =>
      rw [l.run_of_done hstep] at h
      cases h
      exact ⟨s, .refl, hstep⟩
termination_by l.measure s

/--
An invariant of the body holds at every iteration.
-/
theorem invariant_of_reaches {I : σ → Prop}
    (hnext : ∀ {s s' : σ}, I s → l.step s = .ok (.inl s') → I s') {s s' : σ}
    (hreach : l.Reaches s s') (hs : I s) : I s' := by
  induction hreach with
  | refl => exact hs
  | tail _ hstep ih => exact hnext ih hstep

theorem run_of_reaches {s s' : σ} (h : l.Reaches s s') : l.run s = l.run s' := by
  induction h with
  | refl => rfl
  | tail _ hstep ih => rw [ih, l.run_of_next hstep]

/--
The values that the local variables take, in order.
-/
def states (s : σ) : List σ :=
  match _h : l.step s with
  | .ok (.inl s') => s :: states s'
  | _ => [s]
termination_by l.measure s
decreasing_by exact l.decreasing _h

theorem mem_states_of_reaches {s s' : σ} (h : l.Reaches s s') : s' ∈ l.states s := by
  induction h using Relation.ReflTransGen.head_induction_on with
  | refl =>
    unfold states
    split
    . exact List.mem_cons_self
    . exact List.mem_singleton_self _
  | head hstep _ ih =>
    unfold states
    split
    . next hnext =>
      rw [hstep] at hnext
      cases hnext
      exact List.mem_cons_of_mem _ ih
    . next hnone => exact absurd hstep (hnone _)

/--
The measure bounds the number of iterations.
-/
theorem length_states_le (s : σ) : (l.states s).length ≤ l.measure s + 1 := by
  unfold states
  split
  . next s' hstep =>
    have := l.decreasing hstep
    have := length_states_le s'
    rw [List.length_cons]
    omega
  . simp
termination_by l.measure s

/--
The loop rule for partial correctness.
-/
theorem run_invariant {I : σ → Prop} {Q : ρ → Prop}
    (hnext : ∀ {s s' : σ}, I s → l.step s = .ok (.inl s') → I s')
    (hdone : ∀ {s : σ} {r : ρ}, I s → l.step s = .ok (.inr r) → Q r)
    {s : σ} {r : ρ} (hs : I s) (hrun : l.run s = .ok r) : Q r := by
  rcases l.exists_last_of_run_eq_ok hrun with ⟨last, hreach, hlast⟩
  exact hdone (l.invariant_of_reaches hnext hreach hs) hlast

/--
A flag that an iteration raises when it starts in `B`, and that stays raised, tells whether the run
reaches `B`. This may rely on an invariant.
-/
theorem run_flag_of_invariant {I F B : σ → Prop} {G : ρ → Prop}
    (hkeeps : ∀ {s s' : σ}, I s → l.step s = .ok (.inl s') → I s')
    (hnext : ∀ {s s' : σ}, I s → l.step s = .ok (.inl s') → (F s' ↔ F s ∨ B s))
    (hdone : ∀ {s : σ} {r : ρ}, I s → l.step s = .ok (.inr r) → (G r ↔ F s ∨ B s))
    {s : σ} {r : ρ} (hs : I s) (hrun : l.run s = .ok r)
    : G r ↔ F s ∨ ∃ s', l.Reaches s s' ∧ B s' := by
  cases hstep : l.step s with
  | error e =>
    rw [l.run_of_error hstep] at hrun
    cases hrun
  | ok v =>
    have hreaches : ∀ {s'}, l.Reaches s s' ↔ s = s' ∨ ∃ t, l.step s = .ok (.inl t) ∧ l.Reaches t s' :=
      Relation.ReflTransGen.cases_head_iff
    cases v with
    | inl s' =>
      rw [l.run_of_next hstep] at hrun
      have := l.decreasing hstep
      rw [run_flag_of_invariant hkeeps hnext hdone (hkeeps hs hstep) hrun, hnext hs hstep]
      constructor
      . rintro ((hF | hB) | ⟨t, hreach, hB⟩)
        . exact .inl hF
        . exact .inr ⟨s, .refl, hB⟩
        . exact .inr ⟨t, .head hstep hreach, hB⟩
      . rintro (hF | ⟨t, hreach, hB⟩)
        . exact .inl (.inl hF)
        . rcases hreaches.mp hreach with rfl | ⟨t', hstep', hreach⟩
          . exact .inl (.inr hB)
          . rw [hstep] at hstep'
            cases hstep'
            exact .inr ⟨t, hreach, hB⟩
    | inr r' =>
      rw [l.run_of_done hstep] at hrun
      cases hrun
      rw [hdone hs hstep]
      constructor
      . rintro (hF | hB)
        . exact .inl hF
        . exact .inr ⟨s, .refl, hB⟩
      . rintro (hF | ⟨t, hreach, hB⟩)
        . exact .inl hF
        . rcases hreaches.mp hreach with rfl | ⟨t', hstep', hreach⟩
          . exact .inr hB
          . rw [hstep] at hstep'
            cases hstep'
termination_by l.measure s

theorem run_flag {F B : σ → Prop} {G : ρ → Prop}
    (hnext : ∀ {s s' : σ}, l.step s = .ok (.inl s') → (F s' ↔ F s ∨ B s))
    (hdone : ∀ {s : σ} {r : ρ}, l.step s = .ok (.inr r) → (G r ↔ F s ∨ B s))
    {s : σ} {r : ρ} (hrun : l.run s = .ok r) : G r ↔ F s ∨ ∃ s', l.Reaches s s' ∧ B s' :=
  l.run_flag_of_invariant (I := fun _ => True) (fun _ _ => trivial) (fun _ => hnext)
    (fun _ => hdone) trivial hrun

theorem run_ne_ok {s s' : σ} (hreach : l.Reaches s s')
    (hfails : ∀ result, l.step s' ≠ .ok result) (r : ρ) : l.run s ≠ .ok r := by
  rw [l.run_of_reaches hreach]
  cases hstep : l.step s' with
  | error e =>
    rw [l.run_of_error hstep]
    exact fun h => (by cases h)
  | ok result => exact absurd hstep (hfails result)

/--
The loop rule for total correctness: when the body never fails under the invariant, the loop
returns.
-/
theorem run_total {I : σ → Prop} {Q : ρ → Prop}
    (hstep : ∀ {s : σ}, I s →
      (∃ s', l.step s = .ok (.inl s') ∧ I s') ∨ (∃ r, l.step s = .ok (.inr r) ∧ Q r))
    {s : σ} (hs : I s) : ∃ r, l.run s = .ok r ∧ Q r := by
  rcases hstep hs with ⟨s', hnext, hs'⟩ | ⟨r, hdone, hr⟩
  . have := l.decreasing hnext
    rw [l.run_of_next hnext]
    exact run_total hstep hs'
  . rw [l.run_of_done hdone]
    exact ⟨r, rfl, hr⟩
termination_by l.measure s

end Loop
