import Mathlib.Data.List.Forall2

/-!
Rules for reading a computation in `EStateM` or in `Except` backwards: what must have happened
for it to end in `.ok`, and that it does end in `.ok` with a given postcondition.
-/

namespace EStateM

variable {ε σ α β : Type}

theorem bind_run_eq_ok {x : EStateM ε σ α} {f : α → EStateM ε σ β} {s s'' : σ} {b : β}
    : (x >>= f).run s = .ok b s'' ↔ ∃ a s', x.run s = .ok a s' ∧ (f a).run s' = .ok b s'' := by
  rw [run_bind]
  cases x.run s with
  | ok a s' =>
    constructor
    . intro h
      exact ⟨a, s', rfl, h⟩
    . rintro ⟨a', t, ht, h⟩
      cases ht
      exact h
  | error e s' =>
    constructor
    . intro h
      cases h
    . rintro ⟨a', t, ht, -⟩
      cases ht

/--
`x` started in `s` ends in `.ok`, and its result and final state satisfy `Q`.
-/
def Yields (x : EStateM ε σ α) (s : σ) (Q : α → σ → Prop) : Prop :=
  ∃ a s', x.run s = .ok a s' ∧ Q a s'

theorem Yields.pure {s : σ} {Q : α → σ → Prop} {a : α} (h : Q a s)
    : Yields (Pure.pure a : EStateM ε σ α) s Q := by
  exact ⟨a, s, rfl, h⟩

theorem Yields.bind {x : EStateM ε σ α} {f : α → EStateM ε σ β} {s : σ} {Q : α → σ → Prop}
    {R : β → σ → Prop} (hx : Yields x s Q) (hf : ∀ a s', Q a s' → Yields (f a) s' R)
    : Yields (x >>= f) s R := by
  rcases hx with ⟨a, s', hrun, hQ⟩
  rcases hf a s' hQ with ⟨b, s'', hrun', hR⟩
  refine ⟨b, s'', ?_, hR⟩
  rw [bind_run_eq_ok]
  exact ⟨a, s', hrun, hrun'⟩

theorem Yields.mono {x : EStateM ε σ α} {s : σ} {Q R : α → σ → Prop} (hx : Yields x s Q)
    (h : ∀ a s', Q a s' → R a s') : Yields x s R := by
  rcases hx with ⟨a, s', hrun, hQ⟩
  exact ⟨a, s', hrun, h a s' hQ⟩

theorem Yields.bind_of_run {x : EStateM ε σ α} {f : α → EStateM ε σ β} {s s' : σ} {a : α}
    {R : β → σ → Prop} (hx : x.run s = .ok a s') (hf : Yields (f a) s' R)
    : Yields (x >>= f) s R := by
  rcases hf with ⟨b, s'', hrun, hR⟩
  refine ⟨b, s'', ?_, hR⟩
  rw [bind_run_eq_ok]
  exact ⟨a, s', hx, hrun⟩

theorem Yields.get_bind {f : σ → EStateM ε σ β} {s : σ} {R : β → σ → Prop}
    (h : Yields (f s) s R) : Yields (MonadState.get >>= f) s R := by
  rcases h with ⟨b, s', hrun, hR⟩
  exact ⟨b, s', hrun, hR⟩

theorem Yields.modify_bind {f : σ → σ} {g : PUnit → EStateM ε σ β} {s : σ} {R : β → σ → Prop}
    (h : Yields (g ⟨⟩) (f s) R) : Yields (modify f >>= g) s R := by
  rcases h with ⟨b, s', hrun, hR⟩
  exact ⟨b, s', hrun, hR⟩

theorem Yields.of_modify {f : σ → σ} {s : σ} {Q : PUnit → σ → Prop} (h : Q ⟨⟩ (f s))
    : Yields (ε := ε) (modify f) s Q := by
  exact ⟨⟨⟩, f s, rfl, h⟩

/--
The rule for a `for` loop over a list: `I` speaks about the elements still to come, the
accumulator and the state.
-/
theorem Yields.foldlM {γ : Type} {f : β → γ → EStateM ε σ β} (I : List γ → β → σ → Prop)
    (hf : ∀ x xs b s, I (x :: xs) b s → Yields (f b x) s (I xs))
    : ∀ (xs : List γ) (b : β) (s : σ), I xs b s → Yields (xs.foldlM f b) s (I []) := by
  intro xs
  induction xs with
  | nil =>
    intro b s h
    rw [List.foldlM_nil]
    exact Yields.pure h
  | cons x xs ih =>
    intro b s h
    rw [List.foldlM_cons]
    apply Yields.bind (hf x xs b s h)
    intro b' s' h'
    exact ih b' s' h'

theorem Yields.forM {γ : Type} {f : γ → EStateM ε σ PUnit} (I : List γ → σ → Prop)
    (hf : ∀ x xs s, I (x :: xs) s → Yields (f x) s fun _ => I xs)
    : ∀ (xs : List γ) (s : σ), I xs s → Yields (xs.forM f) s fun _ => I [] := by
  intro xs
  induction xs with
  | nil =>
    intro s h
    exact Yields.pure h
  | cons x xs ih =>
    intro s h
    apply Yields.bind (hf x xs s h)
    intro _ s' h'
    exact ih s' h'

/--
What each iteration of a `for` loop preserves when it succeeds, a loop that succeeds preserves.
-/
theorem foldlM_run_invariant {γ : Type} {f : β → γ → EStateM ε σ β} {I : List γ → β → σ → Prop}
    (hf : ∀ {x xs b b' s s'}, I (x :: xs) b s → (f b x).run s = .ok b' s' → I xs b' s')
    {xs : List γ} {b b' : β} {s s' : σ} (h : (xs.foldlM f b).run s = .ok b' s') (hI : I xs b s)
    : I [] b' s' := by
  induction xs generalizing b s with
  | nil =>
    cases h
    exact hI
  | cons x xs ih =>
    rw [List.foldlM_cons] at h
    rcases bind_run_eq_ok.mp h with ⟨b'', s'', hx, h⟩
    exact ih h (hf hI hx)

/--
`x` started in `s` ends in `.ok` with a result and a state that satisfy `Q`, or in `.error` with a
state that satisfies `E`.
-/
def Ends (x : EStateM ε σ α) (s : σ) (Q : α → σ → Prop) (E : σ → Prop) : Prop :=
  match x.run s with
  | .ok a s' => Q a s'
  | .error _ s' => E s'

theorem Ends.of_error {x : EStateM ε σ α} {s s' : σ} {Q : α → σ → Prop} {E : σ → Prop} {e : ε}
    (h : Ends x s Q E) (hrun : x.run s = .error e s') : E s' := by
  unfold Ends at h
  rw [hrun] at h
  exact h

theorem Ends.pure {s : σ} {Q : α → σ → Prop} {E : σ → Prop} {a : α} (h : Q a s)
    : Ends (Pure.pure a : EStateM ε σ α) s Q E :=
  h

theorem Ends.throw {s : σ} {Q : α → σ → Prop} {E : σ → Prop} {e : ε} (h : E s)
    : Ends (throw e : EStateM ε σ α) s Q E :=
  h

theorem Ends.bind {x : EStateM ε σ α} {f : α → EStateM ε σ β} {s : σ} {Q : α → σ → Prop}
    {R : β → σ → Prop} {E : σ → Prop} (hx : Ends x s Q E) (hf : ∀ a s', Q a s' → Ends (f a) s' R E)
    : Ends (x >>= f) s R E := by
  unfold Ends at hx ⊢
  rw [run_bind]
  cases hrun : x.run s with
  | ok a s' =>
    rw [hrun] at hx
    exact hf a s' hx
  | error e s' =>
    rw [hrun] at hx
    exact hx

theorem Ends.mono {x : EStateM ε σ α} {s : σ} {Q R : α → σ → Prop} {E F : σ → Prop}
    (hx : Ends x s Q E) (hQ : ∀ a s', Q a s' → R a s') (hE : ∀ s', E s' → F s') : Ends x s R F := by
  unfold Ends at hx ⊢
  cases hrun : x.run s with
  | ok a s' =>
    rw [hrun] at hx
    exact hQ a s' hx
  | error e s' =>
    rw [hrun] at hx
    exact hE s' hx

theorem Ends.get_bind {f : σ → EStateM ε σ β} {s : σ} {R : β → σ → Prop} {E : σ → Prop}
    (h : Ends (f s) s R E) : Ends (MonadState.get >>= f) s R E :=
  h

theorem Ends.modify_bind {f : σ → σ} {g : PUnit → EStateM ε σ β} {s : σ} {R : β → σ → Prop}
    {E : σ → Prop} (h : Ends (g ⟨⟩) (f s) R E) : Ends (modify f >>= g) s R E :=
  h

theorem Ends.of_modify {f : σ → σ} {s : σ} {Q : PUnit → σ → Prop} {E : σ → Prop} (h : Q ⟨⟩ (f s))
    : Ends (ε := ε) (modify f) s Q E :=
  h

theorem Yields.ends {x : EStateM ε σ α} {s : σ} {Q : α → σ → Prop} (h : Yields x s Q) (E : σ → Prop)
    : Ends x s Q E := by
  rcases h with ⟨a, s', hrun, hQ⟩
  unfold Ends
  rw [hrun]
  exact hQ

/--
What each iteration of a `for` loop preserves, however it ends.
-/
theorem Ends.foldlM {γ : Type} {f : β → γ → EStateM ε σ β} (I : β → σ → Prop) {E : σ → Prop}
    {xs : List γ} (hf : ∀ x ∈ xs, ∀ b s, I b s → Ends (f b x) s I E) {b : β} {s : σ} (h : I b s)
    : Ends (xs.foldlM f b) s I E := by
  induction xs generalizing b s with
  | nil => exact h
  | cons x xs ih =>
    rw [List.foldlM_cons]
    apply Ends.bind (hf x List.mem_cons_self b s h)
    intro b' s' h'
    exact ih (fun y hy => hf y (List.mem_cons_of_mem _ hy)) h'

section Respects

variable {R : σ → σ → Prop}

/--
`R` relates the states before and after `x`, however it ends.
-/
def Respects (R : σ → σ → Prop) (x : EStateM ε σ α) : Prop :=
  ∀ s, Ends x s (fun _ => R s) (R s)

theorem Respects.pure (hrefl : ∀ s, R s s) (a : α) : Respects R (Pure.pure a : EStateM ε σ α) :=
  hrefl

theorem Respects.throw (hrefl : ∀ s, R s s) (e : ε)
    : Respects R (MonadExceptOf.throw e : EStateM ε σ α) :=
  hrefl

theorem Respects.modify {f : σ → σ} (h : ∀ s, R s (f s))
    : Respects (ε := ε) R (modify f) :=
  h

theorem Respects.get_bind {f : σ → EStateM ε σ β} (h : ∀ s, Respects R (f s))
    : Respects R (MonadState.get >>= f) :=
  fun s => h s s

theorem Respects.bind (htrans : ∀ {s t u}, R s t → R t u → R s u) {x : EStateM ε σ α}
    {f : α → EStateM ε σ β} (hx : Respects R x) (hf : ∀ a, Respects R (f a))
    : Respects R (x >>= f) :=
  fun s => Ends.bind (hx s) fun a t ht =>
    Ends.mono (hf a t) (fun _ _ hu => htrans ht hu) fun _ hu => htrans ht hu

theorem Respects.foldlM (hrefl : ∀ s, R s s) (htrans : ∀ {s t u}, R s t → R t u → R s u)
    {γ : Type} {f : β → γ → EStateM ε σ β} (hf : ∀ b x, Respects R (f b x)) (xs : List γ) (b : β)
    : Respects R (xs.foldlM f b) :=
  fun s => Ends.foldlM (fun _ => R s) (fun x _ b t ht =>
    Ends.mono (hf b x t) (fun _ _ hu => htrans ht hu) fun _ hu => htrans ht hu) (hrefl s)

end Respects

section Tracks

variable {τ γ : Type} {R S : σ → τ → Prop} {s : σ} {t : τ}

/--
When `y` started in `t` ends in `.ok`, then `x` started in `s` ends in `.ok` with the same result, and
`R` relates the final states.
-/
def Tracks (x : EStateM ε σ α) (y : EStateM ε τ α) (R : σ → τ → Prop) (s : σ) (t : τ) : Prop :=
  ∀ a t', y.run t = .ok a t' → ∃ s', x.run s = .ok a s' ∧ R s' t'

theorem Tracks.pure {a : α} (h : R s t)
    : Tracks (Pure.pure a : EStateM ε σ α) (Pure.pure a : EStateM ε τ α) R s t := by
  intro b t' hrun
  cases hrun
  exact ⟨s, rfl, h⟩

theorem Tracks.bind {x : EStateM ε σ α} {y : EStateM ε τ α} {f : α → EStateM ε σ β}
    {g : α → EStateM ε τ β} (hx : Tracks x y R s t)
    (hf : ∀ a s' t', R s' t' → Tracks (f a) (g a) S s' t')
    : Tracks (x >>= f) (y >>= g) S s t := by
  intro b t'' hrun
  rcases bind_run_eq_ok.mp hrun with ⟨a, t', hy, hg⟩
  rcases hx a t' hy with ⟨s', hx', hR⟩
  rcases hf a s' t' hR b t'' hg with ⟨s'', hf', hS⟩
  exact ⟨s'', bind_run_eq_ok.mpr ⟨a, s', hx', hf'⟩, hS⟩

theorem Tracks.get_bind {f : σ → EStateM ε σ β} {g : τ → EStateM ε τ β}
    (h : Tracks (f s) (g t) R s t)
    : Tracks (MonadState.get >>= f) (MonadState.get >>= g) R s t :=
  h

theorem Tracks.modify_bind {p : σ → σ} {q : τ → τ} {f : PUnit → EStateM ε σ β}
    {g : PUnit → EStateM ε τ β} (h : Tracks (f ⟨⟩) (g ⟨⟩) R (p s) (q t))
    : Tracks (modify p >>= f) (modify q >>= g) R s t :=
  h

theorem Tracks.of_modify {p : σ → σ} {q : τ → τ} (h : R (p s) (q t))
    : Tracks (ε := ε) (modify p) (modify q) R s t := by
  intro a t' hrun
  cases hrun
  exact ⟨p s, rfl, h⟩

theorem Tracks.foldlM {f : β → γ → EStateM ε σ β} {g : β → γ → EStateM ε τ β} {xs : List γ}
    (hf : ∀ x ∈ xs, ∀ b s t, R s t → Tracks (f b x) (g b x) R s t) {b : β} (h : R s t)
    : Tracks (xs.foldlM f b) (xs.foldlM g b) R s t := by
  induction xs generalizing b s t with
  | nil => exact Tracks.pure h
  | cons x xs ih =>
    rw [List.foldlM_cons, List.foldlM_cons]
    apply Tracks.bind (hf x List.mem_cons_self b s t h)
    intro b' s' t' h'
    exact ih (fun y hy => hf y (List.mem_cons_of_mem _ hy)) h'

theorem Tracks.forM {f : γ → EStateM ε σ PUnit} {g : γ → EStateM ε τ PUnit} {xs : List γ}
    (hf : ∀ x ∈ xs, ∀ s t, R s t → Tracks (f x) (g x) R s t) (h : R s t)
    : Tracks (xs.forM f) (xs.forM g) R s t := by
  induction xs generalizing s t with
  | nil => exact Tracks.pure h
  | cons x xs ih =>
    apply Tracks.bind (hf x List.mem_cons_self s t h)
    intro _ s' t' h'
    exact ih (fun y hy => hf y (List.mem_cons_of_mem _ hy)) h'

theorem Tracks.yields {x : EStateM ε σ α} {y : EStateM ε τ α} {Q : α → τ → Prop}
    (h : Tracks x y R s t) (hy : Yields y t Q)
    : Yields x s fun a s' => ∃ t', R s' t' ∧ y.run t = .ok a t' ∧ Q a t' := by
  rcases hy with ⟨a, t', hrun, hQ⟩
  rcases h a t' hrun with ⟨s', hx, hR⟩
  exact ⟨a, s', hx, t', hR, hrun, hQ⟩

end Tracks

/--
The state in which `x` leaves the program, whether it ends in `.ok` or in `.error`.
-/
def finalState (x : EStateM ε σ α) (s : σ) : σ :=
  match x.run s with
  | .ok _ s' => s'
  | .error _ s' => s'

theorem finalState_of_run {x : EStateM ε σ α} {s s' : σ} {a : α} (h : x.run s = .ok a s')
    : x.finalState s = s' := by
  unfold finalState
  rw [h]

theorem Yields.finalState {x : EStateM ε σ α} {s : σ} {Q : α → σ → Prop} (h : Yields x s Q)
    : ∃ a, Q a (x.finalState s) := by
  rcases h with ⟨a, s', hrun, hQ⟩
  refine ⟨a, ?_⟩
  unfold EStateM.finalState
  rw [hrun]
  exact hQ

/--
A result is there and satisfies `p`.
-/
def Result.okAny (r : Result ε σ α) (p : α → Bool) : Bool :=
  match r with
  | .ok a _ => p a
  | .error _ _ => false

theorem Result.exists_eq_ok_of_okAny {r : Result ε σ α} {p : α → Bool} (h : r.okAny p = true)
    : ∃ a s, r = .ok a s ∧ p a = true := by
  cases r with
  | ok a s => exact ⟨a, s, rfl, h⟩
  | error e s => cases h

theorem exists_run_eq_finalState {x : EStateM ε σ α} {s : σ} {p : α → Bool}
    (h : (x.run s).okAny p = true) : ∃ a, x.run s = .ok a (x.finalState s) := by
  rcases Result.exists_eq_ok_of_okAny h with ⟨a, s', hrun, -⟩
  refine ⟨a, ?_⟩
  unfold finalState
  rw [hrun]

end EStateM

namespace List.Forall₂

variable {α β : Type} {R : α → β → Prop} {xs xs' : List α} {ys : List β}

theorem exists_of_mem (h : List.Forall₂ R xs ys) {x : α} (hx : x ∈ xs) : ∃ y ∈ ys, R x y := by
  induction h with
  | nil => cases hx
  | cons hR _ ih =>
    rcases List.mem_cons.mp hx with rfl | hx
    . exact ⟨_, List.mem_cons_self, hR⟩
    . rcases ih hx with ⟨y, hy, hR⟩
      exact ⟨y, List.mem_cons_of_mem _ hy, hR⟩

theorem exists_append (h : List.Forall₂ R (xs ++ xs') ys)
    : ∃ zs zs', ys = zs ++ zs' ∧ List.Forall₂ R xs zs ∧ List.Forall₂ R xs' zs' := by
  induction xs generalizing ys with
  | nil => exact ⟨[], ys, rfl, .nil, h⟩
  | cons x xs ih =>
    cases h with
    | cons hx h =>
      rcases ih h with ⟨zs, zs', rfl, hzs, hzs'⟩
      exact ⟨_ :: zs, zs', rfl, .cons hx hzs, hzs'⟩

end List.Forall₂

namespace Except

variable {ε α β : Type}

theorem mapError_eq_ok {ε' : Type} {x : Except ε α} {f : ε → ε'} {a : α}
    : x.mapError f = .ok a ↔ x = .ok a := by
  cases x <;> simp [Except.mapError]

theorem bind_eq_ok {x : Except ε α} {f : α → Except ε β} {b : β}
    : (x >>= f) = .ok b ↔ ∃ a, x = .ok a ∧ f a = .ok b := by
  cases x with
  | ok a =>
    constructor
    . intro h
      exact ⟨a, rfl, h⟩
    . rintro ⟨a', ha, h⟩
      cases ha
      exact h
  | error e =>
    constructor
    . intro h
      cases h
    . rintro ⟨a', ha, -⟩
      cases ha

theorem foldlM_invariant {f : β → α → Except ε β} {I : β → Prop} {xs : List α} {b b' : β}
    (hf : ∀ {b b' : β} {x : α}, x ∈ xs → I b → f b x = .ok b' → I b')
    (h : xs.foldlM f b = .ok b') (hb : I b) : I b' := by
  induction xs generalizing b with
  | nil =>
    cases h
    exact hb
  | cons x xs ih =>
    rw [List.foldlM_cons] at h
    rcases bind_eq_ok.mp h with ⟨b'', hx, h⟩
    exact ih (fun hmem => hf (List.mem_cons_of_mem x hmem)) h (hf List.mem_cons_self hb hx)

/--
A loop whose body does not fail does not fail.
-/
theorem exists_foldlM {f : β → α → Except ε β} {xs : List α}
    (hf : ∀ b, ∀ x ∈ xs, ∃ b', f b x = .ok b') (b : β) : ∃ b', xs.foldlM f b = .ok b' := by
  induction xs generalizing b with
  | nil => exact ⟨b, rfl⟩
  | cons x xs ih =>
    rcases hf b x List.mem_cons_self with ⟨b', hx⟩
    rw [List.foldlM_cons, hx]
    exact ih (fun c y hy => hf c y (List.mem_cons_of_mem x hy)) b'

/--
A loop whose body commutes with `g` commutes with `g`.
-/
theorem foldlM_map {γ : Type} {f : β → α → Except ε β} {f' : γ → α → Except ε γ} {g : β → γ}
    {I : List α → β → Prop} {xs : List α} {b : β}
    (hf : ∀ {b : β} {x : α} {xs : List α}, I (x :: xs) b →
      f' (g b) x = (f b x).map g ∧ ∀ b', f b x = .ok b' → I xs b')
    (hb : I xs b) : xs.foldlM f' (g b) = (xs.foldlM f b).map g := by
  induction xs generalizing b with
  | nil => rfl
  | cons x xs ih =>
    rw [List.foldlM_cons, List.foldlM_cons, (hf hb).1]
    cases hx : f b x with
    | error e => rfl
    | ok b' => exact ih ((hf hb).2 b' hx)

/--
A loop whose body computes a value for each element and adds it to the accumulator is a pass over the
values.
-/
theorem exists_of_foldlM {γ : Type} {f : β → α → Except ε β} {g : α → Except ε γ} {push : β → γ → β}
    (hf : ∀ b x, f b x = (g x).map (push b)) {xs : List α} {b b' : β} (h : xs.foldlM f b = .ok b')
    : ∃ ys, List.Forall₂ (fun x y => g x = .ok y) xs ys ∧ b' = ys.foldl push b := by
  induction xs generalizing b with
  | nil =>
    cases h
    exact ⟨[], .nil, rfl⟩
  | cons x xs ih =>
    rw [List.foldlM_cons, hf] at h
    cases hx : g x with
    | error e =>
      rw [hx] at h
      cases h
    | ok y =>
      rw [hx] at h
      rcases ih h with ⟨ys, hys, rfl⟩
      exact ⟨y :: ys, .cons hx hys, rfl⟩

/--
What holds of each step of a loop that succeeds.
-/
theorem exists_of_mem_foldlM {f : β → α → Except ε β} {I : β → Prop} {xs : List α} {b b' : β}
    (hf : ∀ {b b' : β} {x : α}, x ∈ xs → I b → f b x = .ok b' → I b')
    (h : xs.foldlM f b = .ok b') (hb : I b) {x : α} (hx : x ∈ xs)
    : ∃ c c', I c ∧ f c x = .ok c' := by
  induction xs generalizing b with
  | nil => cases hx
  | cons y xs ih =>
    rw [List.foldlM_cons] at h
    rcases bind_eq_ok.mp h with ⟨b'', hy, h⟩
    rcases List.mem_cons.mp hx with rfl | hx
    . exact ⟨b, b'', hb, hy⟩
    . exact ih (fun hmem => hf (List.mem_cons_of_mem y hmem)) h (hf List.mem_cons_self hb hy) hx

section Cells

variable {κ γ : Type} (cell : β → κ → γ) (keys : α → List κ) (I : β → Prop)
variable (R : α → κ → γ → γ → Prop) {f : β → α → Except ε β} {xs : List α} {b : β}

/--
A loop whose iterations write to disjoint sets of cells writes each cell once: what an iteration does
to the cells as they are at the start is what the loop does to them.
-/
theorem foldlM_writes
    (hf : ∀ x ∈ xs, ∀ c, I c → (∀ k ∈ keys x, cell c k = cell b k) →
      ∃ c', f c x = .ok c' ∧ I c' ∧ (∀ k ∈ keys x, R x k (cell b k) (cell c' k))
        ∧ ∀ k, k ∉ keys x → cell c' k = cell c k)
    (hnodup : (xs.flatMap keys).Nodup) (hI : I b)
    : ∃ b', xs.foldlM f b = .ok b' ∧ I b'
        ∧ (∀ x ∈ xs, ∀ k ∈ keys x, R x k (cell b k) (cell b' k))
        ∧ ∀ k, k ∉ xs.flatMap keys → cell b' k = cell b k := by
  suffices ∀ (xs : List α) (c : β), I c → (xs.flatMap keys).Nodup →
      (∀ x ∈ xs, ∀ c, I c → (∀ k ∈ keys x, cell c k = cell b k) →
        ∃ c', f c x = .ok c' ∧ I c' ∧ (∀ k ∈ keys x, R x k (cell b k) (cell c' k))
          ∧ ∀ k, k ∉ keys x → cell c' k = cell c k) →
      (∀ k ∈ xs.flatMap keys, cell c k = cell b k) →
      ∃ c', xs.foldlM f c = .ok c' ∧ I c'
        ∧ (∀ x ∈ xs, ∀ k ∈ keys x, R x k (cell b k) (cell c' k))
        ∧ ∀ k, k ∉ xs.flatMap keys → cell c' k = cell c k from
    this xs b hI hnodup hf fun _ _ => rfl
  intro xs
  induction xs with
  | nil =>
    intro c hc _ _ _
    exact ⟨c, rfl, hc, fun x hx => absurd hx List.not_mem_nil, fun _ _ => rfl⟩
  | cons x xs ih =>
    intro c hc hnodup hf hcells
    rw [List.flatMap_cons, List.nodup_append] at hnodup
    rcases hnodup with ⟨-, hrest, hdisjoint⟩
    rw [List.flatMap_cons] at hcells
    rcases hf x List.mem_cons_self c hc fun k hk => hcells k (List.mem_append_left _ hk)
      with ⟨c₁, hx, hc₁, hwritten, hframe⟩
    rcases ih c₁ hc₁ hrest (fun y hy => hf y (List.mem_cons_of_mem x hy)) (by
      intro k hk
      rw [hframe k fun hmem => hdisjoint k hmem k hk rfl]
      exact hcells k (List.mem_append_right _ hk)) with ⟨c', hxs, hc', hwritten', hframe'⟩
    refine ⟨c', ?_, hc', ?_, ?_⟩
    . rw [List.foldlM_cons]
      exact bind_eq_ok.mpr ⟨c₁, hx, hxs⟩
    . intro y hy k hk
      rcases List.mem_cons.mp hy with rfl | hy
      . rw [hframe' k fun hmem => hdisjoint k hk k hmem rfl]
        exact hwritten k hk
      . exact hwritten' y hy k hk
    . intro k hk
      rw [List.flatMap_cons, List.mem_append, not_or] at hk
      rw [hframe' k hk.2, hframe k hk.1]

/--
The same for a loop that is known to succeed.
-/
theorem foldlM_wrote {b' : β}
    (hf : ∀ x ∈ xs, ∀ c c', I c → (∀ k ∈ keys x, cell c k = cell b k) → f c x = .ok c' →
      I c' ∧ (∀ k ∈ keys x, R x k (cell b k) (cell c' k))
        ∧ ∀ k, k ∉ keys x → cell c' k = cell c k)
    (hnodup : (xs.flatMap keys).Nodup) (hI : I b) (h : xs.foldlM f b = .ok b')
    : (∀ x ∈ xs, ∀ k ∈ keys x, R x k (cell b k) (cell b' k))
        ∧ ∀ k, k ∉ xs.flatMap keys → cell b' k = cell b k := by
  suffices ∀ (xs : List α) (c : β), I c → (xs.flatMap keys).Nodup →
      (∀ x ∈ xs, ∀ c c', I c → (∀ k ∈ keys x, cell c k = cell b k) → f c x = .ok c' →
        I c' ∧ (∀ k ∈ keys x, R x k (cell b k) (cell c' k))
          ∧ ∀ k, k ∉ keys x → cell c' k = cell c k) →
      (∀ k ∈ xs.flatMap keys, cell c k = cell b k) → xs.foldlM f c = .ok b' →
      (∀ x ∈ xs, ∀ k ∈ keys x, R x k (cell b k) (cell b' k))
        ∧ ∀ k, k ∉ xs.flatMap keys → cell b' k = cell c k from
    this xs b hI hnodup hf (fun _ _ => rfl) h
  intro xs
  induction xs with
  | nil =>
    intro c _ _ _ _ h
    cases h
    exact ⟨fun x hx => absurd hx List.not_mem_nil, fun _ _ => rfl⟩
  | cons x xs ih =>
    intro c hc hnodup hf hcells h
    rw [List.flatMap_cons, List.nodup_append] at hnodup
    rcases hnodup with ⟨-, hrest, hdisjoint⟩
    rw [List.flatMap_cons] at hcells
    rw [List.foldlM_cons] at h
    rcases bind_eq_ok.mp h with ⟨c₁, hx, hxs⟩
    rcases hf x List.mem_cons_self c c₁ hc (fun k hk => hcells k (List.mem_append_left _ hk)) hx
      with ⟨hc₁, hwritten, hframe⟩
    rcases ih c₁ hc₁ hrest (fun y hy => hf y (List.mem_cons_of_mem x hy)) (by
      intro k hk
      rw [hframe k fun hmem => hdisjoint k hmem k hk rfl]
      exact hcells k (List.mem_append_right _ hk)) hxs with ⟨hwritten', hframe'⟩
    constructor
    . intro y hy k hk
      rcases List.mem_cons.mp hy with rfl | hy
      . rw [hframe' k fun hmem => hdisjoint k hk k hmem rfl]
        exact hwritten k hk
      . exact hwritten' y hy k hk
    . intro k hk
      rw [List.flatMap_cons, List.mem_append, not_or] at hk
      rw [hframe' k hk.2, hframe k hk.1]

end Cells

theorem mapM_eq_ok {f : α → Except ε β} {g : α → β} {xs : List α}
    (h : ∀ x ∈ xs, f x = .ok (g x)) : xs.mapM f = .ok (xs.map g) := by
  induction xs with
  | nil => rfl
  | cons x xs ih =>
    rw [List.mapM_cons, h x List.mem_cons_self,
      ih (fun x hx => h x (List.mem_cons_of_mem _ hx))]
    rfl

theorem exists_mapM {f : α → Except ε β} {xs : List α} (h : ∀ x ∈ xs, ∃ y, f x = .ok y)
    : ∃ ys, xs.mapM f = .ok ys := by
  induction xs with
  | nil => exact ⟨[], rfl⟩
  | cons x xs ih =>
    rcases h x List.mem_cons_self with ⟨y, hy⟩
    rcases ih fun x hx => h x (List.mem_cons_of_mem _ hx) with ⟨ys, hys⟩
    rw [List.mapM_cons, hy, hys]
    exact ⟨y :: ys, rfl⟩

theorem forall₂_of_mapM {f : α → Except ε β} {xs : List α} {ys : List β} (h : xs.mapM f = .ok ys)
    : List.Forall₂ (fun x y => f x = .ok y) xs ys := by
  induction xs generalizing ys with
  | nil =>
    cases h
    exact .nil
  | cons x xs ih =>
    rw [List.mapM_cons] at h
    rcases bind_eq_ok.mp h with ⟨y, hx, h⟩
    rcases bind_eq_ok.mp h with ⟨ys', hxs, hpure⟩
    cases hpure
    exact .cons hx (ih hxs)

theorem exists_of_mapM {f : α → Except ε β} {xs : List α} {ys : List β} (h : xs.mapM f = .ok ys)
    {y : β} (hy : y ∈ ys) : ∃ x ∈ xs, f x = .ok y :=
  (forall₂_of_mapM h).flip.exists_of_mem hy

theorem toOption_eq_some {x : Except ε α} {a : α} (h : x.toOption = some a) : x = .ok a := by
  cases x with
  | ok a' =>
    cases h
    rfl
  | error e => cases h

theorem exists_eq_ok_of_any {x : Except ε α} {p : α → Bool} (h : x.toOption.any p = true)
    : ∃ a, x = .ok a ∧ p a = true := by
  cases x with
  | ok a => exact ⟨a, rfl, h⟩
  | error e => cases h

theorem eq_error_of_eq_some {x : Except ε α} {e : ε}
    (h : (match x with | .ok _ => none | .error e => some e) = some e) : x = .error e := by
  cases x with
  | ok a => cases h
  | error e' =>
    cases h
    rfl

end Except
