import AtomaInfer.Worker.Sampling

/-!
What a model generates for one prompt on its own, and when two logits processors generate the same.
-/

namespace AtomaInfer

namespace ModelExecutor

variable {σ : Type} (executor : ModelExecutor σ)

/--
The tokens that are sampled after a prompt, one at a time, and the state of the processor then.
-/
def generate (params : NextTokenChooserParameters) (promptTokenIds : List Nat) (processor : σ)
    (numTokens : Nat) : Except ModelExecutorError (List Nat × σ) :=
  match numTokens with
  | 0 => .ok ([], processor)
  | numTokens + 1 => do
    let (outputTokenIds, processor) ← generate params promptTokenIds processor numTokens
    let tokenIds := promptTokenIds ++ outputTokenIds
    let (next, processor) ←
      executor.sampleRow params tokenIds processor (executor.forward tokenIds)
    return (outputTokenIds ++ [next.token], processor)

/--
`agree` relates states of processors that draw the same tokens.
-/
structure Agrees (agree : σ → σ → Prop) : Prop where
  draw : ∀ processor processor' row token next, agree processor processor' →
    executor.draw processor row = .ok (token, next) →
      ∃ next', executor.draw processor' row = .ok (token, next') ∧ agree next next'

variable {executor} {params : NextTokenChooserParameters} {promptTokenIds tokenIds : List Nat}
variable {processor processor' final : σ} {row : List ℚ} {next : NextToken}
variable {agree : σ → σ → Prop}

theorem agrees_eq (executor : ModelExecutor σ) : executor.Agrees Eq := by
  constructor
  rintro processor processor' row token next rfl hdraw
  exact ⟨next, hdraw, rfl⟩

theorem exists_draw_of_sampleRow
    (h : executor.sampleRow params tokenIds processor row = .ok (next, final))
    : ∃ logits,
        executor.penalize params tokenIds row = .ok logits
          ∧ executor.draw processor logits = .ok (next.token, final)
          ∧ ∀ processor' final',
              executor.draw processor' logits = .ok (next.token, final') →
                executor.sampleRow params tokenIds processor' row = .ok (next, final') := by
  rcases Except.bind_eq_ok.mp h with ⟨logits, hpenalize, h⟩
  rcases Except.bind_eq_ok.mp h with ⟨⟨token, processor⟩, hdraw, hlogprob⟩
  dsimp only at hlogprob
  split at hlogprob
  . cases hlogprob
  . next logprob hget =>
    cases hlogprob
    refine ⟨logits, hpenalize, Except.mapError_eq_ok.mp hdraw, ?_⟩
    intro processor' final' hdraw'
    refine Except.bind_eq_ok.mpr ⟨logits, hpenalize, ?_⟩
    refine Except.bind_eq_ok.mpr ⟨(token, final'), Except.mapError_eq_ok.mpr hdraw', ?_⟩
    dsimp only
    rw [hget]
    rfl

theorem Agrees.sampleRow (h : executor.Agrees agree) (hagree : agree processor processor')
    (hrow : executor.sampleRow params tokenIds processor row = .ok (next, final))
    : ∃ final', executor.sampleRow params tokenIds processor' row = .ok (next, final')
        ∧ agree final final' := by
  rcases exists_draw_of_sampleRow hrow with ⟨logits, -, hdraw, hsame⟩
  rcases h.draw _ _ _ _ _ hagree hdraw with ⟨final', hdraw', hagree'⟩
  exact ⟨final', hsame _ _ hdraw', hagree'⟩

/--
What is generated is only added to.
-/
theorem isPrefix_generate {numTokens numTokens' : Nat} {outputTokenIds outputTokenIds' : List Nat}
    {final' : σ}
    (h : executor.generate params promptTokenIds processor numTokens = .ok (outputTokenIds, final))
    (h' : executor.generate params promptTokenIds processor numTokens'
      = .ok (outputTokenIds', final'))
    (hle : numTokens ≤ numTokens') : outputTokenIds <+: outputTokenIds' := by
  induction numTokens', hle using Nat.le_induction generalizing outputTokenIds' final' with
  | base =>
    rw [h] at h'
    cases h'
    exact List.prefix_refl _
  | succ numTokens' _ ih =>
    rcases Except.bind_eq_ok.mp h' with ⟨⟨earlier, between⟩, hearlier, h'⟩
    rcases Except.bind_eq_ok.mp h' with ⟨⟨next, _⟩, -, hpure⟩
    cases hpure
    exact (ih hearlier).trans (List.prefix_append _ _)

theorem generate_succ {numTokens : Nat} {outputTokenIds : List Nat} {between : σ}
    (h : executor.generate params promptTokenIds processor numTokens
      = .ok (outputTokenIds, between))
    (hrow : executor.sampleRow params (promptTokenIds ++ outputTokenIds) between
        (executor.forward (promptTokenIds ++ outputTokenIds)) = .ok (next, final))
    : executor.generate params promptTokenIds processor (numTokens + 1)
        = .ok (outputTokenIds ++ [next.token], final) :=
  Except.bind_eq_ok.mpr
    ⟨(outputTokenIds, between), h, Except.bind_eq_ok.mpr ⟨(next, final), hrow, rfl⟩⟩

/--
Processors that draw the same tokens generate the same ones.
-/
theorem Agrees.generate {params' : NextTokenChooserParameters} (h : executor.Agrees agree)
    (hpenalty : params.repetitionPenalty = params'.repetitionPenalty)
    (hlast : params.repeatLastN = params'.repeatLastN) {numTokens : Nat}
    {outputTokenIds : List Nat} (hagree : agree processor processor')
    (hgenerate : executor.generate params promptTokenIds processor numTokens
      = .ok (outputTokenIds, final))
    : ∃ final',
        executor.generate params' promptTokenIds processor' numTokens
            = .ok (outputTokenIds, final')
          ∧ agree final final' := by
  have hsampleRow : executor.sampleRow params = executor.sampleRow params' := by
    funext tokenIds processor row
    unfold ModelExecutor.sampleRow penalize
    rw [hpenalty, hlast]
  induction numTokens generalizing outputTokenIds final with
  | zero =>
    cases hgenerate
    exact ⟨processor', rfl, hagree⟩
  | succ numTokens ih =>
    rcases Except.bind_eq_ok.mp hgenerate with ⟨⟨earlier, between⟩, hearlier, hgenerate⟩
    rcases Except.bind_eq_ok.mp hgenerate with ⟨⟨next, _⟩, hrow, hpure⟩
    cases hpure
    rcases ih hearlier with ⟨between', hearlier', hagree'⟩
    rcases h.sampleRow hagree' hrow with ⟨final', hrow', hfinal⟩
    rw [hsampleRow] at hrow'
    exact ⟨final', generate_succ hearlier' hrow', hfinal⟩

/--
`greedy` states draw a token that depends on the row only: what the sampling library documents of
processors that take the most likely token.
-/
structure TakesArgMax (executor : ModelExecutor σ) (greedy : σ → Prop) : Prop where
  fromSampling : ∀ seed, greedy (executor.fromSampling ⟨seed, .argMax⟩)
  greedy_of_draw : ∀ processor row token next, greedy processor →
    executor.draw processor row = .ok (token, next) → greedy next
  exists_draw : ∀ processor processor' row token next, greedy processor → greedy processor' →
    executor.draw processor row = .ok (token, next) →
      ∃ next', executor.draw processor' row = .ok (token, next')

theorem TakesArgMax.agrees {greedy : σ → Prop} (h : executor.TakesArgMax greedy)
    : executor.Agrees fun processor processor' => greedy processor ∧ greedy processor' := by
  constructor
  rintro processor processor' row token next ⟨hgreedy, hgreedy'⟩ hdraw
  rcases h.exists_draw _ _ _ _ _ hgreedy hgreedy' hdraw with ⟨next', hdraw'⟩
  exact ⟨next', hdraw', h.greedy_of_draw _ _ _ _ hgreedy hdraw,
    h.greedy_of_draw _ _ _ _ hgreedy' hdraw'⟩

end ModelExecutor

end AtomaInfer
