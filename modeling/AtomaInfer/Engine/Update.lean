import AtomaInfer.Engine.Impl

/-!
What the engine does to a sequence of the batch, apart from what it sends to the client, and which
of its other fields an update leaves alone.
-/

namespace AtomaInfer

namespace LlmEngine

variable (engine : LlmEngine)

/--
The client of `requestId` listens, if it is a streaming client.
-/
def CanStream (requestId : String) : Prop :=
  ∀ channel, engine.responseStreamingSenders.lookup requestId = some channel →
    channel ∉ engine.disconnected

/--
The messages that `responses` are to the client of `requestId`, if it is a streaming client.
-/
def messages (requestId : String) (responses : List StreamResponse) : List (Channel × Message) :=
  match engine.responseStreamingSenders.lookup requestId with
  | none => []
  | some channel => responses.map fun response => (channel, .streaming response)

def stream (requestId : String) (responses : List StreamResponse) : LlmEngine :=
  { engine with sent := engine.sent ++ engine.messages requestId responses }

/--
The stopping conditions of a sequence that has just got the token of `output`, with the statuses
that they set, in the order in which they are tested.
-/
def stoppingConditions (generatedToken : String) (output : SequenceOutput)
    (criteria : StoppingCriteriaParameters) (maxModelLen : Nat) (sequence : Sequence)
    : List (Bool × SequenceStatus) :=
  [
    (decide (generatedToken ∈ criteria.stopSequences), .finishedStopped),
    (output.isStopToken && !criteria.ignoreEosToken, .finishedStopped),
    (decide (maxModelLen < sequence.length), .finishedLengthCapped),
    (decide (criteria.maxNewTokens ≤ sequence.getOutputLen), .finishedLengthCapped)
  ]

/--
The sequence and the responses to a streaming client, after a token was sampled.
-/
def sample (created : Nat) (output : SequenceOutput) (metadata : SequenceGroupMetadata)
    (criteria : StoppingCriteriaParameters) (sequence : Sequence)
    : Except EngineError (Sequence × List StreamResponse) := do
  let sequence ← (sequence.addTokenId output.outputToken output.logprob).mapError .sequenceError
  let generatedText ←
    (engine.tokenizer sequence.sequenceData.getTokenIds).mapError .tokenizerError
  let chunk : StreamResponse := .chunk {
    requestId := metadata.requestId
    created
    finishReason := none
    logprobs := sequence.outputLogprobs
    numPromptTokens := sequence.sequenceData.promptTokenIds.length
    numCompletionTokens := sequence.tokens.length
    outputText := generatedText
  }
  let generatedToken := sequence.generatedToken generatedText
  let met :=
    (stoppingConditions generatedToken output criteria engine.scheduler.schedulerConfig.maxModelLen
      sequence).filter (·.1)
  return (
    {
      sequence with
      outputText := sequence.outputText ++ generatedToken
      stopReason :=
        if generatedToken ∈ criteria.stopSequences then some output.outputToken
        else sequence.stopReason
      sequenceStatus := (met.getLast?.map (·.2)).getD sequence.sequenceStatus
      tokens := sequence.tokens ++ [generatedToken]
    },
    chunk :: met.map fun _ => .finished
  )

/--
The conditions that a sequence meets with its new token.
-/
def metConditions (generatedText : String) (output : SequenceOutput)
    (criteria : StoppingCriteriaParameters) (added : Sequence) : List (Bool × SequenceStatus) :=
  (stoppingConditions (added.generatedToken generatedText) output criteria
    engine.scheduler.schedulerConfig.maxModelLen added).filter (·.1)

/--
A sequence that has just got the token of `output`, with the text and the status that it gets then.
-/
def withText (generatedText : String) (output : SequenceOutput)
    (criteria : StoppingCriteriaParameters) (added : Sequence) : Sequence :=
  let generatedToken := added.generatedToken generatedText
  {
    added with
    outputText := added.outputText ++ generatedToken
    stopReason :=
      if generatedToken ∈ criteria.stopSequences then some output.outputToken else added.stopReason
    sequenceStatus :=
      ((engine.metConditions generatedText output criteria added).getLast?.map (·.2)).getD
        added.sequenceStatus
    tokens := added.tokens ++ [generatedToken]
  }

variable {engine} {requestId : String} {responses : List StreamResponse}

theorem exists_of_sample {created : Nat} {output : SequenceOutput}
    {metadata : SequenceGroupMetadata} {criteria : StoppingCriteriaParameters}
    {sequence sequence' : Sequence}
    (h : engine.sample created output metadata criteria sequence = .ok (sequence', responses))
    : ∃ added generatedText chunk,
        sequence.addTokenId output.outputToken output.logprob = .ok added
          ∧ engine.tokenizer added.sequenceData.getTokenIds = .ok generatedText
          ∧ sequence' = engine.withText generatedText output criteria added
          ∧ chunk.outputText = generatedText
          ∧ responses
              = .chunk chunk
                :: (engine.metConditions generatedText output criteria added).map fun _ => .finished := by
  rcases Except.bind_eq_ok.mp h with ⟨added, hadd, h⟩
  rcases Except.bind_eq_ok.mp h with ⟨generatedText, htext, hpure⟩
  cases hpure
  exact ⟨added, generatedText, _, Except.mapError_eq_ok.mp hadd, Except.mapError_eq_ok.mp htext,
    rfl, rfl, rfl⟩

theorem isFinished_of_mem_stoppingConditions {generatedToken : String} {output : SequenceOutput}
    {criteria : StoppingCriteriaParameters} {maxModelLen : Nat} {sequence : Sequence}
    {condition : Bool × SequenceStatus}
    (h : condition ∈ stoppingConditions generatedToken output criteria maxModelLen sequence)
    : condition.2.isFinished = true := by
  simp only [stoppingConditions, List.mem_cons, List.not_mem_nil, or_false] at h
  rcases h with rfl | rfl | rfl | rfl <;> rfl

section WithText

variable {generatedText : String} {output : SequenceOutput} {added : Sequence}
variable {criteria : StoppingCriteriaParameters}

theorem sequenceStatus_withText (h : engine.metConditions generatedText output criteria added = [])
    : (engine.withText generatedText output criteria added).sequenceStatus
        = added.sequenceStatus := by
  unfold withText
  rw [h]
  rfl

theorem isFinished_withText (h : engine.metConditions generatedText output criteria added ≠ [])
    : (engine.withText generatedText output criteria added).isFinished = true := by
  unfold withText Sequence.isFinished
  cases hlast : (engine.metConditions generatedText output criteria added).getLast? with
  | none => exact absurd (List.getLast?_eq_none_iff.mp hlast) h
  | some last =>
    exact isFinished_of_mem_stoppingConditions
      (List.mem_filter.mp (List.mem_of_getLast? hlast)).1

theorem isFinished_withText_of_mem (status : SequenceStatus)
    (h : (true, status) ∈ stoppingConditions (added.generatedToken generatedText) output criteria
      engine.scheduler.schedulerConfig.maxModelLen added)
    : (engine.withText generatedText output criteria added).isFinished = true :=
  isFinished_withText (List.ne_nil_of_mem (List.mem_filter.mpr ⟨h, rfl⟩))

end WithText

theorem sendStreaming_of_canStream (h : engine.CanStream requestId) (response : StreamResponse)
    : engine.sendStreaming requestId response = .ok (engine.stream requestId [response]) := by
  unfold sendStreaming stream messages
  cases hlookup : engine.responseStreamingSenders.lookup requestId with
  | none => simp
  | some channel => simp [h channel hlookup]

theorem sendStreaming_of_not_canStream (h : ¬ engine.CanStream requestId)
    (response : StreamResponse)
    : engine.sendStreaming requestId response
        = .error (.flumeSendError "sending on a closed channel") := by
  unfold CanStream at h
  push Not at h
  rcases h with ⟨channel, hlookup, hdisconnected⟩
  simp only [sendStreaming, hlookup, hdisconnected, if_true]

theorem stream_nil : engine.stream requestId [] = engine := by
  unfold stream messages
  split <;> simp

theorem stream_stream (responses' : List StreamResponse)
    : (engine.stream requestId responses).stream requestId responses'
        = engine.stream requestId (responses ++ responses') := by
  unfold stream messages
  dsimp only
  split <;> simp

theorem CanStream.stream (h : engine.CanStream requestId) (responses : List StreamResponse)
    : (engine.stream requestId responses).CanStream requestId :=
  h

theorem finishIf_of_canStream (h : engine.CanStream requestId) (condition : Bool)
    (status : SequenceStatus) (sequence : Sequence)
    : engine.finishIf condition requestId status sequence
        = .ok (
            if condition then sequence.setSequenceStatus status else sequence,
            engine.stream requestId (if condition then [.finished] else [])) := by
  unfold finishIf
  cases condition with
  | true =>
    rw [if_pos rfl, sendStreaming_of_canStream h]
    rfl
  | false => simp [stream_nil]; rfl

theorem updateSequence_of_doSample {created : Nat} {seq : SequenceRef} {output : SequenceOutput}
    {metadata : SequenceGroupMetadata} {criteria : StoppingCriteriaParameters}
    (hsample : metadata.doSample = true) (h : engine.CanStream metadata.requestId)
    : engine.updateSequence created seq output metadata criteria
        = (engine.sample created output metadata criteria (engine.scheduler.memory.sequences seq)).map
            fun result => (engine.stream metadata.requestId result.2).writeSequence seq result.1 := by
  unfold updateSequence sample
  rw [if_pos hsample]
  cases hadd : (engine.scheduler.memory.sequences seq).addTokenId output.outputToken output.logprob
    with
  | error e => rfl
  | ok sequence =>
    cases htext : engine.tokenizer sequence.sequenceData.getTokenIds with
    | error message =>
      simp only [Except.mapError, bind, Except.bind, htext]
      rfl
    | ok generatedText =>
      simp only [Except.mapError, bind, Except.bind, htext, sendStreaming_of_canStream h,
        finishIf_of_canStream (h.stream _), stream_stream]
      -- the conditions do not depend on what the earlier ones have written
      by_cases hstop : sequence.generatedToken generatedText ∈ criteria.stopSequences
        <;> by_cases heos : (output.isStopToken && !criteria.ignoreEosToken) = true
        <;> by_cases hlength : engine.scheduler.schedulerConfig.maxModelLen
              < sequence.sequenceData.length
        <;> by_cases houtput : criteria.maxNewTokens ≤ sequence.sequenceData.getOutputLen
        <;> simp [stoppingConditions, stream, Sequence.setSequenceStatus, Sequence.length,
              Sequence.getOutputLen, hstop, heos, hlength, houtput, Except.map, pure, Except.pure]

theorem updateSequence_of_not_canStream {metadata : SequenceGroupMetadata}
    (hsample : metadata.doSample = true) (h : ¬ engine.CanStream metadata.requestId) (created : Nat)
    (seq : SequenceRef) (output : SequenceOutput) (criteria : StoppingCriteriaParameters)
    : ∃ e, engine.updateSequence created seq output metadata criteria = .error e := by
  unfold updateSequence
  rw [if_pos hsample]
  cases hadd : (engine.scheduler.memory.sequences seq).addTokenId output.outputToken output.logprob
    with
  | error e => exact ⟨_, rfl⟩
  | ok sequence =>
    cases htext : engine.tokenizer sequence.sequenceData.getTokenIds with
    | error message =>
      simp only [Except.mapError, bind, Except.bind, htext]
      exact ⟨_, rfl⟩
    | ok generatedText =>
      simp only [Except.mapError, bind, Except.bind, htext, sendStreaming_of_not_canStream h]
      exact ⟨_, rfl⟩

/--
An update that samples a token and succeeds.
-/
theorem updateSequence_eq_ok {engine' : LlmEngine} {created : Nat} {seq : SequenceRef}
    {output : SequenceOutput} {metadata : SequenceGroupMetadata}
    {criteria : StoppingCriteriaParameters} (hsample : metadata.doSample = true)
    (h : engine.updateSequence created seq output metadata criteria = .ok engine')
    : engine.CanStream metadata.requestId
        ∧ ∃ sequence responses,
            engine.sample created output metadata criteria (engine.scheduler.memory.sequences seq)
                = .ok (sequence, responses)
              ∧ engine' = (engine.stream metadata.requestId responses).writeSequence seq sequence := by
  by_cases hcan : engine.CanStream metadata.requestId
  . rw [updateSequence_of_doSample hsample hcan] at h
    cases hresult : engine.sample created output metadata criteria
        (engine.scheduler.memory.sequences seq) with
    | error e =>
      rw [hresult] at h
      cases h
    | ok result =>
      rw [hresult] at h
      cases h
      exact ⟨hcan, result.1, result.2, rfl, rfl⟩
  . rcases updateSequence_of_not_canStream hsample hcan created seq output criteria with ⟨e, he⟩
    rw [he] at h
    cases h

theorem updateSequence_of_not_doSample {created : Nat} {seq : SequenceRef}
    {output : SequenceOutput} {metadata : SequenceGroupMetadata}
    {criteria : StoppingCriteriaParameters} (hsample : metadata.doSample = false)
    : engine.updateSequence created seq output metadata criteria
        = .ok (engine.writeSequence seq {
            engine.scheduler.memory.sequences seq with
            outputLogprobs := (engine.scheduler.memory.sequences seq).outputLogprobs
              ++ [output.logprob] }) := by
  unfold updateSequence
  rw [if_neg (by simp [hsample])]
  rfl

section Writes

variable {engine' engine'' : LlmEngine}

/--
Only the sequences and the messages that were sent differ.
-/
def Writes (engine engine' : LlmEngine) : Prop :=
  ∃ sequences sent, engine' = { engine with scheduler.memory.sequences := sequences, sent }

theorem Writes.refl (engine : LlmEngine) : engine.Writes engine :=
  ⟨engine.scheduler.memory.sequences, engine.sent, rfl⟩

theorem Writes.trans (h : engine.Writes engine') (h' : engine'.Writes engine'')
    : engine.Writes engine'' := by
  rcases h with ⟨sequences, sent, rfl⟩
  rcases h' with ⟨sequences', sent', rfl⟩
  exact ⟨sequences', sent', rfl⟩

theorem writes_of_updateSequence {created : Nat} {seq : SequenceRef} {output : SequenceOutput}
    {metadata : SequenceGroupMetadata} {criteria : StoppingCriteriaParameters}
    (h : engine.updateSequence created seq output metadata criteria = .ok engine')
    : engine.Writes engine' := by
  cases hsample : metadata.doSample with
  | true =>
    by_cases hcan : engine.CanStream metadata.requestId
    . rw [updateSequence_of_doSample hsample hcan] at h
      cases hresult : engine.sample created output metadata criteria
          (engine.scheduler.memory.sequences seq) with
      | error e =>
        rw [hresult] at h
        cases h
      | ok result =>
        rw [hresult] at h
        cases h
        exact ⟨_, _, rfl⟩
    . rcases updateSequence_of_not_canStream hsample hcan created seq output criteria with ⟨e, he⟩
      rw [he] at h
      cases h
  | false =>
    rw [updateSequence_of_not_doSample hsample] at h
    cases h
    exact ⟨_, _, rfl⟩

theorem writes_of_updateNumComputedTokens {group : SequenceGroup} {numNewComputedTokens : Nat}
    (h : engine.updateNumComputedTokens group numNewComputedTokens = .ok engine')
    : engine.Writes engine' := by
  unfold updateNumComputedTokens at h
  split at h
  . cases h
    exact ⟨_, _, rfl⟩
  . cases h

theorem writes_of_processOutput {created : SequenceRef → Nat} {output : SequenceGroupOutput}
    {metadata : SequenceGroupMetadata} {scheduled : ScheduledSequenceGroup}
    (h : engine.processOutput created output metadata scheduled = .ok engine')
    : engine.Writes engine' := by
  rcases Except.bind_eq_ok.mp h with ⟨between, hupdate, h⟩
  refine (writes_of_updateNumComputedTokens hupdate).trans ?_
  refine Except.foldlM_invariant (I := between.Writes) ?_ h (.refl between)
  intro current next seq hseq hwrites hnext
  split at hnext
  . cases hnext
  . exact hwrites.trans (writes_of_updateSequence hnext)

theorem processGeneratedOutputs_eq_ok {created : SequenceRef → Nat}
    {outputs : List SequenceGroupOutput} {requestOutputs : List GenerateRequestOutput}
    (h : engine.processGeneratedOutputs created outputs = .ok (requestOutputs, engine'))
    : ∃ updated,
        (outputs.zip
            (engine.sequenceGroupsMetadata.zip engine.schedulerOutputs.scheduledSequenceGroups)).foldlM
          (fun engine (output, metadata, scheduled) =>
            processOutput engine created output metadata scheduled) engine = .ok updated
          ∧ engine.Writes updated
          ∧ engine' = { updated with scheduler := updated.scheduler.removeFinishedSequences }
          ∧ engine'.requestOutputs = .ok requestOutputs := by
  rcases Except.bind_eq_ok.mp h with ⟨updated, hfold, h⟩
  rcases Except.bind_eq_ok.mp h with ⟨requestOutputs', houtputs, hpure⟩
  cases hpure
  refine ⟨updated, hfold, ?_, rfl, houtputs⟩
  refine Except.foldlM_invariant (I := engine.Writes) ?_ hfold (.refl engine)
  rintro current next ⟨output, metadata, scheduled⟩ - hwrites hnext
  exact hwrites.trans (writes_of_processOutput hnext)

end Writes

end LlmEngine

end AtomaInfer
