import AtomaInfer.Engine.Generation

/-!
How the generation of a sequence ends: at which token, with which text and with which message to its
client.
-/

namespace AtomaInfer

namespace Sequence

variable {returnFullText : Bool} {numTokens : Nat} {tokenizer : List Nat → Except String String}
variable {sequence added : Sequence} {text : String}

/--
What the next token adds when the text before it is `text` and after it is `text'`, as
`update_sequence` computes it.
-/
def nextPiece (returnFullText : Bool) (numTokens : Nat) (prompt text text' : String) : String :=
  let start :=
    if numTokens = 0 then
      prompt.length
    else if numTokens = 1 ∧ returnFullText = false then
      text.length - prompt.length
    else
      text.length
  String.ofList (text'.toList.drop start)

theorem HasText.generatedToken_eq
    (h : sequence.HasText returnFullText numTokens tokenizer text)
    {tokenId : Nat} {logprobs : LogProbs}
    (hadd : sequence.addTokenId tokenId logprobs = .ok added) (text' : String)
    : added.generatedToken text'
        = nextPiece returnFullText numTokens sequence.prompt text text' := by
  rw [← String.toList_inj, h.toList_generatedToken hadd]
  unfold nextPiece
  rw [String.toList_ofList]
  split
  . rfl
  . next hzero =>
    have hlength : sequence.outputText.length
        = if numTokens = 1 ∧ returnFullText = false then text.length - sequence.prompt.length
          else text.length := by
      split
      . next hone =>
        have hfirst := congrArg List.length (h.first hone.1)
        rw [h.joined, hone.2]
        simpa only [Bool.false_eq_true, if_false, String.empty_append, String.length_toList,
          List.length_drop] using hfirst
      . next hother =>
        by_cases hone : numTokens = 1
        . have hfull : returnFullText = true := by
            by_contra hnot
            exact hother ⟨hone, by simpa using hnot⟩
          rw [h.full (.inl hfull)]
        . exact h.later (by omega)
    rw [hlength]

end Sequence

namespace LlmEngine

/--
The conditions other than a stop string that finish a sequence with its next token. A token without
a log-probability is not counted.
-/
def otherConditions (output : SequenceOutput) (criteria : StoppingCriteriaParameters)
    (maxModelLen : Nat) (sequence : Sequence) : List Bool :=
  let numNewTokens := if (output.logprob.lookup output.outputToken).isSome then 1 else 0
  [
    output.isStopToken && !criteria.ignoreEosToken,
    decide (maxModelLen < sequence.length + numNewTokens),
    decide (criteria.maxNewTokens ≤ sequence.getOutputLen + numNewTokens)
  ]

variable {engine between start : LlmEngine} {seq : SequenceRef} {requestId : String}
variable {returnFullText : Bool} {numTokens : Nat} {created : Nat} {output : SequenceOutput}
variable {metadata : SequenceGroupMetadata} {criteria : StoppingCriteriaParameters}
variable {added : Sequence} {text : String} {channel : Channel}

theorem map_fst_stoppingConditions {sequence : Sequence} {maxModelLen : Nat} {generatedToken : String}
    (hadd : sequence.addTokenId output.outputToken output.logprob = .ok added)
    : (stoppingConditions generatedToken output criteria maxModelLen added).map (·.1)
        = decide (generatedToken ∈ criteria.stopSequences)
          :: otherConditions output criteria maxModelLen sequence := by
  have hdata := (Sequence.addTokenId_eq_ok hadd).2
  unfold stoppingConditions otherConditions Sequence.length Sequence.getOutputLen
  split at hdata
  . next hnone => simp [hnone, hdata]
  . next logprob hsome =>
    simp [hsome, hdata, SequenceData.addTokenId, SequenceData.length, SequenceData.getOutputLen,
      Nat.add_assoc]

theorem generatedToken_of_addTokenId {sequence : Sequence} {tokenId : Nat} {logprobs : LogProbs}
    (hadd : sequence.addTokenId tokenId logprobs = .ok added) (text : String)
    : added.generatedToken text = sequence.generatedToken text := by
  unfold Sequence.generatedToken
  rw [(Sequence.addTokenId_eq_ok hadd).1]

theorem length_metConditions
    (h : Sampled seq requestId output criteria between engine added text)
    : (between.metConditions text output criteria added).length
        = (decide ((between.scheduler.memory.sequences seq).generatedToken text
                ∈ criteria.stopSequences)
            :: otherConditions output criteria between.scheduler.schedulerConfig.maxModelLen
              (between.scheduler.memory.sequences seq)).count true := by
  rw [← generatedToken_of_addTokenId h.added_eq, ← map_fst_stoppingConditions h.added_eq, List.count,
    List.countP_map, List.countP_eq_length_filter, metConditions]
  simp [Function.comp_def]

theorem Sampled.isFinished_iff
    (h : Sampled seq requestId output criteria between engine added text)
    (hunfinished : (between.scheduler.memory.sequences seq).isFinished = false)
    : (engine.scheduler.memory.sequences seq).isFinished = true
        ↔ between.metConditions text output criteria added ≠ [] := by
  constructor
  . intro hfinished hmet
    rw [h.sequence_eq] at hfinished
    unfold Sequence.isFinished at hfinished hunfinished
    rw [sequenceStatus_withText hmet, (Sequence.addTokenId_eq_ok h.added_eq).1, hunfinished]
      at hfinished
    cases hfinished
  . intro hmet
    rw [h.sequence_eq]
    exact isFinished_withText hmet

/--
The client has received a chunk for each token, and then, once the sequence is finished, a single
message that ends the stream.
-/
def EndsOnce (seq : SequenceRef) (channel : Channel) (numTokens : Nat) (engine : LlmEngine) : Prop :=
  ∃ outputs : List GenerateStreamingOutput,
    outputs.length = numTokens
      ∧ engine.received channel
          = outputs.map (fun output => .streaming (.chunk output))
            ++ if (engine.scheduler.memory.sequences seq).isFinished = true then
                [.streaming .finished]
              else
                []

/--
Until it is finished, the stream of a sequence ends once exactly when at most one of the four
conditions holds of the last token.
-/
theorem endsOnce_iff (hbegins : start.Begins seq requestId returnFullText)
    (hgenerates : start.Generates seq requestId numTokens between)
    (hunfinished : (between.scheduler.memory.sequences seq).isFinished = false)
    (hrequestId : metadata.requestId = requestId) (hsample : metadata.doSample = true)
    (hchannel : between.responseStreamingSenders.lookup requestId = some channel)
    (hupdate : between.updateSequence created seq output metadata criteria = .ok engine)
    : EndsOnce seq channel (numTokens + 1) engine
        ↔ (decide ((between.scheduler.memory.sequences seq).generatedToken (engine.decodedText seq)
              ∈ criteria.stopSequences)
            :: otherConditions output criteria between.scheduler.schedulerConfig.maxModelLen
              (between.scheduler.memory.sequences seq)).count true ≤ 1 := by
  have hongoing := ongoing_of_generates hbegins hgenerates hunfinished
  subst hrequestId
  rcases exists_sampled hsample hupdate with ⟨added, text, hsampled⟩
  rw [hsampled.decodedText_eq, ← length_metConditions hsampled]
  have hfinished := hsampled.isFinished_iff hunfinished
  rcases hongoing.received channel hchannel with ⟨outputs, hlength, hreceived⟩
  rcases hsampled.received_eq channel hchannel with ⟨chunk, -, hreceived'⟩
  rw [hreceived] at hreceived'
  unfold EndsOnce
  constructor
  . rintro ⟨outputs', -, heq⟩
    -- the messages that end the stream are counted on both sides
    have hcount := congrArg (List.countP fun message => decide (message = .streaming .finished))
      (hreceived'.symm.trans heq)
    have hle : ((if (engine.scheduler.memory.sequences seq).isFinished = true then
        [.streaming .finished] else []) : List Message).countP
          (fun message => decide (message = .streaming .finished)) ≤ 1 := by
      split <;> simp
    simp only [List.countP_append, List.countP_cons, List.countP_map, Function.comp_def,
      reduceCtorEq, Message.streaming.injEq, decide_false, decide_true, List.countP_false,
      List.countP_true, Function.const_apply, Bool.false_eq_true, if_false] at hcount
    omega
  . intro hle
    refine ⟨outputs ++ [chunk], by simp [hlength], ?_⟩
    rw [hreceived']
    cases hmet : between.metConditions text output criteria added with
    | nil =>
      rw [if_neg fun h => hfinished.mp h hmet]
      simp
    | cons condition met =>
      rw [hmet, List.length_cons] at hle
      have hnil : met = [] := List.length_eq_zero_iff.mp (by omega)
      rw [if_pos (hfinished.mpr (by rw [hmet]; exact List.cons_ne_nil _ _)), hnil]
      simp

/--
The only token is the last, as `max_new_tokens` is one.
-/
theorem endsOnce_iff_max_new_tokens
    : ∃ engine,
        (spelling true (AList.insert "request" 0 ∅)).sampleTokens ⟨1, [], false⟩ [98] = .ok engine
          ∧ EndsOnce ⟨0, 0⟩ 0 1 engine := by
  have hrun : ((spelling true (AList.insert "request" 0 ∅)).sampleTokens ⟨1, [], false⟩
      [98]).toOption.any (fun engine => engine.decodedText ⟨0, 0⟩ = "ab") = true := by
    decide +kernel
  rcases Except.exists_eq_ok_of_any hrun with ⟨engine, hengine, hdecoded⟩
  refine ⟨engine, hengine, ?_⟩
  rcases Except.bind_eq_ok.mp hengine with ⟨updated, hupdate, hpure⟩
  cases hpure
  refine (endsOnce_iff (begins_spelling true (AList.insert "request" 0 ∅)) .begin rfl rfl rfl rfl
    hupdate).mpr ?_
  rw [of_decide_eq_true hdecoded]
  decide +kernel

/--
The last token is a stop string as well.
-/
theorem not_endsOnce_stop_string
    : ∃ engine,
        (spelling true (AList.insert "request" 0 ∅)).sampleTokens ⟨1, ["b"], false⟩ [98]
            = .ok engine
          ∧ ¬ EndsOnce ⟨0, 0⟩ 0 1 engine := by
  have hrun : ((spelling true (AList.insert "request" 0 ∅)).sampleTokens ⟨1, ["b"], false⟩
      [98]).toOption.any (fun engine => (engine.received 0).length = 3) = true := by
    decide +kernel
  rcases Except.exists_eq_ok_of_any hrun with ⟨engine, hengine, hlength⟩
  refine ⟨engine, hengine, ?_⟩
  rintro ⟨outputs, hone, hreceived⟩
  have hlength' := of_decide_eq_true hlength
  rw [hreceived, List.length_append, List.length_map, hone] at hlength'
  split at hlength' <;> simp at hlength'

/--
A sequence with a stop string in its text is finished, and the text that is returned for a sequence
that a stop string has finished contains none.
-/
structure StopsAt (seq : SequenceRef) (stopSequences : List String) (engine : LlmEngine) : Prop where
  isFinished : (∃ stop ∈ stopSequences, stop.toList <:+: (engine.generatedText seq).toList) →
    (engine.scheduler.memory.sequences seq).isFinished = true
  outputText : (engine.scheduler.memory.sequences seq).stopReason.isSome = true →
    ∀ stop ∈ stopSequences,
      ¬ stop.toList <:+: (engine.scheduler.memory.sequences seq).outputText.toList

/--
Only a piece that is itself a stop string is found, and it stays in the text. So what is asked of
stop strings is met as long as no piece is one, and another condition finishes the sequence where
its text contains one.
-/
theorem stopsAt_iff (hbegins : start.Begins seq requestId returnFullText)
    (hprompt : start.DecodesPrompt seq) (hextends : ExtendsText start.tokenizer)
    (hgenerates : start.Generates seq requestId numTokens between)
    (hunfinished : (between.scheduler.memory.sequences seq).isFinished = false)
    (hrequestId : metadata.requestId = requestId) (hsample : metadata.doSample = true)
    (hupdate : between.updateSequence created seq output metadata criteria = .ok engine)
    : StopsAt seq criteria.stopSequences engine
        ↔ Sequence.nextPiece returnFullText numTokens
              (between.scheduler.memory.sequences seq).prompt (between.decodedText seq)
              (engine.decodedText seq) ∉ criteria.stopSequences
          ∧ ((∃ stop ∈ criteria.stopSequences,
                stop.toList <:+: (engine.generatedText seq).toList) →
              true ∈ otherConditions output criteria
                between.scheduler.schedulerConfig.maxModelLen
                (between.scheduler.memory.sequences seq)) := by
  have hongoing := ongoing_of_generates hbegins hgenerates hunfinished
  have hgenerated := (generated_of_generates hbegins hprompt hextends hgenerates).2
  subst hrequestId
  rcases exists_sampled hsample hupdate with ⟨added, text, hsampled⟩
  have hpiece := hgenerated.hasText.generatedToken_eq hsampled.added_eq text
  rw [hsampled.decodedText_eq, ← hpiece]
  have hfinished : (engine.scheduler.memory.sequences seq).isFinished = true
      ↔ added.generatedToken text ∈ criteria.stopSequences
        ∨ true ∈ otherConditions output criteria between.scheduler.schedulerConfig.maxModelLen
          (between.scheduler.memory.sequences seq) := by
    rw [hsampled.isFinished_iff hunfinished, ← List.length_pos_iff, length_metConditions hsampled,
      List.count_pos_iff, List.mem_cons, generatedToken_of_addTokenId hsampled.added_eq]
    simp
  have hkeeps := (Sequence.addTokenId_eq_ok hsampled.added_eq).1
  constructor
  . intro hstops
    have hnot : added.generatedToken text ∉ criteria.stopSequences := by
      intro hmem
      have hoccurs := hstops.outputText
      rw [hsampled.sequence_eq] at hoccurs
      unfold withText at hoccurs
      dsimp only at hoccurs
      rw [if_pos hmem] at hoccurs
      refine hoccurs rfl _ hmem ?_
      rw [String.toList_append]
      exact (List.suffix_append _ _).isInfix
    exact ⟨hnot, fun hoccurs => (hfinished.mp (hstops.isFinished hoccurs)).resolve_left hnot⟩
  . rintro ⟨hnot, hother⟩
    refine ⟨fun hoccurs => hfinished.mpr (.inr (hother hoccurs)), ?_⟩
    intro hreason
    rw [hsampled.sequence_eq] at hreason
    unfold withText at hreason
    dsimp only at hreason
    rw [if_neg hnot, hkeeps] at hreason
    dsimp only at hreason
    rw [hongoing.stopReason_eq] at hreason
    cases hreason

/--
The two tokens "b" and "c" make up the stop string, and `max_new_tokens` finishes the sequence there.
-/
theorem stopsAt_iff_max_new_tokens
    : ∃ engine,
        (spelling true ∅).sampleTokens ⟨2, ["bc"], false⟩ [98, 99] = .ok engine
          ∧ engine.generatedText ⟨0, 0⟩ = "bc"
          ∧ StopsAt ⟨0, 0⟩ ["bc"] engine := by
  have hfirst : ((spelling true ∅).sampleTokens ⟨2, ["bc"], false⟩ [98]).toOption.any
      (fun between => (between.scheduler.memory.sequences ⟨0, 0⟩).isFinished = false
        ∧ between.decodedText ⟨0, 0⟩ = "ab"
        ∧ (between.scheduler.memory.sequences ⟨0, 0⟩).prompt = "a"
        ∧ true ∈ otherConditions ⟨0, 99, AList.insert 99 ⟨0, none, none⟩ ∅, false⟩
            ⟨2, ["bc"], false⟩ between.scheduler.schedulerConfig.maxModelLen
            (between.scheduler.memory.sequences ⟨0, 0⟩)) = true := by
    decide +kernel
  have hrun : ((spelling true ∅).sampleTokens ⟨2, ["bc"], false⟩ [98, 99]).toOption.any
      (fun engine => engine.decodedText ⟨0, 0⟩ = "abc" ∧ engine.generatedText ⟨0, 0⟩ = "bc")
        = true := by
    decide +kernel
  rcases Except.exists_eq_ok_of_any hrun with ⟨engine, hengine, hresult⟩
  rcases of_decide_eq_true hresult with ⟨hdecoded, hgenerated⟩
  refine ⟨engine, hengine, hgenerated, ?_⟩
  rcases Except.bind_eq_ok.mp hengine with ⟨between, hbetween, hrest⟩
  rcases Except.bind_eq_ok.mp hrest with ⟨updated, hupdate, hpure⟩
  cases hpure
  rw [show (spelling true ∅).sampleTokens ⟨2, ["bc"], false⟩ [98] = .ok between from
    Except.bind_eq_ok.mpr ⟨between, hbetween, rfl⟩] at hfirst
  rcases of_decide_eq_true hfirst with ⟨hunfinished, hbefore, hprompt, hother⟩
  refine (stopsAt_iff (begins_spelling true ∅) (decodesPrompt_spelling true ∅) extendsText_spell
    (.update .begin rfl rfl hbetween) hunfinished rfl rfl hupdate).mpr ⟨?_, fun _ => hother⟩
  rw [hdecoded, hbefore, hprompt]
  decide +kernel

/--
The two tokens "b" and "c" make up the stop string, which the sequence goes on after.
-/
theorem not_stopsAt_two_tokens
    : ∃ engine,
        (spelling true ∅).sampleTokens ⟨5, ["bc"], false⟩ [98, 99] = .ok engine
          ∧ ¬ StopsAt ⟨0, 0⟩ ["bc"] engine := by
  have hrun : ((spelling true ∅).sampleTokens ⟨5, ["bc"], false⟩ [98, 99]).toOption.any
      (fun engine => (engine.scheduler.memory.sequences ⟨0, 0⟩).isFinished = false
        ∧ engine.generatedText ⟨0, 0⟩ = "bc") = true := by
    decide +kernel
  rcases Except.exists_eq_ok_of_any hrun with ⟨engine, hengine, hresult⟩
  refine ⟨engine, hengine, ?_⟩
  intro hstops
  have hfinished := hstops.isFinished ⟨"bc", List.mem_singleton_self _, by
    rw [(of_decide_eq_true hresult).2]⟩
  rw [(of_decide_eq_true hresult).1] at hfinished
  cases hfinished

end LlmEngine

end AtomaInfer
