import AtomaInfer.Engine.Update
import AtomaInfer.Scheduler.Run
import AtomaInfer.Sequence.Counters
import AtomaInfer.Worker.Impl

/-!
What the engine does to the sequences of a batch, for groups with one sequence.
-/

namespace AtomaInfer

namespace LlmEngine

/--
A sequence of the batch before and after its output is processed.
-/
structure Advances (maxModelLen : Nat) (criteria : StoppingCriteriaParameters) (tokenChunkSize : Nat)
    (doSample : Bool) (output : SequenceOutput) (sequence sequence' : Sequence) : Prop extends
    sequence.Advances tokenChunkSize doSample maxModelLen sequence' where
  token : doSample = true →
    sequence'.sequenceData.outputTokenIds
      = sequence.sequenceData.outputTokenIds ++ [output.outputToken]
  limited : doSample = true → criteria.maxNewTokens ≤ sequence'.getOutputLen →
    sequence'.isFinished = true

variable {engine engine' : LlmEngine} {created : Nat} {seq : SequenceRef} {output : SequenceOutput}
variable {metadata : SequenceGroupMetadata} {criteria : StoppingCriteriaParameters}
variable {sequence sequence' counted : Sequence}

/--
What sampling does to a sequence: it gets the token, and it finishes when one of the conditions is
met.
-/
theorem sample_eq_ok {responses : List StreamResponse}
    (h : engine.sample created output metadata criteria sequence = .ok (sequence', responses))
    (hlogprob : (output.logprob.lookup output.outputToken).isSome = true)
    : ∃ logprob blocks,
        sequence.appendTokensToBlocks [output.outputToken]
            = .ok { sequence with logicalTokenBlocks := blocks }
          ∧ sequence'.blockSize = sequence.blockSize
          ∧ sequence'.logicalTokenBlocks = blocks
          ∧ sequence'.sequenceData = sequence.sequenceData.addTokenId output.outputToken logprob
          ∧ (sequence'.sequenceStatus = sequence.sequenceStatus ∨ sequence'.isFinished = true)
          ∧ (engine.scheduler.schedulerConfig.maxModelLen < sequence'.length →
              sequence'.isFinished = true)
          ∧ (criteria.maxNewTokens ≤ sequence'.getOutputLen → sequence'.isFinished = true) := by
  rcases exists_of_sample h with ⟨added, generatedText, -, hadd, -, rfl, -, -⟩
  rcases Option.isSome_iff_exists.mp hlogprob with ⟨logprob, hsome⟩
  simp only [Sequence.addTokenId, hsome] at hadd
  split at hadd
  . cases hadd
  . next appended happend =>
    cases hadd
    have hkeeps := Sequence.appendTokensToBlocks_eq_ok happend
    refine ⟨logprob.logprob, appended.logicalTokenBlocks, ?_, ?_, rfl, ?_, ?_, ?_, ?_⟩
    . rw [← hkeeps]
      exact happend
    . dsimp only [withText]
      rw [hkeeps]
    . dsimp only [withText]
      rw [hkeeps]
    . by_cases hmet : engine.metConditions generatedText output criteria {
          appended with
          sequenceData := appended.sequenceData.addTokenId output.outputToken logprob.logprob
          outputLogprobs := appended.outputLogprobs ++ [output.logprob] } = []
      . left
        rw [sequenceStatus_withText hmet, hkeeps]
      . exact .inr (isFinished_withText hmet)
    . intro hlength
      apply isFinished_withText_of_mem .finishedLengthCapped
      simp only [stoppingConditions, List.mem_cons, Prod.mk.injEq]
      exact .inr (.inr (.inl ⟨(decide_eq_true hlength).symm, trivial⟩))
    . intro hoverrun
      apply isFinished_withText_of_mem .finishedLengthCapped
      simp only [stoppingConditions, List.mem_cons, Prod.mk.injEq]
      exact .inr (.inr (.inr (.inl ⟨(decide_eq_true hoverrun).symm, trivial⟩)))

/--
The counters of a sequence advance before it is sampled.
-/
theorem advances_of_updateSequence {tokenChunkSize : Nat} {data : SequenceData}
    (hcount : (SequenceData.updateNumComputedTokens tokenChunkSize).run sequence.sequenceData
      = .ok () data)
    (hcounted : engine.scheduler.memory.sequences seq = { sequence with sequenceData := data })
    (h : engine.updateSequence created seq output metadata criteria = .ok engine')
    (hlogprob : (output.logprob.lookup output.outputToken).isSome = true)
    : ∃ sequence',
        engine'.scheduler.memory.sequences
            = Function.update engine.scheduler.memory.sequences seq sequence'
          ∧ Advances engine.scheduler.schedulerConfig.maxModelLen criteria tokenChunkSize
              metadata.doSample output sequence sequence' := by
  rcases SequenceData.updateNumComputedTokens_eq_ok hcount with ⟨-, rfl⟩
  cases hsample : metadata.doSample with
  | true =>
    rcases updateSequence_eq_ok hsample h with ⟨-, sequence', responses, hresult, rfl⟩
    rcases sample_eq_ok hresult hlogprob
      with ⟨logprob, blocks, happend, hsize, hblocks, hdata, hstatus, hcapped, hlimited⟩
    rw [hcounted] at happend hsize hdata hstatus
    refine ⟨sequence', rfl, ⟨hsize, ?_, ?_, ?_, ?_, fun h => (nomatch h), hstatus,
      fun _ => hcapped⟩, fun _ => ?_, fun _ => hlimited⟩
    . rw [hdata]
      rfl
    . rw [hdata]
      rfl
    . rw [hdata]
      rfl
    . intro _
      refine ⟨output.outputToken, by rw [hdata]; rfl, ?_⟩
      rw [hblocks]
      exact Sequence.appendTokensToBlocks_sequenceData happend
    . rw [hdata]
      rfl
  | false =>
    rw [updateSequence_of_not_doSample hsample] at h
    cases h
    rw [hcounted]
    refine ⟨_, rfl, ⟨rfl, rfl, rfl, rfl, fun h => (nomatch h), fun _ => ⟨rfl, rfl⟩, .inl rfl,
      fun h => (nomatch h)⟩, fun h => (nomatch h), fun h => (nomatch h)⟩

section Batch

/--
An output of the model executor, with the metadata and the group that it is for.
-/
abbrev Entry := SequenceGroupOutput × SequenceGroupMetadata × ScheduledSequenceGroup

/--
The logprobs of an output have one for its token.
-/
def HasLogprob (output : SequenceGroupOutput) (seq : SequenceRef) : Prop :=
  ∀ sequenceOutput, output.outputs.lookup seq.sequenceId = some sequenceOutput →
    (sequenceOutput.logprob.lookup sequenceOutput.outputToken).isSome = true

/--
The sequence of an entry advances with its output.
-/
def EntryAdvances (maxModelLen : Nat) (heap heap' : SequenceHeap) (entry : Entry)
    (seq : SequenceRef) : Prop :=
  ∃ sequenceOutput,
    entry.1.outputs.lookup seq.sequenceId = some sequenceOutput
      ∧ Advances maxModelLen entry.2.2.scheduledGroup.stoppingCriteria entry.2.2.tokenChunkSize
          entry.2.1.doSample sequenceOutput (heap seq) (heap' seq)

theorem processOutput_eq_ok {created : SequenceRef → Nat} {entry : Entry}
    (h : engine.processOutput created entry.1 entry.2.1 entry.2.2 = .ok engine')
    (hgroup : entry.2.2.scheduledGroup.sequences = [seq])
    (hunfinished : (engine.scheduler.memory.sequences seq).isFinished = false)
    (hlogprob : HasLogprob entry.1 seq)
    : EntryAdvances engine.scheduler.schedulerConfig.maxModelLen engine.scheduler.memory.sequences
          engine'.scheduler.memory.sequences entry seq
        ∧ ∀ other, other ≠ seq →
            engine'.scheduler.memory.sequences other = engine.scheduler.memory.sequences other := by
  rcases Except.bind_eq_ok.mp h with ⟨counted, hcount, h⟩
  rw [hgroup, List.foldlM_cons] at h
  rcases Except.bind_eq_ok.mp h with ⟨updated, hupdate, hpure⟩
  cases hpure
  split at hupdate
  . cases hupdate
  . next sequenceOutput hlookup =>
    simp only [updateNumComputedTokens, SequenceGroup.updateNumComputedTokens, hgroup] at hcount
    split at hcount
    . next sequences hrun =>
      cases hcount
      simp only [List.forM_eq_forM, List.forM_cons, List.forM_nil, EStateM.bind_run_eq_ok] at hrun
      rcases hrun with ⟨_, _, ⟨_, _, hget, hrun⟩, hpure⟩
      cases hget
      cases hpure
      simp only [hunfinished, Bool.not_false, if_true] at hrun
      split at hrun
      . next data hdata =>
        cases hrun
        rcases advances_of_updateSequence hdata (by simp) hupdate (hlogprob _ hlookup)
          with ⟨sequence', hsequences, hadvances⟩
        dsimp only at hsequences hadvances
        rw [Function.update_idem] at hsequences
        rw [hsequences]
        refine ⟨⟨sequenceOutput, hlookup, ?_⟩, fun other hne => Function.update_of_ne hne _ _⟩
        rwa [Function.update_self]
      . simp only [EStateM.bind_run_eq_ok] at hrun
        rcases hrun with ⟨_, _, -, hthrow⟩
        cases hthrow
    . cases hcount

theorem foldlM_processOutput {created : SequenceRef → Nat} {batch : List Entry}
    (h : batch.foldlM
      (fun engine (output, metadata, scheduled) =>
        processOutput engine created output metadata scheduled) engine = .ok engine')
    (hnodup : (batch.flatMap (·.2.2.scheduledGroup.sequences)).Nodup)
    (hentries : ∀ entry ∈ batch, ∃ seq,
      entry.2.2.scheduledGroup.sequences = [seq]
        ∧ (engine.scheduler.memory.sequences seq).isFinished = false
        ∧ HasLogprob entry.1 seq)
    : (∀ entry ∈ batch, ∀ seq ∈ entry.2.2.scheduledGroup.sequences,
          EntryAdvances engine.scheduler.schedulerConfig.maxModelLen
            engine.scheduler.memory.sequences engine'.scheduler.memory.sequences entry seq)
        ∧ ∀ seq, seq ∉ batch.flatMap (·.2.2.scheduledGroup.sequences) →
            engine'.scheduler.memory.sequences seq = engine.scheduler.memory.sequences seq := by
  induction batch generalizing engine with
  | nil =>
    cases h
    exact ⟨fun _ hentry => (nomatch hentry), fun _ _ => rfl⟩
  | cons entry batch ih =>
    rw [List.foldlM_cons] at h
    rcases Except.bind_eq_ok.mp h with ⟨processed, hprocess, h⟩
    rcases hentries entry List.mem_cons_self with ⟨seq, hgroup, hunfinished, hlogprob⟩
    rcases processOutput_eq_ok hprocess hgroup hunfinished hlogprob with ⟨hadvances, hframe⟩
    have hconfig : processed.scheduler.schedulerConfig = engine.scheduler.schedulerConfig := by
      rcases writes_of_processOutput hprocess with ⟨_, _, rfl⟩
      rfl
    rw [List.flatMap_cons, hgroup, List.singleton_append, List.nodup_cons] at hnodup
    -- the sequences of the later entries are untouched so far
    have hlater : ∀ other ∈ batch.flatMap (·.2.2.scheduledGroup.sequences),
        processed.scheduler.memory.sequences other = engine.scheduler.memory.sequences other := by
      intro other hother
      exact hframe other (fun heq => hnodup.1 (heq ▸ hother))
    rcases ih h hnodup.2 (by
      intro entry' hentry'
      rcases hentries entry' (List.mem_cons_of_mem _ hentry')
        with ⟨seq', hgroup', hunfinished', hlogprob'⟩
      refine ⟨seq', hgroup', ?_, hlogprob'⟩
      rw [hlater seq' (List.mem_flatMap.mpr ⟨entry', hentry', by simp [hgroup']⟩)]
      exact hunfinished') with ⟨hrest, hrestFrame⟩
    refine ⟨?_, ?_⟩
    . intro entry' hentry' seq' hseq'
      rcases List.mem_cons.mp hentry' with rfl | hentry'
      . rw [hgroup, List.mem_singleton] at hseq'
        subst hseq'
        unfold EntryAdvances
        rw [hrestFrame seq' hnodup.1]
        exact hadvances
      . have hrest := hrest entry' hentry' seq' hseq'
        unfold EntryAdvances at hrest ⊢
        rwa [hconfig, hlater seq' (List.mem_flatMap.mpr ⟨entry', hentry', hseq'⟩)] at hrest
    . intro seq' hseq'
      rw [List.flatMap_cons, hgroup, List.singleton_append, List.mem_cons, not_or] at hseq'
      rw [hrestFrame seq' hseq'.2, hframe seq' hseq'.1]

end Batch

end LlmEngine

namespace ModelExecutor

theorem sample_eq (next : Nat → NextToken) (metadata : List SequenceGroupMetadata)
    : List.Forall₂ (fun metadata output => ∃ logitsIdx, output = (sampleGroup next logitsIdx metadata).1)
        metadata (sample next metadata) := by
  suffices ∀ (metadata done : List SequenceGroupMetadata)
      (acc : List SequenceGroupOutput × Nat),
      List.Forall₂ (fun metadata output => ∃ logitsIdx,
        output = (sampleGroup next logitsIdx metadata).1) done acc.1 →
      List.Forall₂ (fun metadata output => ∃ logitsIdx,
        output = (sampleGroup next logitsIdx metadata).1) (done ++ metadata)
        (metadata.foldl (fun acc metadata =>
          let sampled := sampleGroup next acc.2 metadata
          (acc.1 ++ [sampled.1], sampled.2)) acc).1 from
    this metadata [] ([], 0) .nil
  intro metadata
  induction metadata with
  | nil =>
    intro done acc hacc
    simpa using hacc
  | cons head metadata ih =>
    intro done acc hacc
    rw [List.foldl_cons, ← List.singleton_append, ← List.append_assoc]
    refine ih (done ++ [head]) _ ?_
    exact List.rel_append hacc (.cons ⟨acc.2, rfl⟩ .nil)

/--
The output for a group with one sequence.
-/
theorem lookup_sampleGroup (next : Nat → NextToken) (logitsIdx : Nat)
    {metadata : SequenceGroupMetadata} {sequenceId : Nat} {data : SequenceData}
    (h : metadata.sequenceData = AList.insert sequenceId data ∅)
    : (sampleGroup next logitsIdx metadata).1.outputs.lookup sequenceId
        = some (sequenceOutput sequenceId (next logitsIdx)) := by
  have hentries : metadata.sequenceData.entries = [⟨sequenceId, data⟩] := by
    rw [h]
    rfl
  unfold sampleGroup
  rw [hentries]
  exact AList.lookup_insert _

end ModelExecutor

end AtomaInfer
