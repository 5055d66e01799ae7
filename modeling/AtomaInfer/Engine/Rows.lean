import AtomaInfer.Engine.Listed
import AtomaInfer.Worker.Rows

/-!
The sequence that a row of the logits is for: the worker selects the position of its last token, the
model executor samples its output from the row, and the engine adds the sampled token to it.
-/

namespace AtomaInfer

open ModelWorker
open ModelExecutor (NextToken sequenceOutput)

namespace LlmEngine

/--
The sequence is updated with `output`, after its tokens are counted.
-/
def UpdatedWith (engine : LlmEngine) (created : SequenceRef → Nat) (entry : Entry)
    (output : SequenceOutput) (seq : SequenceRef) (sequence sequence' : Sequence) : Prop :=
  ∃ numComputedTokens stage,
    engine.Updated (created seq) entry output (sequence.recount numComputedTokens stage) sequence'

/--
The row of the sequence `x`, which comes after `before` in the group and the group after
`groupsBefore` in the batch.
-/
structure OwnsRow (engine : LlmEngine) (worker : ModelWorker) (created : SequenceRef → Nat)
    (next : Nat → NextToken) (inputTokens selected : List Nat)
    (groupsBefore : List SequenceGroupMetadata) (metadata : SequenceGroupMetadata)
    (before : List (Sigma fun _ : Nat => SequenceData))
    (entry : Sigma fun _ : Nat => SequenceData) (row : Nat) : Prop where
  selects : ∃ position, selected[row]? = some position
    ∧ worker.LastTokenAt inputTokens
        (sequencesOf groupsBefore ++ before.map fun entry => (metadata, entry)) (metadata, entry)
        position
  samples : ∃ output,
    (ModelExecutor.sample next engine.sequenceGroupsMetadata)[groupsBefore.length]? = some output
      ∧ output.outputs.lookup entry.1 = some (sequenceOutput entry.1 (next row))
  applies : ∀ output scheduled seq requestOutputs engine',
    (engine.batch (ModelExecutor.sample next engine.sequenceGroupsMetadata))[groupsBefore.length]?
        = some (output, metadata, scheduled) →
      seq ∈ scheduled.scheduledGroup.sequences → seq.sequenceId = entry.1 →
        engine.processGeneratedOutputs created
              (ModelExecutor.sample next engine.sequenceGroupsMetadata)
            = .ok (requestOutputs, engine') →
          engine.UpdatedWith created (output, metadata, scheduled) (sequenceOutput entry.1 (next row))
            seq (engine.scheduler.memory.sequences seq) (engine'.scheduler.memory.sequences seq)

/--
Each sequence of the batch owns a row of the logits.
-/
def AttributesRows (engine : LlmEngine) (worker : ModelWorker) (created : SequenceRef → Nat)
    (next : Nat → NextToken) (input : ModelInput) : Prop :=
  ∃ selected,
    computeSelectedTokenIndices input.cuQueryLengths = .ok selected
      ∧ ∀ groupsBefore metadata groupsAfter before entry after,
          engine.sequenceGroupsMetadata = groupsBefore ++ metadata :: groupsAfter →
            metadata.sequenceData.entries = before ++ entry :: after →
              engine.OwnsRow worker created next input.inputTokens selected groupsBefore metadata
                before entry ((sequencesOf groupsBefore).length + before.length)

variable {engine current engine' : LlmEngine} {entry : Entry} {seq : SequenceRef}
variable {created : SequenceRef → Nat} {outputs : List SequenceGroupOutput}

theorem updated_of_updateSequence {created : Nat} {output : SequenceOutput}
    (hwrites : engine.Writes current)
    (h : current.updateSequence created seq output entry.2.1
      entry.2.2.scheduledGroup.stoppingCriteria = .ok engine')
    : engine.Updated created entry output (current.scheduler.memory.sequences seq)
          (engine'.scheduler.memory.sequences seq)
        ∧ ∀ other, other ≠ seq →
            engine'.scheduler.memory.sequences other
              = current.scheduler.memory.sequences other := by
  unfold Updated
  cases hsample : entry.2.1.doSample with
  | true =>
    rcases updateSequence_eq_ok hsample h with ⟨-, sequence, responses, hresult, rfl⟩
    rw [hwrites.sample_eq] at hresult
    have hwritten : ((current.stream entry.2.1.requestId responses).writeSequence seq
        sequence).scheduler.memory.sequences seq = sequence := by
      simp [writeSequence]
    refine ⟨?_, fun other hne => Function.update_of_ne hne _ _⟩
    rw [if_pos rfl, hwritten]
    exact ⟨responses, hresult⟩
  | false =>
    rw [updateSequence_of_not_doSample hsample] at h
    cases h
    refine ⟨?_, fun other hne => Function.update_of_ne hne _ _⟩
    rw [if_neg Bool.false_ne_true]
    exact Function.update_self seq _ _

/--
What the outputs of an entry do to the sequences of its group.
-/
def EntryApplies (engine : LlmEngine) (created : SequenceRef → Nat) (entry : Entry)
    (seq : SequenceRef) (sequence sequence' : Sequence) : Prop :=
  ∃ output, entry.1.outputs.lookup seq.sequenceId = some output
    ∧ engine.UpdatedWith created entry output seq sequence sequence'

theorem entryApplies_of_processOutput (hwrites : engine.Writes current)
    (hnodup : entry.2.2.scheduledGroup.sequences.Nodup)
    (h : current.processOutput created entry.1 entry.2.1 entry.2.2 = .ok engine')
    : (∀ seq ∈ entry.2.2.scheduledGroup.sequences,
          engine.EntryApplies created entry seq (current.scheduler.memory.sequences seq)
            (engine'.scheduler.memory.sequences seq))
        ∧ ∀ seq, seq ∉ entry.2.2.scheduledGroup.sequences →
            engine'.scheduler.memory.sequences seq = current.scheduler.memory.sequences seq := by
  rw [processOutput_eq_bind] at h
  rcases Except.bind_eq_ok.mp h with ⟨counted, hcount, hfold⟩
  have hrecount : ∀ seq, (∃ numComputedTokens stage, counted.scheduler.memory.sequences seq
        = (current.scheduler.memory.sequences seq).recount numComputedTokens stage)
      ∧ (seq ∉ entry.2.2.scheduledGroup.sequences →
          counted.scheduler.memory.sequences seq = current.scheduler.memory.sequences seq) := by
    intro seq
    unfold updateNumComputedTokens at hcount
    split at hcount
    . next hrun =>
      cases hcount
      exact recount_of_forM hrun seq
    . cases hcount
  rcases Except.foldlM_wrote (fun engine seq => engine.scheduler.memory.sequences seq)
    (fun seq => [seq]) engine.Writes (fun _ seq sequence sequence' =>
      ∃ output, entry.1.outputs.lookup seq.sequenceId = some output
        ∧ engine.Updated (created seq) entry output sequence sequence') (by
    intro seq hseq current next hcurrent hcell hnext
    rcases updateFromOutput_eq_ok hnext with ⟨output, hlookup, hupdate⟩
    rcases updated_of_updateSequence hcurrent hupdate with ⟨hupdated, hframe⟩
    refine ⟨hcurrent.trans (writes_of_updateSequence hupdate), ?_, ?_⟩
    . intro other hother
      rw [List.mem_singleton.mp hother]
      rw [hcell seq List.mem_cons_self] at hupdated
      exact ⟨output, hlookup, hupdated⟩
    . intro other hother
      exact hframe other fun heq => hother (List.mem_singleton.mpr heq)) (by simpa using hnodup)
    (hwrites.trans (writes_of_updateNumComputedTokens hcount)) hfold with ⟨hupdated, hframe⟩
  constructor
  . intro seq hseq
    rcases hupdated seq hseq seq List.mem_cons_self with ⟨output, hlookup, hupdated⟩
    rcases (hrecount seq).1 with ⟨numComputedTokens, stage, hcounted⟩
    rw [hcounted] at hupdated
    exact ⟨output, hlookup, numComputedTokens, stage, hupdated⟩
  . intro seq hseq
    rw [hframe seq (by simpa using hseq)]
    exact (hrecount seq).2 hseq

/--
The engine applies the outputs of a batch to the sequences of its groups.
-/
theorem entryApplies_of_processGeneratedOutputs {requestOutputs : List GenerateRequestOutput}
    (hnodup : ((engine.batch outputs).flatMap (·.2.2.scheduledGroup.sequences)).Nodup)
    (h : engine.processGeneratedOutputs created outputs = .ok (requestOutputs, engine'))
    : (∀ entry ∈ engine.batch outputs, ∀ seq ∈ entry.2.2.scheduledGroup.sequences,
          engine.EntryApplies created entry seq (engine.scheduler.memory.sequences seq)
            (engine'.scheduler.memory.sequences seq))
        ∧ ∀ seq, seq ∉ (engine.batch outputs).flatMap (·.2.2.scheduledGroup.sequences) →
            engine'.scheduler.memory.sequences seq = engine.scheduler.memory.sequences seq := by
  rw [processGeneratedOutputs_eq_bind] at h
  rcases Except.bind_eq_ok.mp h with ⟨updated, hfold, h⟩
  rcases Except.bind_eq_ok.mp h with ⟨requestOutputs', -, hpure⟩
  cases hpure
  refine Except.foldlM_wrote (fun engine seq => engine.scheduler.memory.sequences seq)
    (fun entry => entry.2.2.scheduledGroup.sequences) engine.Writes
    (fun entry => engine.EntryApplies created entry) ?_ hnodup (.refl engine) hfold
  intro entry hentry current next hcurrent hcells hnext
  rcases entryApplies_of_processOutput hcurrent ((List.nodup_flatMap.mp hnodup).1 entry hentry) hnext
    with ⟨happlies, hframe⟩
  refine ⟨hcurrent.trans (writes_of_processOutput hnext), ?_, hframe⟩
  intro seq hseq
  rw [← hcells seq hseq]
  exact happlies seq hseq

/--
An engine that has scheduled a chunk of a prompt and a decode step of `pair`.
-/
def mixed : LlmEngine :=
  let decoding := halfway .running
  let prompt := SequenceData.new [5, 6, 7] []
  {
    decoding with
    sequenceGroupsMetadata :=
      {
        singleMetadata true prompt 2 [] with
        blockTables := AList.insert 2 [3] ∅
        sequenceData := AList.insert 2 prompt ∅
      } :: decoding.sequenceGroupsMetadata.map fun metadata =>
        { metadata with blockTables := AList.insert 0 [1] (AList.insert 1 [2] ∅) }
    schedulerOutputs.scheduledSequenceGroups :=
      ⟨Scheduler.singleGroup "a" 2 0, 2⟩ :: decoding.schedulerOutputs.scheduledSequenceGroups
  }

end LlmEngine

end AtomaInfer
