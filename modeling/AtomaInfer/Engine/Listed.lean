import AtomaInfer.Engine.Disconnect
import AtomaInfer.Engine.Ranking

/-!
Which sequences of a group have an output: the running ones. The engine asks for one for each
sequence.
-/

namespace AtomaInfer

theorem Sequence.exists_addTokenId {sequence : Sequence} {tokenIds : List Nat}
    (h : sequence.Stores tokenIds) (hsize : 1 ≤ sequence.blockSize) (tokenId : Nat)
    (logprobs : LogProbs) : ∃ added, sequence.addTokenId tokenId logprobs = .ok added := by
  unfold addTokenId
  cases logprobs.lookup tokenId with
  | none => exact ⟨_, rfl⟩
  | some logprob =>
    rcases appendTokensToBlocks_spec [tokenId] h hsize with ⟨blocks, happend, -⟩
    rw [happend]
    exact ⟨_, rfl⟩

theorem SequenceGroup.updateNumComputedTokens_of_le {group : SequenceGroup} {heap : SequenceHeap}
    {n : Nat} (hnodup : group.sequences.Nodup)
    (hunfinished : ∀ seq ∈ group.sequences, (heap seq).isFinished = false)
    (hle : ∀ seq ∈ group.sequences,
      (heap seq).sequenceData.numComputedTokens + n ≤ (heap seq).length)
    : ∃ heap',
        (group.updateNumComputedTokens n).run heap = .ok () heap'
          ∧ (∀ seq ∈ group.sequences, heap' seq = (heap seq).count n)
          ∧ ∀ seq, seq ∉ group.sequences → heap' seq = heap seq := by
  have hcounted : ∀ seq ∈ group.sequences, (heap seq).counted n = (heap seq).count n := by
    intro seq hseq
    simp [Sequence.counted, hunfinished seq hseq]
  rcases forM_of_not_rejects hnodup (fun seq hseq hrejects =>
    absurd (hle seq hseq) (not_le.mpr hrejects.2)) with ⟨heap', hrun, hall, hframe⟩
  refine ⟨heap', hrun, ?_, hframe⟩
  intro seq hseq
  rw [hall seq hseq, hcounted seq hseq]

namespace LlmEngine

/--
A sequence whose tokens are counted, before and after its output.
-/
def Updated (engine : LlmEngine) (created : Nat) (entry : Entry) (output : SequenceOutput)
    (counted sequence : Sequence) : Prop :=
  if entry.2.1.doSample = true then
    ∃ responses,
      engine.sample created output entry.2.1 entry.2.2.scheduledGroup.stoppingCriteria counted
        = .ok (sequence, responses)
  else
    sequence = { counted with outputLogprobs := counted.outputLogprobs ++ [output.logprob] }

/--
Each running sequence of the batch is updated with its own output, and the finished ones are left
alone.
-/
def UpdatesListed (engine : LlmEngine) (created : SequenceRef → Nat)
    (outputs : List SequenceGroupOutput) : Prop :=
  ∃ requestOutputs engine',
    engine.processGeneratedOutputs created outputs = .ok (requestOutputs, engine')
      ∧ ∀ entry ∈ engine.batch outputs, ∀ seq ∈ entry.2.2.scheduledGroup.sequences,
          ((engine.scheduler.memory.sequences seq).sequenceStatus = .running →
            ∃ output,
              entry.1.outputs.lookup seq.sequenceId = some output
                ∧ engine.Updated (created seq) entry output
                    ((engine.scheduler.memory.sequences seq).count entry.2.2.tokenChunkSize)
                    (engine'.scheduler.memory.sequences seq))
          ∧ ((engine.scheduler.memory.sequences seq).isFinished = true →
            engine'.scheduler.memory.sequences seq = engine.scheduler.memory.sequences seq)

/--
What the scheduler and the model executor see to: the sequences of a scheduled group are running or
finished, its metadata lists the running ones, and there is an output for each sequence that is
listed. The tokens that are to be computed are there, and they are stored in the logical blocks.
-/
structure Lists (engine : LlmEngine) (entry : Entry) : Prop where
  sequences_ne_nil : entry.2.2.scheduledGroup.sequences ≠ []
  status : ∀ seq ∈ entry.2.2.scheduledGroup.sequences,
    (engine.scheduler.memory.sequences seq).sequenceStatus = .running
      ∨ (engine.scheduler.memory.sequences seq).isFinished = true
  listed : ∀ seq ∈ entry.2.2.scheduledGroup.sequences,
    seq.sequenceId ∈ entry.2.1.sequenceData
      ↔ (engine.scheduler.memory.sequences seq).sequenceStatus = .running
  outputs : ∀ sequenceId, sequenceId ∈ entry.1.outputs ↔ sequenceId ∈ entry.2.1.sequenceData
  le_length : ∀ seq ∈ entry.2.2.scheduledGroup.sequences,
    (engine.scheduler.memory.sequences seq).sequenceStatus = .running →
      (engine.scheduler.memory.sequences seq).sequenceData.numComputedTokens
          + entry.2.2.tokenChunkSize ≤ (engine.scheduler.memory.sequences seq).length
  stores : ∀ seq ∈ entry.2.2.scheduledGroup.sequences,
    (engine.scheduler.memory.sequences seq).sequenceStatus = .running →
      1 ≤ (engine.scheduler.memory.sequences seq).blockSize
        ∧ (engine.scheduler.memory.sequences seq).Stores
            (engine.scheduler.memory.sequences seq).sequenceData.getTokenIds

/--
The sequence meets a stopping condition with its output.
-/
def FinishesWith (engine : LlmEngine) (entry : Entry) (seq : SequenceRef) : Prop :=
  engine.EntryStops entry seq
    ((engine.scheduler.memory.sequences seq).count entry.2.2.tokenChunkSize)

variable {engine current engine' : LlmEngine} {entry : Entry} {seq : SequenceRef}
variable {created : SequenceRef → Nat} {outputs : List SequenceGroupOutput}

theorem Lists.exists_lookup_iff (h : engine.Lists entry)
    (hseq : seq ∈ entry.2.2.scheduledGroup.sequences)
    : (∃ output, entry.1.outputs.lookup seq.sequenceId = some output)
        ↔ (engine.scheduler.memory.sequences seq).isFinished = false := by
  rw [← Option.isSome_iff_exists, AList.lookup_isSome, h.outputs, h.listed seq hseq]
  constructor
  . intro hrunning
    unfold Sequence.isFinished
    rw [hrunning]
    rfl
  . intro hunfinished
    refine (h.status seq hseq).resolve_right ?_
    rw [hunfinished]
    exact Bool.false_ne_true

theorem exists_sample_eq_ok {created : Nat} {output : SequenceOutput}
    {metadata : SequenceGroupMetadata} {criteria : StoppingCriteriaParameters}
    {sequence added : Sequence} {text : String}
    (hadd : sequence.addTokenId output.outputToken output.logprob = .ok added)
    (htext : engine.tokenizer added.sequenceData.getTokenIds = .ok text)
    : ∃ responses,
        engine.sample created output metadata criteria sequence
          = .ok (engine.withText text output criteria added, responses) := by
  unfold sample
  rw [hadd]
  simp only [Except.mapError, bind, Except.bind, htext]
  exact ⟨_, rfl⟩

/--
A running sequence can be updated.
-/
theorem Lists.exists_updated (h : engine.Lists entry)
    (htokenizer : ∀ tokenIds, ∃ text, engine.tokenizer tokenIds = .ok text)
    (hseq : seq ∈ entry.2.2.scheduledGroup.sequences)
    (hrunning : (engine.scheduler.memory.sequences seq).sequenceStatus = .running)
    (created : Nat) (output : SequenceOutput)
    : ∃ sequence, engine.Updated created entry output
        ((engine.scheduler.memory.sequences seq).count entry.2.2.tokenChunkSize) sequence := by
  unfold Updated
  split
  . rcases h.stores seq hseq hrunning with ⟨hsize, hstores⟩
    have hcounted : ((engine.scheduler.memory.sequences seq).count
        entry.2.2.tokenChunkSize).Stores
          (engine.scheduler.memory.sequences seq).sequenceData.getTokenIds :=
      ⟨hstores.consecutive, hstores.flatMap_eq, hstores.last_ne_nil⟩
    rcases Sequence.exists_addTokenId hcounted hsize output.outputToken output.logprob
      with ⟨added, hadd⟩
    rcases htokenizer added.sequenceData.getTokenIds with ⟨text, htext⟩
    exact ⟨_, exists_sample_eq_ok hadd htext⟩
  . exact ⟨_, rfl⟩

theorem Writes.canStream_congr (h : engine.Writes engine') (requestId : String)
    : engine'.CanStream requestId ↔ engine.CanStream requestId := by
  rcases h with ⟨sequences, sent, rfl⟩
  exact Iff.rfl

theorem Writes.sample_eq (h : engine.Writes engine') (created : Nat) (output : SequenceOutput)
    (metadata : SequenceGroupMetadata) (criteria : StoppingCriteriaParameters)
    (sequence : Sequence)
    : engine'.sample created output metadata criteria sequence
        = engine.sample created output metadata criteria sequence := by
  rcases h with ⟨sequences, sent, rfl⟩
  rfl

/--
An update with an output that can be sent.
-/
theorem exists_updateSequence {created : Nat} {output : SequenceOutput} {sequence : Sequence}
    (hwrites : engine.Writes current)
    (hcan : entry.2.1.doSample = true → engine.CanStream entry.2.1.requestId)
    (h : engine.Updated created entry output (current.scheduler.memory.sequences seq) sequence)
    : ∃ engine',
        current.updateSequence created seq output entry.2.1
            entry.2.2.scheduledGroup.stoppingCriteria = .ok engine'
          ∧ engine.Writes engine'
          ∧ engine'.scheduler.memory.sequences
              = Function.update current.scheduler.memory.sequences seq sequence := by
  unfold Updated at h
  cases hsample : entry.2.1.doSample with
  | true =>
    rw [if_pos hsample] at h
    rcases h with ⟨responses, hresult⟩
    rw [updateSequence_of_doSample hsample ((hwrites.canStream_congr _).mpr (hcan hsample)),
      hwrites.sample_eq, hresult]
    exact ⟨_, rfl, hwrites.trans ⟨_, _, rfl⟩, rfl⟩
  | false =>
    rw [if_neg (by simp [hsample])] at h
    refine ⟨_, updateSequence_of_not_doSample hsample, ?_, by rw [h]; rfl⟩
    exact hwrites.trans ⟨_, _, rfl⟩

/--
All sequences of a group are running, and its client listens if a token is sampled.
-/
structure Unfinished (engine : LlmEngine) (entry : Entry) : Prop where
  unfinished : ∀ seq ∈ entry.2.2.scheduledGroup.sequences,
    (engine.scheduler.memory.sequences seq).isFinished = false
  canStream : entry.2.1.doSample = true → engine.CanStream entry.2.1.requestId

theorem Lists.running (h : engine.Lists entry) (hunfinished : engine.Unfinished entry)
    (hseq : seq ∈ entry.2.2.scheduledGroup.sequences)
    : (engine.scheduler.memory.sequences seq).sequenceStatus = .running := by
  refine (h.status seq hseq).resolve_right ?_
  rw [hunfinished.unfinished seq hseq]
  exact Bool.false_ne_true

/--
What the outputs of an entry do to a sequence of its group.
-/
def EntryUpdates (engine : LlmEngine) (created : SequenceRef → Nat) (entry : Entry)
    (seq : SequenceRef) (sequence sequence' : Sequence) : Prop :=
  ∃ output,
    entry.1.outputs.lookup seq.sequenceId = some output
      ∧ engine.Updated (created seq) entry output (sequence.count entry.2.2.tokenChunkSize) sequence'

/--
The body of the inner loop of `process_generated_outputs`.
-/
def updateFromOutput (created : SequenceRef → Nat) (entry : Entry) (engine : LlmEngine)
    (seq : SequenceRef) : Except EngineError LlmEngine :=
  match entry.1.outputs.lookup seq.sequenceId with
  | none => .error (.missingSequenceOutputToken seq.sequenceId)
  | some sequenceOutput =>
    engine.updateSequence (created seq) seq sequenceOutput entry.2.1
      entry.2.2.scheduledGroup.stoppingCriteria

theorem updateFromOutput_eq_ok (h : updateFromOutput created entry current seq = .ok engine')
    : ∃ output,
        entry.1.outputs.lookup seq.sequenceId = some output
          ∧ current.updateSequence (created seq) seq output entry.2.1
              entry.2.2.scheduledGroup.stoppingCriteria = .ok engine' := by
  unfold updateFromOutput at h
  cases hlookup : entry.1.outputs.lookup seq.sequenceId with
  | none =>
    rw [hlookup] at h
    cases h
  | some output =>
    rw [hlookup] at h
    exact ⟨output, rfl, h⟩

theorem processOutput_eq_bind (created : SequenceRef → Nat) (entry : Entry)
    : current.processOutput created entry.1 entry.2.1 entry.2.2
        = current.updateNumComputedTokens entry.2.2.scheduledGroup entry.2.2.tokenChunkSize
          >>= entry.2.2.scheduledGroup.sequences.foldlM (updateFromOutput created entry) :=
  rfl

/--
One iteration of the inner loop, for a running sequence whose tokens are counted.
-/
theorem Lists.exists_updateFromOutput (h : engine.Lists entry)
    (htokenizer : ∀ tokenIds, ∃ text, engine.tokenizer tokenIds = .ok text)
    (hunfinished : engine.Unfinished entry) (hwrites : engine.Writes current)
    (hseq : seq ∈ entry.2.2.scheduledGroup.sequences)
    (hcounted : current.scheduler.memory.sequences seq
      = (engine.scheduler.memory.sequences seq).count entry.2.2.tokenChunkSize)
    : ∃ engine',
        updateFromOutput created entry current seq = .ok engine'
          ∧ engine.Writes engine'
          ∧ engine.EntryUpdates created entry seq (engine.scheduler.memory.sequences seq)
              (engine'.scheduler.memory.sequences seq)
          ∧ ∀ other, other ≠ seq →
              engine'.scheduler.memory.sequences other
                = current.scheduler.memory.sequences other := by
  rcases (h.exists_lookup_iff hseq).mpr (hunfinished.unfinished seq hseq) with ⟨output, hlookup⟩
  rcases h.exists_updated htokenizer hseq (h.running hunfinished hseq) (created seq) output
    with ⟨sequence, hupdated⟩
  rw [← hcounted] at hupdated
  rcases exists_updateSequence hwrites hunfinished.canStream hupdated
    with ⟨engine', hupdate, hwrites', hsequences⟩
  refine ⟨engine', ?_, hwrites', ⟨output, hlookup, ?_⟩, ?_⟩
  . unfold updateFromOutput
    rw [hlookup]
    exact hupdate
  . rw [hsequences, Function.update_self, ← hcounted]
    exact hupdated
  . intro other hne
    rw [hsequences, Function.update_of_ne hne]

theorem Lists.exists_processOutput (h : engine.Lists entry)
    (htokenizer : ∀ tokenIds, ∃ text, engine.tokenizer tokenIds = .ok text)
    (hunfinished : engine.Unfinished entry) (hwrites : engine.Writes current)
    (hnodup : entry.2.2.scheduledGroup.sequences.Nodup)
    (hsame : ∀ seq ∈ entry.2.2.scheduledGroup.sequences,
      current.scheduler.memory.sequences seq = engine.scheduler.memory.sequences seq)
    : ∃ engine',
        current.processOutput created entry.1 entry.2.1 entry.2.2 = .ok engine'
          ∧ engine.Writes engine'
          ∧ (∀ seq ∈ entry.2.2.scheduledGroup.sequences,
              engine.EntryUpdates created entry seq (engine.scheduler.memory.sequences seq)
                (engine'.scheduler.memory.sequences seq))
          ∧ ∀ seq, seq ∉ entry.2.2.scheduledGroup.sequences →
              engine'.scheduler.memory.sequences seq = current.scheduler.memory.sequences seq := by
  have hfinished : ∀ seq ∈ entry.2.2.scheduledGroup.sequences,
      (current.scheduler.memory.sequences seq).isFinished = false := by
    intro seq hseq
    rw [hsame seq hseq]
    exact hunfinished.unfinished seq hseq
  have hle : ∀ seq ∈ entry.2.2.scheduledGroup.sequences,
      (current.scheduler.memory.sequences seq).sequenceData.numComputedTokens
          + entry.2.2.tokenChunkSize ≤ (current.scheduler.memory.sequences seq).length := by
    intro seq hseq
    rw [hsame seq hseq]
    exact h.le_length seq hseq (h.running hunfinished hseq)
  rcases SequenceGroup.updateNumComputedTokens_of_le hnodup hfinished hle
    with ⟨heap, hrun, hcounted, hframe⟩
  have hcount : current.updateNumComputedTokens entry.2.2.scheduledGroup entry.2.2.tokenChunkSize
      = .ok { current with scheduler.memory.sequences := heap } := by
    unfold updateNumComputedTokens
    rw [hrun]
  have hstep : ∀ seq ∈ entry.2.2.scheduledGroup.sequences, ∀ engine₁, engine.Writes engine₁ →
      (∀ other ∈ [seq], engine₁.scheduler.memory.sequences other = heap other) →
      ∃ engine₂, updateFromOutput created entry engine₁ seq = .ok engine₂
        ∧ engine.Writes engine₂
        ∧ (∀ other ∈ [seq], engine.EntryUpdates created entry other
            (engine.scheduler.memory.sequences other) (engine₂.scheduler.memory.sequences other))
        ∧ ∀ other, other ∉ [seq] →
            engine₂.scheduler.memory.sequences other
              = engine₁.scheduler.memory.sequences other := by
    intro seq hseq engine₁ hwrites₁ hcell
    rcases h.exists_updateFromOutput htokenizer hunfinished hwrites₁ hseq (by
      rw [hcell seq List.mem_cons_self, hcounted seq hseq, hsame seq hseq])
      with ⟨engine₂, hupdate, hwrites₂, hupdated, hframe₂⟩
    refine ⟨engine₂, hupdate, hwrites₂, ?_, ?_⟩
    . intro other hother
      rw [List.mem_singleton.mp hother]
      exact hupdated
    . intro other hother
      exact hframe₂ other fun heq => hother (List.mem_singleton.mpr heq)
  rcases Except.foldlM_writes (fun engine seq => engine.scheduler.memory.sequences seq)
    (fun seq => [seq]) engine.Writes (fun _ seq _ sequence' =>
      engine.EntryUpdates created entry seq (engine.scheduler.memory.sequences seq) sequence')
    (b := { current with scheduler.memory.sequences := heap }) hstep (by simpa using hnodup)
    (hwrites.trans ⟨_, _, rfl⟩) with ⟨engine', hfold, hwrites', hupdated, hframe'⟩
  refine ⟨engine', ?_, hwrites', ?_, ?_⟩
  . rw [processOutput_eq_bind, hcount]
    exact hfold
  . intro seq hseq
    exact hupdated seq hseq seq List.mem_cons_self
  . intro seq hseq
    rw [hframe' seq (by simpa using hseq)]
    exact hframe seq hseq

theorem metConditions_ne_nil_iff {generatedText : String} {output : SequenceOutput}
    {criteria : StoppingCriteriaParameters} {added : Sequence}
    : engine.metConditions generatedText output criteria added ≠ []
        ↔ ∃ condition ∈ stoppingConditions (added.generatedToken generatedText) output criteria
            engine.scheduler.schedulerConfig.maxModelLen added, condition.1 = true := by
  unfold metConditions
  rw [Ne, List.filter_eq_nil_iff]
  push Not
  rfl

/--
An output finishes a running sequence exactly when a stopping condition is met.
-/
theorem EntryUpdates.isFinished_iff {sequence : Sequence}
    (hunfinished : (engine.scheduler.memory.sequences seq).isFinished = false)
    (h : engine.EntryUpdates created entry seq (engine.scheduler.memory.sequences seq) sequence)
    : sequence.isFinished = true ↔ engine.FinishesWith entry seq := by
  rcases h with ⟨output, hlookup, hupdated⟩
  unfold Updated at hupdated
  split at hupdated
  . next hsample =>
    rcases hupdated with ⟨responses, hresult⟩
    rcases exists_of_sample hresult with ⟨added, text, -, hadd, htext, rfl, -, -⟩
    constructor
    . intro hfinished
      refine ⟨hsample, output, hlookup, added, text, hadd, htext, metConditions_ne_nil_iff.mp ?_⟩
      intro hmet
      unfold Sequence.isFinished at hfinished hunfinished
      rw [sequenceStatus_withText hmet, (Sequence.addTokenId_eq_ok hadd).1] at hfinished
      exact absurd (hunfinished.symm.trans hfinished) Bool.false_ne_true
    . rintro ⟨-, output', hlookup', added', text', hadd', htext', hmet⟩
      change entry.1.outputs.lookup seq.sequenceId = some output' at hlookup'
      rw [hlookup] at hlookup'
      cases hlookup'
      rw [hadd] at hadd'
      cases hadd'
      rw [htext] at htext'
      cases htext'
      exact isFinished_withText (metConditions_ne_nil_iff.mpr hmet)
  . next hsample =>
    subst hupdated
    constructor
    . intro hfinished
      exact absurd (hunfinished.symm.trans hfinished) Bool.false_ne_true
    . intro hfinishes
      exact absurd hfinishes.1 hsample

/--
A group of the batch that gets finished has enough sequences for those that are to be returned.
-/
def ReturnsEnough (engine : LlmEngine) (entry : Entry) : Prop :=
  2 ≤ entry.2.2.scheduledGroup.sequences.length →
    (∀ seq ∈ entry.2.2.scheduledGroup.sequences, engine.FinishesWith entry seq) →
      entry.2.2.scheduledGroup.nextTokenChooserParams.n
        ≤ entry.2.2.scheduledGroup.sequences.length

theorem exists_fromSequenceGroup_iff {heap : SequenceHeap} {group : SequenceGroup}
    (hne : group.sequences ≠ [])
    : (∃ output, GenerateRequestOutput.fromSequenceGroup heap group = .ok output)
        ↔ (2 ≤ group.sequences.length →
            group.nextTokenChooserParams.n ≤ group.sequences.length) := by
  constructor
  . rintro ⟨output, houtput⟩ hlength
    exact (GenerateRequestOutput.fromSequenceGroup_eq_ok hlength houtput).1
  . intro hle
    by_cases hlength : 2 ≤ group.sequences.length
    . exact GenerateRequestOutput.exists_fromSequenceGroup heap hlength (hle hlength)
    . have hpos := List.length_pos_of_ne_nil hne
      rcases List.length_eq_one_iff.mp (show group.sequences.length = 1 by omega) with ⟨seq, hseq⟩
      unfold GenerateRequestOutput.fromSequenceGroup GenerateRequestOutput.topNSequences
      rw [hseq]
      exact ⟨_, rfl⟩

theorem exists_entry_of_scheduled {scheduled : ScheduledSequenceGroup}
    (hmetadata : outputs.length = engine.sequenceGroupsMetadata.length)
    (hscheduled : outputs.length = engine.schedulerOutputs.scheduledSequenceGroups.length)
    (h : scheduled ∈ engine.schedulerOutputs.scheduledSequenceGroups)
    : ∃ entry ∈ engine.batch outputs, entry.2.2 = scheduled := by
  have hzip : ((engine.batch outputs).map (·.2)).map (·.2)
      = engine.schedulerOutputs.scheduledSequenceGroups := by
    unfold batch
    rw [List.map_snd_zip (by rw [List.length_zip]; omega), List.map_snd_zip (by omega)]
  rw [← hzip, List.map_map, List.mem_map] at h
  exact h

/--
The engine without the groups that are finished.
-/
def withoutFinished (engine : LlmEngine) : LlmEngine :=
  { engine with scheduler := engine.scheduler.removeFinishedSequences }

theorem processGeneratedOutputs_eq_bind (engine : LlmEngine) (created : SequenceRef → Nat)
    (outputs : List SequenceGroupOutput)
    : engine.processGeneratedOutputs created outputs
        = (engine.batch outputs).foldlM
            (fun engine entry => processOutput engine created entry.1 entry.2.1 entry.2.2) engine
          >>= fun updated => updated.withoutFinished.requestOutputs
          >>= fun requestOutputs => pure (requestOutputs, updated.withoutFinished) :=
  rfl

theorem scheduled_mem_of_batch (hwrites : engine.Writes engine')
    (h : entry ∈ engine.batch outputs)
    : entry.2.2 ∈ engine'.withoutFinished.schedulerOutputs.scheduledSequenceGroups := by
  rcases hwrites with ⟨sequences, sent, rfl⟩
  exact (List.of_mem_zip (List.of_mem_zip h).2).2

theorem updatesListed_of_unfinished
    (htokenizer : ∀ tokenIds, ∃ text, engine.tokenizer tokenIds = .ok text)
    (hmetadata : outputs.length = engine.sequenceGroupsMetadata.length)
    (hscheduled : outputs.length = engine.schedulerOutputs.scheduledSequenceGroups.length)
    (hnodup : ((engine.batch outputs).flatMap (·.2.2.scheduledGroup.sequences)).Nodup)
    (hlists : ∀ entry ∈ engine.batch outputs, engine.Lists entry)
    (hunfinished : ∀ entry ∈ engine.batch outputs, engine.Unfinished entry)
    (hreturns : ∀ entry ∈ engine.batch outputs, engine.ReturnsEnough entry)
    : engine.UpdatesListed created outputs := by
  rcases Except.foldlM_writes (fun engine seq => engine.scheduler.memory.sequences seq)
    (fun entry => entry.2.2.scheduledGroup.sequences) engine.Writes
    (fun entry seq => engine.EntryUpdates created entry seq)
    (fun entry hentry current hwrites hsame => (hlists entry hentry).exists_processOutput htokenizer
      (hunfinished entry hentry) hwrites ((List.nodup_flatMap.mp hnodup).1 entry hentry) hsame)
    hnodup (.refl engine) with ⟨updated, hfold, hwrites, hupdates, -⟩
  have hoption : ∃ requestOutputs, updated.withoutFinished.requestOutputs = .ok requestOutputs := by
    apply Except.exists_mapM
    intro scheduled hmem
    rcases List.mem_filter.mp hmem with ⟨hmem, hfinished⟩
    have hscheduledGroups : updated.withoutFinished.schedulerOutputs = engine.schedulerOutputs := by
      rcases hwrites with ⟨sequences, sent, rfl⟩
      rfl
    rw [hscheduledGroups] at hmem
    rcases exists_entry_of_scheduled hmetadata hscheduled hmem with ⟨entry, hentry, rfl⟩
    refine (exists_fromSequenceGroup_iff (hlists entry hentry).sequences_ne_nil).mpr ?_
    intro hlength
    refine hreturns entry hentry hlength ?_
    intro seq hseq
    refine ((hupdates entry hentry seq hseq).isFinished_iff
      ((hunfinished entry hentry).unfinished seq hseq)).mp ?_
    exact List.all_eq_true.mp hfinished seq hseq
  rcases hoption with ⟨requestOutputs, hrequestOutputs⟩
  refine ⟨requestOutputs, updated.withoutFinished, ?_, ?_⟩
  . rw [processGeneratedOutputs_eq_bind, hfold]
    change (updated.withoutFinished.requestOutputs >>= _) = _
    rw [hrequestOutputs]
    rfl
  . intro entry hentry seq hseq
    refine ⟨fun _ => hupdates entry hentry seq hseq, ?_⟩
    intro hfinished
    rw [(hunfinished entry hentry).unfinished seq hseq] at hfinished
    cases hfinished

/--
What an update of the whole batch needs of an entry.
-/
theorem unfinished_of_processOutput (hlists : engine.Lists entry)
    (hwrites : engine.Writes current)
    (h : current.processOutput created entry.1 entry.2.1 entry.2.2 = .ok engine')
    : engine.Unfinished entry := by
  rw [processOutput_eq_bind] at h
  rcases Except.bind_eq_ok.mp h with ⟨counted, hcount, hfold⟩
  have hupdates : ∀ seq ∈ entry.2.2.scheduledGroup.sequences, ∃ engine₁ engine₂ output,
      engine.Writes engine₁ ∧ entry.1.outputs.lookup seq.sequenceId = some output
        ∧ engine₁.updateSequence (created seq) seq output entry.2.1
            entry.2.2.scheduledGroup.stoppingCriteria = .ok engine₂ := by
    intro seq hseq
    rcases Except.exists_of_mem_foldlM (I := engine.Writes) (by
      intro engine₁ engine₂ other _ hwrites₁ hupdate
      rcases updateFromOutput_eq_ok hupdate with ⟨output, -, hupdate⟩
      exact hwrites₁.trans (writes_of_updateSequence hupdate)) hfold
      (hwrites.trans (writes_of_updateNumComputedTokens hcount)) hseq
      with ⟨engine₁, engine₂, hwrites₁, hupdate⟩
    rcases updateFromOutput_eq_ok hupdate with ⟨output, hlookup, hupdate⟩
    exact ⟨engine₁, engine₂, output, hwrites₁, hlookup, hupdate⟩
  constructor
  . intro seq hseq
    rcases hupdates seq hseq with ⟨-, -, output, -, hlookup, -⟩
    exact (hlists.exists_lookup_iff hseq).mp ⟨output, hlookup⟩
  . intro hsample
    rcases List.exists_mem_of_ne_nil _ hlists.sequences_ne_nil with ⟨seq, hseq⟩
    rcases hupdates seq hseq with ⟨engine₁, engine₂, output, hwrites₁, -, hupdate⟩
    exact (hwrites₁.canStream_congr _).mp (updateSequence_eq_ok hsample hupdate).1

theorem unfinished_of_foldlM (hlists : ∀ entry ∈ engine.batch outputs, engine.Lists entry)
    (h : (engine.batch outputs).foldlM
      (fun engine entry => processOutput engine created entry.1 entry.2.1 entry.2.2) engine
        = .ok engine')
    : engine.Writes engine' ∧ ∀ entry ∈ engine.batch outputs, engine.Unfinished entry := by
  have hstep : ∀ {current next : LlmEngine} {entry : Entry}, entry ∈ engine.batch outputs →
      engine.Writes current →
        processOutput current created entry.1 entry.2.1 entry.2.2 = .ok next →
          engine.Writes next :=
    fun _ hwrites hnext => hwrites.trans (writes_of_processOutput hnext)
  refine ⟨Except.foldlM_invariant hstep h (.refl engine), ?_⟩
  intro entry hentry
  rcases Except.exists_of_mem_foldlM hstep h (.refl engine) hentry
    with ⟨current, next, hcurrent, hnext⟩
  exact unfinished_of_processOutput (hlists entry hentry) hcurrent hnext

/--
The engine updates the listed sequences exactly when there are no others: no group of the batch has
a sequence that is finished.
-/
theorem updatesListed_iff
    (htokenizer : ∀ tokenIds, ∃ text, engine.tokenizer tokenIds = .ok text)
    (hmetadata : outputs.length = engine.sequenceGroupsMetadata.length)
    (hscheduled : outputs.length = engine.schedulerOutputs.scheduledSequenceGroups.length)
    (hnodup : ((engine.batch outputs).flatMap (·.2.2.scheduledGroup.sequences)).Nodup)
    (hlists : ∀ entry ∈ engine.batch outputs, engine.Lists entry)
    : engine.UpdatesListed created outputs
        ↔ ∀ entry ∈ engine.batch outputs,
            (∀ seq ∈ entry.2.2.scheduledGroup.sequences,
              (engine.scheduler.memory.sequences seq).isFinished = false)
            ∧ (entry.2.1.doSample = true → engine.CanStream entry.2.1.requestId)
            ∧ engine.ReturnsEnough entry := by
  constructor
  . rintro ⟨requestOutputs, engine', hprocess, hupdates⟩ entry hentry
    rw [processGeneratedOutputs_eq_bind] at hprocess
    rcases Except.bind_eq_ok.mp hprocess with ⟨updated, hfold, hprocess⟩
    rcases Except.bind_eq_ok.mp hprocess with ⟨requestOutputs', hrequestOutputs, hpure⟩
    cases hpure
    rcases unfinished_of_foldlM hlists hfold with ⟨hwrites, hall⟩
    have hunfinished := hall entry hentry
    refine ⟨hunfinished.unfinished, hunfinished.canStream, ?_⟩
    intro hlength hfinishes
    have hfinished : entry.2.2.scheduledGroup.isFinished
        updated.withoutFinished.scheduler.memory.sequences = true := by
      refine List.all_eq_true.mpr ?_
      intro seq hseq
      have hrunning := (hlists entry hentry).running hunfinished hseq
      exact (EntryUpdates.isFinished_iff (hunfinished.unfinished seq hseq)
        ((hupdates entry hentry seq hseq).1 hrunning)).mpr (hfinishes seq hseq)
    rcases (Except.forall₂_of_mapM hrequestOutputs).exists_of_mem
      (List.mem_filter.mpr ⟨scheduled_mem_of_batch hwrites hentry, hfinished⟩)
      with ⟨output, -, houtput⟩
    exact (exists_fromSequenceGroup_iff (hlists entry hentry).sequences_ne_nil).mp
      ⟨output, houtput⟩ hlength
  . intro h
    exact updatesListed_of_unfinished htokenizer hmetadata hscheduled hnodup hlists
      (fun entry hentry => ⟨(h entry hentry).1, (h entry hentry).2.1⟩)
      fun entry hentry => (h entry hentry).2.2

/--
The sequences of `pair` after the first generated token. The sequence 0 is running.
-/
def halfwayHeap (status : SequenceStatus) : SequenceHeap := fun seq => {
  GenerateRequestOutput.pairHeap 0 0 seq with
  blockSize := 16
  logicalTokenBlocks := [⟨0, 16, [97, seq.sequenceId], 2⟩]
  sequenceStatus := if seq = ⟨0, 0⟩ then .running else status
}

def halfwayRunning (status : SequenceStatus) : List SequenceRef :=
  (GenerateRequestOutput.pair 1).getSeqs (halfwayHeap status) .running

/--
An engine that has scheduled a decode step of `pair`.
-/
def halfway (status : SequenceStatus) : LlmEngine :=
  let scheduler := Scheduler.new ⟨16, 4, 16, 0, false⟩ 16 4 4 none (halfwayHeap status) 2
  {
    LlmEngine.new scheduler (fun _ => .ok "") with
    sequenceGroupsMetadata := [{
      requestId := "request"
      isPrompt := false
      nextTokenChooserParams := (GenerateRequestOutput.pair 1).nextTokenChooserParams
      stoppingCriteriaParams := (GenerateRequestOutput.pair 1).stoppingCriteria
      blockTables := ∅
      doSample := true
      tokenChunkSize := 1
      sequenceData := AList.insertAll ∅ <|
        (halfwayRunning status).map fun seq =>
          (seq.sequenceId, (halfwayHeap status seq).sequenceData)
      logitsProcessor := (GenerateRequestOutput.pair 1).logitsProcessor
    }]
    schedulerOutputs.scheduledSequenceGroups := [⟨GenerateRequestOutput.pair 1, 1⟩]
  }

/--
The token 98 for each running sequence.
-/
def halfwayOutputs (status : SequenceStatus) : List SequenceGroupOutput :=
  [⟨AList.insertAll ∅ <|
    (halfwayRunning status).map fun seq =>
      (seq.sequenceId, ⟨seq.sequenceId, 98, AList.insert 98 ⟨0, none, none⟩ ∅, false⟩)⟩]

theorem lists_halfway {status : SequenceStatus}
    (h : status = .running ∨ status = .finishedStopped)
    : ∀ entry ∈ (halfway status).batch (halfwayOutputs status), (halfway status).Lists entry := by
  intro entry hentry
  rcases List.mem_singleton.mp hentry with rfl
  constructor
  . exact List.cons_ne_nil _ _
  . rcases h with rfl | rfl <;> decide
  . rcases h with rfl | rfl <;> decide
  . intro sequenceId
    rcases h with rfl | rfl <;> rfl
  . rcases h with rfl | rfl <;> decide
  . intro seq _ _
    have hblocks : ((halfway status).scheduler.memory.sequences seq).logicalTokenBlocks
        = [⟨0, 16, [97, seq.sequenceId], 2⟩] := rfl
    have hsize : ((halfway status).scheduler.memory.sequences seq).blockSize = 16 := rfl
    refine ⟨by omega, ⟨?_, ?_, ?_, ?_, ?_⟩, by rw [hblocks]; rfl, by simp [hblocks]⟩
    all_goals simp [hblocks, hsize]

/--
Both sequences are running.
-/
theorem updatesListed_halfway
    : (halfway .running).UpdatesListed (fun _ => 0) (halfwayOutputs .running) := by
  refine (updatesListed_iff (fun _ => ⟨"", rfl⟩) rfl rfl (by decide)
    (lists_halfway (.inl rfl))).mpr ?_
  intro entry hentry
  rcases List.mem_singleton.mp hentry with rfl
  refine ⟨by decide, ?_, fun _ _ => by decide⟩
  intro _ channel hlookup
  cases hlookup

/--
The sequence 1 is finished. There is no output for it.
-/
theorem not_updatesListed_finished
    : (∀ entry ∈ (halfway .finishedStopped).batch (halfwayOutputs .finishedStopped),
        (halfway .finishedStopped).Lists entry)
      ∧ ¬ (halfway .finishedStopped).UpdatesListed (fun _ => 0)
          (halfwayOutputs .finishedStopped) := by
  refine ⟨lists_halfway (.inr rfl), ?_⟩
  rintro ⟨requestOutputs, engine', hprocess, -⟩
  rw [processGeneratedOutputs_eq_bind] at hprocess
  rcases Except.bind_eq_ok.mp hprocess with ⟨updated, hfold, -⟩
  have hunfinished := (unfinished_of_foldlM (lists_halfway (.inr rfl)) hfold).2 _
    List.mem_cons_self
  cases hunfinished.unfinished ⟨1, 1⟩ (by decide)

end LlmEngine

end AtomaInfer
