import AtomaInfer.Engine.Batch
import AtomaInfer.Engine.Run

/-!
What happens to a run of the engine when clients drop the receiving sides of their channels.
-/

theorem List.map_snd_zip_sublist {α β : Type} (xs : List α) (ys : List β)
    : ((xs.zip ys).map Prod.snd).Sublist ys := by
  induction xs generalizing ys with
  | nil => exact List.nil_sublist ys
  | cons x xs ih =>
    cases ys with
    | nil => exact .refl _
    | cons y ys => exact (ih ys).cons_cons y

namespace AtomaInfer

/--
The same sequence with other counters.
-/
def Sequence.recount (numComputedTokens : Nat) (stage : SequenceStage) (sequence : Sequence)
    : Sequence :=
  { sequence with sequenceData := { sequence.sequenceData with numComputedTokens, stage } }

theorem Sequence.addTokenId_recount (numComputedTokens : Nat) (stage : SequenceStage)
    (sequence : Sequence) (tokenId : Nat) (logprobs : LogProbs)
    : (sequence.recount numComputedTokens stage).addTokenId tokenId logprobs
        = (sequence.addTokenId tokenId logprobs).map (recount numComputedTokens stage) := by
  unfold addTokenId
  cases logprobs.lookup tokenId with
  | none => rfl
  | some logprob =>
    have hblocks : (sequence.recount numComputedTokens stage).appendTokensToBlocks [tokenId]
        = (sequence.appendTokensToBlocks [tokenId]).map fun appended =>
            { appended with sequenceData := (sequence.recount numComputedTokens stage).sequenceData } :=
      appendTokensToBlocks.go_sequenceData _ _ _ _
    dsimp only
    rw [hblocks]
    cases happend : sequence.appendTokensToBlocks [tokenId] with
    | error e => rfl
    | ok appended =>
      rw [appendTokensToBlocks_eq_ok happend]
      rfl

theorem Sequence.sequenceStatus_of_addTokenId {sequence added : Sequence} {tokenId : Nat}
    {logprobs : LogProbs} (h : sequence.addTokenId tokenId logprobs = .ok added)
    : added.sequenceStatus = sequence.sequenceStatus := by
  rw [(addTokenId_eq_ok h).1]

namespace LlmEngine

/--
The same engine after the clients of `channels` have left.
-/
def without (channels : List Channel) (engine : LlmEngine) : LlmEngine :=
  { engine with disconnected := channels }

variable (engine : LlmEngine)

/--
The client of `requestId` listens, if it waits for a single response.
-/
def CanRespond (requestId : String) : Prop :=
  ∀ channel, engine.responseSenders.lookup requestId = some channel → channel ∉ engine.disconnected

/--
The outputs with the metadata and the groups of the current batch.
-/
def batch (outputs : List SequenceGroupOutput) : List Entry :=
  outputs.zip <|
    engine.sequenceGroupsMetadata.zip engine.schedulerOutputs.scheduledSequenceGroups

/--
With the token of `output` the sequence meets one of its stopping conditions.
-/
def Stops (output : SequenceOutput) (criteria : StoppingCriteriaParameters) (sequence : Sequence)
    : Prop :=
  ∃ added generatedText,
    sequence.addTokenId output.outputToken output.logprob = .ok added
      ∧ engine.tokenizer added.sequenceData.getTokenIds = .ok generatedText
      ∧ ∃ condition ∈ stoppingConditions (added.generatedToken generatedText) output criteria
          engine.scheduler.schedulerConfig.maxModelLen added,
          condition.1 = true

/--
The entry has an output for the sequence, which is sampled and stops.
-/
def EntryStops (entry : Entry) (seq : SequenceRef) (sequence : Sequence) : Prop :=
  entry.2.1.doSample = true
    ∧ ∃ output ∈ entry.1.outputs.lookup seq.sequenceId,
        engine.Stops output entry.2.2.scheduledGroup.stoppingCriteria sequence

/--
`outputs` finish the group: each of its sequences is finished, or is sampled and stops.
-/
def Finishes (outputs : List SequenceGroupOutput) (group : SequenceGroup) : Prop :=
  ∀ seq ∈ group.sequences,
    (engine.scheduler.memory.sequences seq).isFinished = true
      ∨ ∃ entry ∈ engine.batch outputs,
          seq ∈ entry.2.2.scheduledGroup.sequences
            ∧ engine.EntryStops entry seq (engine.scheduler.memory.sequences seq)

/--
The clients that the engine has something for when it processes `outputs` listen: the streaming
clients of the groups that are sampled, and the other clients of the groups that finish.
-/
structure Listening (outputs : List SequenceGroupOutput) : Prop where
  canStream : ∀ entry ∈ engine.batch outputs, entry.2.1.doSample = true →
    entry.2.2.scheduledGroup.sequences ≠ [] → engine.CanStream entry.2.1.requestId
  canRespond : ∀ scheduled ∈ engine.schedulerOutputs.scheduledSequenceGroups,
    engine.Finishes outputs scheduled.scheduledGroup →
      engine.CanRespond scheduled.scheduledGroup.requestId

variable {engine} {base engine' : LlmEngine} {channels : List Channel} {created : Nat}
variable {seq : SequenceRef} {output : SequenceOutput} {metadata : SequenceGroupMetadata}
variable {criteria : StoppingCriteriaParameters}

instance (requestId : String) : Decidable (engine.CanStream requestId) :=
  inferInstanceAs (Decidable
    (∀ channel ∈ engine.responseStreamingSenders.lookup requestId, channel ∉ engine.disconnected))

instance (requestId : String) : Decidable (engine.CanRespond requestId) :=
  inferInstanceAs (Decidable
    (∀ channel ∈ engine.responseSenders.lookup requestId, channel ∉ engine.disconnected))

instance (sequence : Sequence) : Decidable (engine.Stops output criteria sequence) :=
  match hadd : sequence.addTokenId output.outputToken output.logprob with
  | .error _ => isFalse (by
    rintro ⟨_, _, h, -⟩
    rw [hadd] at h
    cases h)
  | .ok added =>
    match htext : engine.tokenizer added.sequenceData.getTokenIds with
    | .error _ => isFalse (by
      rintro ⟨_, _, h, h', -⟩
      rw [hadd] at h
      cases h
      rw [htext] at h'
      cases h')
    | .ok generatedText =>
      decidable_of_iff
        (∃ condition ∈ stoppingConditions (added.generatedToken generatedText) output criteria
          engine.scheduler.schedulerConfig.maxModelLen added, condition.1 = true) (by
        constructor
        . intro h
          exact ⟨added, generatedText, hadd, htext, h⟩
        . rintro ⟨_, _, h, h', hcondition⟩
          rw [hadd] at h
          cases h
          rw [htext] at h'
          cases h'
          exact hcondition)

instance (entry : Entry) (seq : SequenceRef) (sequence : Sequence)
    : Decidable (engine.EntryStops entry seq sequence) := by
  unfold EntryStops
  infer_instance

instance (outputs : List SequenceGroupOutput) (group : SequenceGroup)
    : Decidable (engine.Finishes outputs group) := by
  unfold Finishes
  infer_instance

instance (outputs : List SequenceGroupOutput) : Decidable (engine.Listening outputs) :=
  decidable_of_iff
    ((∀ entry ∈ engine.batch outputs, entry.2.1.doSample = true →
        entry.2.2.scheduledGroup.sequences ≠ [] → engine.CanStream entry.2.1.requestId)
      ∧ ∀ scheduled ∈ engine.schedulerOutputs.scheduledSequenceGroups,
          engine.Finishes outputs scheduled.scheduledGroup →
            engine.CanRespond scheduled.scheduledGroup.requestId)
    ⟨fun h => ⟨h.1, h.2⟩, fun h => ⟨h.canStream, h.canRespond⟩⟩

theorem canStream_of_disconnected_eq_nil (h : engine.disconnected = []) (requestId : String)
    : engine.CanStream requestId := by
  intro channel _
  simp [h]

theorem updateSequence_without (hnone : engine.disconnected = [])
    (h : metadata.doSample = true → (engine.without channels).CanStream metadata.requestId)
    : (engine.without channels).updateSequence created seq output metadata criteria
        = (engine.updateSequence created seq output metadata criteria).map (without channels) := by
  cases hsample : metadata.doSample with
  | true =>
    rw [updateSequence_of_doSample hsample (h hsample),
      updateSequence_of_doSample hsample (canStream_of_disconnected_eq_nil hnone _)]
    change Except.map _ (engine.sample created output metadata criteria
      (engine.scheduler.memory.sequences seq)) = _
    cases engine.sample created output metadata criteria (engine.scheduler.memory.sequences seq) with
    | error e => rfl
    | ok result => rfl
  | false =>
    rw [updateSequence_of_not_doSample hsample, updateSequence_of_not_doSample hsample]
    rfl

theorem updateNumComputedTokens_without (group : SequenceGroup) (numNewComputedTokens : Nat)
    : (engine.without channels).updateNumComputedTokens group numNewComputedTokens
        = (engine.updateNumComputedTokens group numNewComputedTokens).map (without channels) := by
  have hsequences :
      (engine.without channels).scheduler.memory.sequences = engine.scheduler.memory.sequences := rfl
  unfold updateNumComputedTokens
  rw [hsequences]
  cases (group.updateNumComputedTokens numNewComputedTokens).run
      engine.scheduler.memory.sequences with
  | ok => rfl
  | error => rfl

/--
The channels of the streaming clients stay the same while a batch is processed.
-/
theorem Writes.canStream_iff (h : base.Writes engine) (requestId : String)
    : (engine.without channels).CanStream requestId
        ↔ (base.without channels).CanStream requestId := by
  rcases h with ⟨sequences, sent, rfl⟩
  exact Iff.rfl

theorem Writes.disconnected_eq (h : base.Writes engine)
    : engine.disconnected = base.disconnected := by
  rcases h with ⟨sequences, sent, rfl⟩
  rfl

theorem processOutput_without {created : SequenceRef → Nat} {entry : Entry}
    (hnone : engine.disconnected = [])
    (h : entry.2.1.doSample = true → entry.2.2.scheduledGroup.sequences ≠ [] →
      (engine.without channels).CanStream entry.2.1.requestId)
    : (engine.without channels).processOutput created entry.1 entry.2.1 entry.2.2
        = (engine.processOutput created entry.1 entry.2.1 entry.2.2).map (without channels) := by
  unfold processOutput
  dsimp only
  rw [updateNumComputedTokens_without]
  cases hcount : engine.updateNumComputedTokens entry.2.2.scheduledGroup entry.2.2.tokenChunkSize with
  | error e => rfl
  | ok counted =>
    change List.foldlM _ (counted.without channels) _ = Except.map _ (List.foldlM _ counted _)
    refine Except.foldlM_map (g := without channels) (I := fun xs (current : LlmEngine) =>
      engine.Writes current ∧ ∀ seq ∈ xs, seq ∈ entry.2.2.scheduledGroup.sequences) ?_
      ⟨writes_of_updateNumComputedTokens hcount, fun seq hseq => hseq⟩
    rintro current seq xs ⟨hwrites, hmem⟩
    cases hlookup : entry.1.outputs.lookup seq.sequenceId with
    | none => exact ⟨rfl, fun _ hnext => (nomatch hnext)⟩
    | some output =>
      refine ⟨updateSequence_without (hwrites.disconnected_eq.trans hnone) ?_, ?_⟩
      . intro hsample
        rw [hwrites.canStream_iff]
        exact h hsample (List.ne_nil_of_mem (hmem seq List.mem_cons_self))
      . intro next hnext
        exact ⟨hwrites.trans (writes_of_updateSequence hnext),
          fun seq hseq => hmem seq (List.mem_cons_of_mem _ hseq)⟩

theorem foldlM_without {created : SequenceRef → Nat} {entries : List Entry}
    (hnone : engine.disconnected = [])
    (h : ∀ entry ∈ entries, entry.2.1.doSample = true →
      entry.2.2.scheduledGroup.sequences ≠ [] → (engine.without channels).CanStream entry.2.1.requestId)
    : entries.foldlM
          (fun engine (output, metadata, scheduled) =>
            processOutput engine created output metadata scheduled) (engine.without channels)
        = (entries.foldlM
            (fun engine (output, metadata, scheduled) =>
              processOutput engine created output metadata scheduled) engine).map
              (without channels) := by
  refine Except.foldlM_map (g := without channels) (I := fun xs (current : LlmEngine) =>
    engine.Writes current ∧ ∀ entry ∈ xs, entry ∈ entries) ?_ ⟨.refl engine, fun _ hentry => hentry⟩
  rintro current entry xs ⟨hwrites, hmem⟩
  refine ⟨processOutput_without (hwrites.disconnected_eq.trans hnone) ?_, ?_⟩
  . intro hsample hne
    rw [hwrites.canStream_iff]
    exact h entry (hmem entry List.mem_cons_self) hsample hne
  . intro next hnext
    exact ⟨hwrites.trans (writes_of_processOutput hnext),
      fun entry hentry => hmem entry (List.mem_cons_of_mem _ hentry)⟩

theorem processGeneratedOutputs_without {created : SequenceRef → Nat}
    {outputs : List SequenceGroupOutput} (hnone : engine.disconnected = [])
    (h : ∀ entry ∈ engine.batch outputs, entry.2.1.doSample = true →
      entry.2.2.scheduledGroup.sequences ≠ [] → (engine.without channels).CanStream entry.2.1.requestId)
    : (engine.without channels).processGeneratedOutputs created outputs
        = (engine.processGeneratedOutputs created outputs).map
            fun result => (result.1, result.2.without channels) := by
  unfold processGeneratedOutputs
  change (do
    let engine ← (engine.batch outputs).foldlM
      (fun engine (output, metadata, scheduled) =>
        processOutput engine created output metadata scheduled) (engine.without channels)
    _) = _
  rw [foldlM_without hnone h]
  change _ = Except.map _ (do
    let engine ← (engine.batch outputs).foldlM
      (fun engine (output, metadata, scheduled) =>
        processOutput engine created output metadata scheduled) engine
    _)
  cases (engine.batch outputs).foldlM
      (fun engine (output, metadata, scheduled) =>
        processOutput engine created output metadata scheduled) engine with
  | error e => rfl
  | ok updated =>
    have hsame : LlmEngine.requestOutputs {
        updated.without channels with
        scheduler := (updated.without channels).scheduler.removeFinishedSequences }
          = LlmEngine.requestOutputs
              { updated with scheduler := updated.scheduler.removeFinishedSequences } := rfl
    simp only [Except.map, bind, Except.bind]
    rw [hsame]
    cases LlmEngine.requestOutputs
        { updated with scheduler := updated.scheduler.removeFinishedSequences } with
    | error e => rfl
    | ok requestOutputs => rfl

theorem step_without (instants : Instants)
    : (engine.without channels).step instants = (engine.step instants).map (without channels) := by
  unfold step
  change (do let result ← (engine.scheduler.schedule instants).mapError _; _) = _
  cases engine.scheduler.schedule instants with
  | error e => rfl
  | ok result =>
    rcases result with ⟨metadata, outputs, scheduler⟩
    simp only [Except.mapError, bind, Except.bind]
    split
    . rfl
    . rfl

theorem sendResponse_without {output : GenerateRequestOutput} (hnone : engine.disconnected = [])
    (h : (engine.without channels).CanRespond output.requestId)
    : (engine.without channels).sendResponse output
        = (engine.sendResponse output).map (without channels) := by
  have hsenders : (engine.without channels).responseSenders = engine.responseSenders := rfl
  unfold sendResponse
  rw [hsenders]
  cases hlookup : engine.responseSenders.lookup output.requestId with
  | none => rfl
  | some channel =>
    have hlistens : channel ∉ (engine.without channels).disconnected := h channel hlookup
    simp only [hlistens, hnone, List.not_mem_nil, if_false]
    rfl

/--
Only the channels of the requests that are answered are removed.
-/
theorem canRespond_of_sendResponse {output : GenerateRequestOutput}
    (h : engine.sendResponse output = .ok engine') {requestId : String}
    (hcan : (engine.without channels).CanRespond requestId)
    : (engine'.without channels).CanRespond requestId := by
  unfold sendResponse at h
  split at h
  . cases h
    exact hcan
  . split at h
    . cases h
    . cases h
      intro channel hlookup
      apply hcan channel
      change AList.lookup requestId (engine.responseSenders.erase output.requestId) = _ at hlookup
      by_cases heq : requestId = output.requestId
      . rw [heq, AList.lookup_erase] at hlookup
        cases hlookup
      . rw [AList.lookup_erase_ne heq] at hlookup
        exact hlookup

theorem sendResponses_without {requestOutputs : List GenerateRequestOutput}
    (hnone : engine.disconnected = [])
    (h : ∀ output ∈ requestOutputs, (engine.without channels).CanRespond output.requestId)
    : requestOutputs.foldlM (fun engine output => sendResponse engine output)
          (engine.without channels)
        = (requestOutputs.foldlM (fun engine output => sendResponse engine output) engine).map
            (without channels) := by
  refine Except.foldlM_map (g := without channels) (I := fun xs (current : LlmEngine) =>
    current.disconnected = []
      ∧ ∀ output ∈ xs, (current.without channels).CanRespond output.requestId) ?_ ⟨hnone, h⟩
  rintro current output xs ⟨hnone, hcan⟩
  refine ⟨sendResponse_without hnone (hcan output List.mem_cons_self), ?_⟩
  intro next hnext
  refine ⟨?_, ?_⟩
  . rcases sendResponse_keeps hnext with ⟨responseSenders, sent, rfl⟩
    exact hnone
  . intro output' houtput'
    exact canRespond_of_sendResponse hnext (hcan output' (List.mem_cons_of_mem _ houtput'))

section Finished

theorem Stops.of_recount {numComputedTokens : Nat} {stage : SequenceStage} {sequence : Sequence}
    (h : engine.Stops output criteria (sequence.recount numComputedTokens stage))
    : engine.Stops output criteria sequence := by
  rcases h with ⟨added, generatedText, hadd, htext, hcondition⟩
  rw [Sequence.addTokenId_recount] at hadd
  cases hadded : sequence.addTokenId output.outputToken output.logprob with
  | error e =>
    rw [hadded] at hadd
    cases hadd
  | ok added' =>
    rw [hadded] at hadd
    cases hadd
    exact ⟨added', generatedText, hadded, htext, hcondition⟩

theorem Writes.stops_iff (h : base.Writes engine) (sequence : Sequence)
    : engine.Stops output criteria sequence ↔ base.Stops output criteria sequence := by
  rcases h with ⟨sequences, sent, rfl⟩
  exact Iff.rfl

/--
A sequence that was not finished is finished because it was sampled and stops.
-/
theorem isFinished_of_updateSequence
    (h : engine.updateSequence created seq output metadata criteria = .ok engine')
    : (∀ other, other ≠ seq →
          engine'.scheduler.memory.sequences other = engine.scheduler.memory.sequences other)
        ∧ ((engine'.scheduler.memory.sequences seq).isFinished = true →
            (engine.scheduler.memory.sequences seq).isFinished = true
              ∨ metadata.doSample = true
                ∧ engine.Stops output criteria (engine.scheduler.memory.sequences seq)) := by
  cases hsample : metadata.doSample with
  | true =>
    rcases updateSequence_eq_ok hsample h with ⟨-, sequence', responses, hresult, rfl⟩
    rcases exists_of_sample hresult with ⟨added, generatedText, -, hadd, htext, rfl, -, -⟩
    refine ⟨fun other hne => Function.update_of_ne hne _ _, ?_⟩
    intro hfinished
    change (Function.update engine.scheduler.memory.sequences seq _ seq).isFinished = true
      at hfinished
    rw [Function.update_self] at hfinished
    by_cases hmet : ∃ condition ∈ stoppingConditions (added.generatedToken generatedText) output
        criteria engine.scheduler.schedulerConfig.maxModelLen added, condition.1 = true
    . exact .inr ⟨rfl, added, generatedText, hadd, htext, hmet⟩
    . left
      push Not at hmet
      have hnil : engine.metConditions generatedText output criteria added = [] := by
        rw [metConditions, List.filter_eq_nil_iff]
        exact hmet
      unfold Sequence.isFinished withText at hfinished
      rw [hnil] at hfinished
      unfold Sequence.isFinished
      rw [← Sequence.sequenceStatus_of_addTokenId hadd]
      exact hfinished
  | false =>
    rw [updateSequence_of_not_doSample hsample] at h
    cases h
    refine ⟨fun other hne => Function.update_of_ne hne _ _, ?_⟩
    intro hfinished
    change (Function.update engine.scheduler.memory.sequences seq _ seq).isFinished = true
      at hfinished
    rw [Function.update_self] at hfinished
    exact .inl hfinished

theorem recount_of_forM {numNewComputedTokens : Nat} {sequences : List SequenceRef}
    {heap heap' : SequenceHeap} {u : Unit}
    (h : (sequences.forM fun seq => do
      let sequence := (← get) seq
      if !sequence.isFinished then
        match (SequenceData.updateNumComputedTokens numNewComputedTokens).run sequence.sequenceData
        with
        | .ok () sequenceData =>
          modify fun heap => Function.update heap seq { sequence with sequenceData }
        | .error e sequenceData =>
          modify fun heap => Function.update heap seq { sequence with sequenceData }
          throw e : EStateM SequenceError SequenceHeap Unit).run heap = .ok u heap')
    (seq : SequenceRef)
    : (∃ numComputedTokens stage, heap' seq = (heap seq).recount numComputedTokens stage)
        ∧ (seq ∉ sequences → heap' seq = heap seq) := by
  induction sequences generalizing heap with
  | nil =>
    cases h
    exact ⟨⟨_, _, rfl⟩, fun _ => rfl⟩
  | cons head sequences ih =>
    simp only [List.forM_eq_forM, List.forM_cons, EStateM.bind_run_eq_ok] at h
    rcases h with ⟨_, between, ⟨_, _, hget, hhead⟩, hrest⟩
    rcases ih hrest with ⟨⟨numComputedTokens, stage, hrecount⟩, hframe⟩
    cases hget
    have hbetween : (∃ numComputedTokens stage,
        between seq = (heap seq).recount numComputedTokens stage)
          ∧ (seq ≠ head → between seq = heap seq) := by
      split at hhead
      . split at hhead
        . next data hdata =>
          cases hhead
          by_cases heq : seq = head
          . subst heq
            rcases SequenceData.updateNumComputedTokens_eq_ok hdata with ⟨-, rfl⟩
            exact ⟨⟨_, _, Function.update_self _ _ _⟩, fun hne => absurd rfl hne⟩
          . have hframe : Function.update heap head { heap head with sequenceData := data } seq
              = heap seq :=
              Function.update_of_ne heq _ heap
            exact ⟨⟨_, _, hframe⟩, fun _ => hframe⟩
        . simp only [EStateM.bind_run_eq_ok] at hhead
          rcases hhead with ⟨_, _, -, hthrow⟩
          cases hthrow
      . cases hhead
        exact ⟨⟨_, _, rfl⟩, fun _ => rfl⟩
    refine ⟨?_, ?_⟩
    . rcases hbetween.1 with ⟨numComputedTokens', stage', hbetween⟩
      rw [hrecount, hbetween]
      exact ⟨numComputedTokens, stage, rfl⟩
    . intro hnot
      rw [List.mem_cons, not_or] at hnot
      rw [hframe hnot.2, hbetween.2 hnot.1]

/--
What the steps of a loop say about the sequences that they finish, for steps that write different
sequences.
-/
theorem isFinished_of_foldlM {α : Type} {f : LlmEngine → α → Except EngineError LlmEngine}
    (base : LlmEngine) (sequences : α → List SequenceRef)
    (stops : α → SequenceRef → Sequence → Prop) {xs : List α}
    (hstep : ∀ x ∈ xs, ∀ current next, base.Writes current → f current x = .ok next →
      base.Writes next ∧ ∀ seq,
        (seq ∉ sequences x →
            next.scheduler.memory.sequences seq = current.scheduler.memory.sequences seq)
          ∧ ((next.scheduler.memory.sequences seq).isFinished = true →
              (current.scheduler.memory.sequences seq).isFinished = true
                ∨ seq ∈ sequences x ∧ stops x seq (current.scheduler.memory.sequences seq)))
    (hnodup : (xs.flatMap sequences).Nodup) (hwrites : base.Writes engine)
    (h : xs.foldlM f engine = .ok engine') (seq : SequenceRef)
    : (seq ∉ xs.flatMap sequences →
          engine'.scheduler.memory.sequences seq = engine.scheduler.memory.sequences seq)
        ∧ ((engine'.scheduler.memory.sequences seq).isFinished = true →
            (engine.scheduler.memory.sequences seq).isFinished = true
              ∨ ∃ x ∈ xs, seq ∈ sequences x
                  ∧ stops x seq (engine.scheduler.memory.sequences seq)) := by
  induction xs generalizing engine with
  | nil =>
    cases h
    exact ⟨fun _ => rfl, .inl⟩
  | cons x xs ih =>
    rw [List.foldlM_cons] at h
    rcases Except.bind_eq_ok.mp h with ⟨next, hnext, h⟩
    rcases hstep x List.mem_cons_self engine next hwrites hnext with ⟨hwritten, hsequences⟩
    rw [List.flatMap_cons, List.nodup_append'] at hnodup
    rcases hnodup with ⟨-, hnodup, hdisjoint⟩
    rcases ih (fun x hx => hstep x (List.mem_cons_of_mem _ hx)) hnodup hwritten h
      with ⟨hframe, hfinished⟩
    refine ⟨?_, ?_⟩
    . intro hnot
      rw [List.flatMap_cons, List.mem_append, not_or] at hnot
      rw [hframe hnot.2, (hsequences seq).1 hnot.1]
    . intro hafter
      rcases hfinished hafter with hbetween | ⟨x', hx', hseq, hstops⟩
      . rcases (hsequences seq).2 hbetween with hbefore | hstops
        . exact .inl hbefore
        . exact .inr ⟨x, List.mem_cons_self, hstops⟩
      . have hlater : seq ∉ sequences x := fun hx =>
          hdisjoint hx (List.mem_flatMap.mpr ⟨x', hx', hseq⟩)
        rw [(hsequences seq).1 hlater] at hstops
        exact .inr ⟨x', List.mem_cons_of_mem _ hx', hseq, hstops⟩

theorem isFinished_of_processOutput {created : SequenceRef → Nat} {entry : Entry}
    (h : engine.processOutput created entry.1 entry.2.1 entry.2.2 = .ok engine')
    (hwrites : base.Writes engine)
    (hnodup : entry.2.2.scheduledGroup.sequences.Nodup) (seq : SequenceRef)
    : (seq ∉ entry.2.2.scheduledGroup.sequences →
          engine'.scheduler.memory.sequences seq = engine.scheduler.memory.sequences seq)
        ∧ ((engine'.scheduler.memory.sequences seq).isFinished = true →
            (engine.scheduler.memory.sequences seq).isFinished = true
              ∨ seq ∈ entry.2.2.scheduledGroup.sequences
                ∧ base.EntryStops entry seq (engine.scheduler.memory.sequences seq)) := by
  rcases Except.bind_eq_ok.mp h with ⟨counted, hcount, hfold⟩
  have hrecount :
      (∃ numComputedTokens stage, counted.scheduler.memory.sequences seq
        = (engine.scheduler.memory.sequences seq).recount numComputedTokens stage)
      ∧ (seq ∉ entry.2.2.scheduledGroup.sequences →
          counted.scheduler.memory.sequences seq = engine.scheduler.memory.sequences seq) := by
    unfold updateNumComputedTokens at hcount
    split at hcount
    . next hrun =>
      cases hcount
      exact recount_of_forM hrun seq
    . cases hcount
  have hsequences := isFinished_of_foldlM base (fun seq => [seq])
    (fun _ => base.EntryStops entry) (by
      intro seq _ current next hwrites hnext
      split at hnext
      . cases hnext
      . next output hlookup =>
        refine ⟨hwrites.trans (writes_of_updateSequence hnext), ?_⟩
        intro other
        rcases isFinished_of_updateSequence hnext with ⟨hframe, hfinished⟩
        refine ⟨fun hnot => hframe other (by simpa using hnot), ?_⟩
        intro hafter
        by_cases heq : other = seq
        . subst heq
          rcases hfinished hafter with hbefore | ⟨hsample, hstops⟩
          . exact .inl hbefore
          . exact .inr ⟨List.mem_singleton_self _, hsample, output, hlookup,
              (hwrites.stops_iff _).mp hstops⟩
        . rw [hframe other heq] at hafter
          exact .inl hafter)
    (by simpa using hnodup) (hwrites.trans (writes_of_updateNumComputedTokens hcount)) hfold seq
  simp only [List.flatMap_singleton', List.mem_singleton] at hsequences
  refine ⟨fun hnot => (hsequences.1 hnot).trans (hrecount.2 hnot), ?_⟩
  intro hafter
  rcases hrecount.1 with ⟨numComputedTokens, stage, hcounted⟩
  rw [hcounted] at hsequences
  rcases hsequences.2 hafter with hbefore | ⟨_, hmem, rfl, hsample, output, hlookup, hstops⟩
  . exact .inl hbefore
  . exact .inr ⟨hmem, hsample, output, hlookup, hstops.of_recount⟩

theorem isFinished_of_batch {created : SequenceRef → Nat} {entries : List Entry}
    (hnodup : (entries.flatMap (·.2.2.scheduledGroup.sequences)).Nodup)
    (h : entries.foldlM
      (fun engine (output, metadata, scheduled) =>
        processOutput engine created output metadata scheduled) engine = .ok engine')
    {seq : SequenceRef} (hfinished : (engine'.scheduler.memory.sequences seq).isFinished = true)
    : (engine.scheduler.memory.sequences seq).isFinished = true
        ∨ ∃ entry ∈ entries, seq ∈ entry.2.2.scheduledGroup.sequences
            ∧ engine.EntryStops entry seq (engine.scheduler.memory.sequences seq) := by
  refine (isFinished_of_foldlM engine (fun entry => entry.2.2.scheduledGroup.sequences)
    engine.EntryStops ?_ hnodup (.refl engine) h seq).2 hfinished
  intro entry hentry current next hwrites hnext
  have hentryNodup := (List.nodup_flatMap.mp hnodup).1 entry hentry
  exact ⟨hwrites.trans (writes_of_processOutput hnext),
    isFinished_of_processOutput hnext hwrites hentryNodup⟩

theorem batch_sublist (engine : LlmEngine) (outputs : List SequenceGroupOutput)
    : ((engine.batch outputs).map (·.2.2)).Sublist
        engine.schedulerOutputs.scheduledSequenceGroups := by
  have houtputs := (List.map_snd_zip_sublist outputs (engine.sequenceGroupsMetadata.zip
    engine.schedulerOutputs.scheduledSequenceGroups)).map Prod.snd
  rw [List.map_map] at houtputs
  exact houtputs.trans (List.map_snd_zip_sublist _ _)

theorem nodup_batch (outputs : List SequenceGroupOutput)
    (h : (engine.schedulerOutputs.scheduledSequenceGroups.flatMap
      (·.scheduledGroup.sequences)).Nodup)
    : ((engine.batch outputs).flatMap (·.2.2.scheduledGroup.sequences)).Nodup := by
  have hsublist := (engine.batch_sublist outputs).flatMap
    fun scheduled => scheduled.scheduledGroup.sequences
  rw [List.flatMap_map] at hsublist
  exact hsublist.nodup h

/--
The groups that are answered after a batch was processed are those that its outputs finish.
-/
theorem finishes_of_processGeneratedOutputs {created : SequenceRef → Nat}
    {outputs : List SequenceGroupOutput} {requestOutputs : List GenerateRequestOutput}
    (h : engine.processGeneratedOutputs created outputs = .ok (requestOutputs, engine'))
    (hnodup : (engine.schedulerOutputs.scheduledSequenceGroups.flatMap
      (·.scheduledGroup.sequences)).Nodup)
    {output : GenerateRequestOutput} (houtput : output ∈ requestOutputs)
    : ∃ scheduled ∈ engine.schedulerOutputs.scheduledSequenceGroups,
        output.requestId = scheduled.scheduledGroup.requestId
          ∧ engine.Finishes outputs scheduled.scheduledGroup := by
  rcases processGeneratedOutputs_eq_ok h with ⟨updated, hfold, hwrites, rfl, houtputs⟩
  rcases Except.exists_of_mapM houtputs houtput with ⟨scheduled, hscheduled, hgroup⟩
  rcases List.mem_filter.mp hscheduled with ⟨hmem, hfinished⟩
  refine ⟨scheduled, ?_, ?_, ?_⟩
  . rcases hwrites with ⟨sequences, sent, rfl⟩
    exact hmem
  . rcases Except.bind_eq_ok.mp hgroup with ⟨_, -, hpure⟩
    cases hpure
    rfl
  . intro seq hseq
    exact isFinished_of_batch (nodup_batch outputs hnodup) hfold
      (List.all_eq_true.mp hfinished seq hseq)

end Finished

section Isolation

/--
The sequences that arrive with an event.
-/
def Event.sequences (event : Event) : List SequenceRef :=
  match event with
  | .request _ _ engineRequest => engineRequest.sequenceGroup.sequences
  | _ => []

def Event.isDisconnect (event : Event) : Bool :=
  match event with
  | .disconnect _ => true
  | _ => false

/--
The clients that the engine has something for at the event listen.
-/
def Listens (engine : LlmEngine) (event : Event) : Prop :=
  match event with
  | .response _ _ index (some outputs) =>
    (engine.responses[index]?).isSome = true → engine.Listening outputs
  | _ => True

/--
No sequence is in two of the groups that the engine holds, in two groups of the batch, or in a group
of the engine and one that arrives later.
-/
structure Distinct (later : List SequenceRef) (engine : LlmEngine) : Prop where
  queues : (engine.scheduler.groups.flatMap (·.sequences) ++ later).Nodup
  batch : (engine.schedulerOutputs.scheduledSequenceGroups.flatMap
    (·.scheduledGroup.sequences)).Nodup

variable {later : List SequenceRef} {event : Event} {called : LlmEngine}

theorem nodup_of_subperm {groups groups' : List SequenceGroup} (h : groups.Subperm groups')
    (hnodup : (groups'.flatMap (·.sequences) ++ later).Nodup)
    : (groups.flatMap (·.sequences) ++ later).Nodup := by
  rcases h with ⟨groups'', hperm, hsublist⟩
  have hsublist' := (hsublist.flatMap (·.sequences)).append_right later
  exact ((hperm.flatMap_right _).append_right later).nodup_iff.mp (hsublist'.nodup hnodup)

theorem Distinct.step {instants : Instants}
    (hqueues : (engine.scheduler.groups.flatMap (·.sequences) ++ later).Nodup)
    (h : engine.step instants = .ok engine') : Distinct later engine' := by
  rcases step_eq_ok h with ⟨metadata, outputs, scheduler, hschedule, -, houtputs, -, hengine'⟩
  have hscheduler : engine'.scheduler = scheduler := by rw [hengine']
  refine ⟨?_, ?_⟩
  . rw [hscheduler]
    exact nodup_of_subperm (Scheduler.groups_subperm_of_schedule hschedule) hqueues
  . rw [houtputs]
    have hbatch := nodup_of_subperm (Scheduler.scheduled_subperm_of_schedule hschedule) hqueues
    rw [Scheduler.groupsOf, List.flatMap_map] at hbatch
    exact (List.nodup_append.mp hbatch).1

theorem Distinct.addRequest (sequences : List Sequence) (request : EngineRequest)
    (h : Distinct (request.sequenceGroup.sequences ++ later) engine)
    : Distinct later
        ((engine.createSequences request.sequenceGroup sequences).addRequest request) := by
  have hqueues : (engine.scheduler.addSequenceGroup request.sequenceGroup).groups.flatMap
      (·.sequences) ++ later |>.Perm
        (engine.scheduler.groups.flatMap (·.sequences)
          ++ (request.sequenceGroup.sequences ++ later)) := by
    have hperm := (Scheduler.groups_addSequenceGroup_perm engine.scheduler
      request.sequenceGroup).flatMap_right (·.sequences)
    rw [List.flatMap_cons] at hperm
    have hcomm := hperm.trans List.perm_append_comm
    rw [← List.append_assoc]
    exact hcomm.append_right later
  cases request with
  | generateRequest group responseSender =>
    exact ⟨hqueues.nodup_iff.mpr h.queues, h.batch⟩
  | generateStreamingRequest group responseSender =>
    exact ⟨hqueues.nodup_iff.mpr h.queues, h.batch⟩

theorem Distinct.callsStep (h : Distinct (event.sequences ++ later) engine)
    (hcalls : engine.CallsStep event called)
    : (called.scheduler.groups.flatMap (·.sequences) ++ later).Nodup := by
  cases hcalls with
  | request instants sequences request => exact (h.addRequest sequences request).queues
  | outputs instants created index receiver outputs requestOutputs called hreceiver hprocess =>
    rcases processGeneratedOutputs_eq_ok hprocess with ⟨updated, -, ⟨sequences, sent, rfl⟩, rfl, -⟩
    have hremoved := (Scheduler.groups_removeFinishedSequences
      { engine.scheduler with memory.sequences := sequences }).subperm
    exact nodup_of_subperm hremoved h.queues
  | failure => exact h.queues

theorem Distinct.handle (h : Distinct (event.sequences ++ later) engine)
    (hhandle : engine.handle event = .ok engine') : Distinct later engine' := by
  rcases handle_cases hhandle with ⟨instants, called, stepped, _, _, -, hcalls, hstep, rfl⟩ | hwaits
  . have hstepped := Distinct.step (h.callsStep hcalls) hstep
    exact ⟨hstepped.queues, hstepped.batch⟩
  . cases hwaits with
    | request instants sequences request => exact h.addRequest sequences request
    | stray | disconnect => exact ⟨h.queues, h.batch⟩

theorem handleOutputs_without {instants : Instants} {created : SequenceRef → Nat}
    {outputs : Option (List SequenceGroupOutput)} (hnone : engine.disconnected = [])
    (hnodup : (engine.schedulerOutputs.scheduledSequenceGroups.flatMap
      (·.scheduledGroup.sequences)).Nodup)
    (hlistening : ∀ outputs' ∈ outputs, (engine.without channels).Listening outputs')
    : (engine.without channels).handleOutputs created instants outputs
        = (engine.handleOutputs created instants outputs).map (without channels) := by
  cases outputs with
  | none => exact step_without instants
  | some outputs =>
    have hlistening := hlistening outputs rfl
    unfold handleOutputs
    dsimp only
    rw [processGeneratedOutputs_without hnone hlistening.canStream]
    cases hprocess : engine.processGeneratedOutputs created outputs with
    | error e => rfl
    | ok result =>
      rcases result with ⟨requestOutputs, processed⟩
      simp only [Except.map, bind, Except.bind]
      rw [step_without]
      cases hstepped : processed.step instants with
      | error e => rfl
      | ok stepped =>
        rcases step_eq_ok hstepped with ⟨_, _, _, -, -, -, -, hengine⟩
        rcases processGeneratedOutputs_eq_ok hprocess with ⟨updated, -, ⟨_, _, rfl⟩, rfl, -⟩
        have hdisconnected : stepped.disconnected = [] := by
          rw [hengine]
          exact hnone
        have hsenders : stepped.responseSenders = engine.responseSenders := by rw [hengine]
        refine sendResponses_without hdisconnected ?_
        intro output houtput
        rcases finishes_of_processGeneratedOutputs hprocess hnodup houtput
          with ⟨scheduled, hscheduled, hid, hfinishes⟩
        rw [hid]
        intro channel hlookup
        change stepped.responseSenders.lookup _ = _ at hlookup
        rw [hsenders] at hlookup
        exact hlistening.canRespond scheduled hscheduled hfinishes channel hlookup

theorem handle_without (hnone : engine.disconnected = [])
    (hnodup : (engine.schedulerOutputs.scheduledSequenceGroups.flatMap
      (·.scheduledGroup.sequences)).Nodup)
    (hlistens : (engine.without channels).Listens event) (hevent : event.isDisconnect = false)
    : (engine.without channels).handle event
        = (engine.handle event).map (without channels) := by
  cases event with
  | request instants sequences request =>
    have hrequest : ((engine.without channels).createSequences request.sequenceGroup
        sequences).addRequest request
          = ((engine.createSequences request.sequenceGroup sequences).addRequest request).without
              channels := by
      cases request <;> rfl
    unfold handle handleRequest
    dsimp only
    rw [hrequest]
    change (if ((engine.createSequences request.sequenceGroup sequences).addRequest request).isIdle
      = true then _ else _) = _
    split
    . exact step_without instants
    . rfl
  | response instants created index outputs =>
    have hresponses : (engine.without channels).responses = engine.responses := rfl
    unfold handle
    dsimp only
    rw [hresponses]
    cases hresponse : engine.responses[index]? with
    | none => rfl
    | some receiver =>
      change ((engine.takeResponse index).without channels).handleOutputs created instants outputs
        = Except.map _ ((engine.takeResponse index).handleOutputs created instants outputs)
      refine handleOutputs_without hnone hnodup ?_
      rintro outputs rfl
      have hlistening := hlistens (Option.isSome_of_eq_some hresponse)
      exact ⟨hlistening.canStream, hlistening.canRespond⟩
  | disconnect channel => cases hevent

theorem handle_disconnected (hevent : event.isDisconnect = false)
    (h : engine.handle event = .ok engine') : engine'.disconnected = engine.disconnected := by
  rcases handle_cases h with ⟨instants, called, stepped, _, _, -, hcalls, hstep, rfl⟩ | hwaits
  . rcases step_eq_ok hstep with ⟨_, _, _, -, -, -, -, hstepped⟩
    dsimp only
    rw [hstepped]
    exact hcalls.keeps.2
  . cases hwaits with
    | request instants sequences request => cases request <;> rfl
    | stray => rfl
    | disconnect channel => cases hevent

/--
A run in which the clients may leave, as long as the engine never has something for a client that
has left, is the run in which they stay.
-/
theorem run_without (channels : List Channel) {initial baseline : LlmEngine} {events : List Event}
    (hnone : initial.disconnected = [])
    (hdistinct : Distinct (events.flatMap Event.sequences) initial)
    (hlistens : ∀ n engine event, (initial.without channels).run (events.take n) = .ok engine →
      events[n]? = some event → engine.Listens event)
    (h : initial.run (events.filter (!·.isDisconnect)) = .ok baseline)
    : ∃ channels', (initial.without channels).run events = .ok (baseline.without channels') := by
  induction events generalizing initial channels with
  | nil =>
    cases h
    exact ⟨channels, rfl⟩
  | cons event events ih =>
    have hevent := hlistens 0 _ event rfl rfl
    unfold run at *
    rw [List.foldlM_cons]
    cases hdisconnect : event.isDisconnect with
    | true =>
      cases event with
      | request instants sequences request => cases hdisconnect
      | response instants created index outputs => cases hdisconnect
      | disconnect channel =>
        have hleft := ih (channel :: channels) hnone hdistinct (by
          intro n engine event hrun hevent
          exact hlistens (n + 1) engine event hrun hevent) h
        exact hleft
    | false =>
      rw [List.filter_cons_of_pos (by simpa using hdisconnect), List.foldlM_cons] at h
      rcases Except.bind_eq_ok.mp h with ⟨next, hnext, h⟩
      have hwithout := handle_without hnone hdistinct.batch hevent hdisconnect
      rw [hnext] at hwithout
      rw [List.flatMap_cons] at hdistinct
      rw [hwithout]
      refine ih channels ((handle_disconnected hdisconnect hnext).trans hnone)
        (hdistinct.handle hnext) ?_ h
      intro n engine event' hrun hevent'
      refine hlistens (n + 1) engine event' ?_ hevent'
      rw [List.take_succ_cons, List.foldlM_cons, hwithout]
      exact hrun

/--
Clients may leave at any point of a run. As long as the engine has nothing for a client that has
left, it is at every point in the state of the run in which all clients stay.
-/
theorem run_eq_of_listens (config : SchedulerConfig) (blockSize numCpuBlocks numGpuBlocks : Nat)
    (slidingWindow : Option Nat) (heap : SequenceHeap) (now : Nat)
    (tokenizer : List Nat → Except String String) {events : List Event} {baseline : LlmEngine}
    (hdistinct : (events.flatMap Event.sequences).Nodup)
    (hlistens : ∀ n engine event,
      (LlmEngine.new (Scheduler.new config blockSize numCpuBlocks numGpuBlocks slidingWindow heap now)
        tokenizer).run (events.take n) = .ok engine →
      events[n]? = some event → engine.Listens event)
    (h : (LlmEngine.new
        (Scheduler.new config blockSize numCpuBlocks numGpuBlocks slidingWindow heap now)
        tokenizer).run (events.filter (!·.isDisconnect)) = .ok baseline)
    (n : Nat)
    : ∃ engine channels,
        (LlmEngine.new
            (Scheduler.new config blockSize numCpuBlocks numGpuBlocks slidingWindow heap now)
            tokenizer).run ((events.take n).filter (!·.isDisconnect)) = .ok engine
          ∧ (LlmEngine.new
              (Scheduler.new config blockSize numCpuBlocks numGpuBlocks slidingWindow heap now)
              tokenizer).run (events.take n) = .ok (engine.without channels) := by
  generalize hinitial : LlmEngine.new
    (Scheduler.new config blockSize numCpuBlocks numGpuBlocks slidingWindow heap now) tokenizer
      = initial at hlistens h ⊢
  have hprefix : ∃ engine, initial.run ((events.take n).filter (!·.isDisconnect)) = .ok engine := by
    rw [← List.take_append_drop n events, List.filter_append, run, List.foldlM_append] at h
    rcases Except.bind_eq_ok.mp h with ⟨engine, hengine, -⟩
    exact ⟨engine, hengine⟩
  rcases hprefix with ⟨engine, hengine⟩
  have hsublist := (List.take_sublist n events).flatMap Event.sequences
  have hstart : Distinct ((events.take n).flatMap Event.sequences) initial := by
    subst hinitial
    exact ⟨hsublist.nodup hdistinct, List.nodup_nil⟩
  have hnone : initial.disconnected = [] := by
    subst hinitial
    rfl
  have hwithout : initial.without [] = initial := by
    subst hinitial
    rfl
  rcases run_without [] hnone hstart (by
    rw [hwithout]
    intro m engine event hrun hevent
    rw [List.take_take] at hrun
    rw [List.getElem?_take] at hevent
    split at hevent
    . next hlt =>
      rw [Nat.min_eq_left hlt.le] at hrun
      exact hlistens m engine event hrun hevent
    . cases hevent) hengine with ⟨channels, hchannels⟩
  rw [hwithout] at hchannels
  exact ⟨engine, channels, hengine, hchannels⟩

/--
Two requests, and what the model executor returns for the first batch. The client of the first is
on channel 0, and it leaves while the batch is in flight.
-/
def twoRequests (sender : SequenceGroup → Channel → EngineRequest) : List Event :=
  [
    .request ⟨2, 2, fun _ => 2, 2⟩ [Scheduler.waitingSequence [5]]
      (sender (Scheduler.singleGroup "a" 0 0) 0),
    .request ⟨3, 3, fun _ => 3, 3⟩ [Scheduler.waitingSequence [6]]
      (.generateRequest (Scheduler.singleGroup "b" 1 1) 1),
    .disconnect 0,
    .response ⟨4, 4, fun _ => 4, 4⟩ (fun _ => 4) 0
      (some [⟨AList.insert 0 ⟨0, 7, AList.insert 7 ⟨0, none, none⟩ ∅, false⟩ ∅⟩])
  ]

/--
The first client waits for a single response, and its request is not finished by the batch.
-/
theorem run_eq_of_listens_two_requests
    : ∃ engine channels,
        (LlmEngine.new (Scheduler.new ⟨2, 2, 2, 0, false⟩ 1 4 4 none
            (fun _ => Scheduler.waitingSequence []) 0) fun _ => .ok "").run
              ((twoRequests .generateRequest).filter (!·.isDisconnect)) = .ok engine
          ∧ (LlmEngine.new (Scheduler.new ⟨2, 2, 2, 0, false⟩ 1 4 4 none
              (fun _ => Scheduler.waitingSequence []) 0) fun _ => .ok "").run
                (twoRequests .generateRequest) = .ok (engine.without channels) := by
  have hbaseline : ((LlmEngine.new (Scheduler.new ⟨2, 2, 2, 0, false⟩ 1 4 4 none
      (fun _ => Scheduler.waitingSequence []) 0) fun _ => .ok "").run
        ((twoRequests .generateRequest).filter (!·.isDisconnect))).toOption.any
          (fun engine => engine.responses.length = 1) = true := by
    decide +kernel
  rcases Except.exists_eq_ok_of_any hbaseline with ⟨baseline, hbaseline, -⟩
  refine run_eq_of_listens ⟨2, 2, 2, 0, false⟩ 1 4 4 none (fun _ => Scheduler.waitingSequence []) 0
    (fun _ => .ok "") (by decide) ?_ hbaseline 4
  have hlistens : ((LlmEngine.new (Scheduler.new ⟨2, 2, 2, 0, false⟩ 1 4 4 none
      (fun _ => Scheduler.waitingSequence []) 0) fun _ => .ok "").run
        ((twoRequests .generateRequest).take 3)).toOption.all (fun engine => engine.Listening
          [⟨AList.insert 0 ⟨0, 7, AList.insert 7 ⟨0, none, none⟩ ∅, false⟩ ∅⟩]) = true := by
    decide +kernel
  intro n engine event hrun hevent
  match n with
  | 0 | 1 | 2 =>
    cases hevent
    trivial
  | 3 =>
    cases hevent
    rw [hrun] at hlistens
    exact fun _ => of_decide_eq_true hlistens
  | n + 4 => cases hevent

/--
The first client streams. The token for it cannot be sent, and the engine stops.
-/
theorem run_error_of_disconnect
    : ((twoRequests .generateStreamingRequest).flatMap Event.sequences).Nodup
        ∧ (∃ baseline, (LlmEngine.new (Scheduler.new ⟨2, 2, 2, 0, false⟩ 1 4 4 none
            (fun _ => Scheduler.waitingSequence []) 0) fun _ => .ok "").run
              ((twoRequests .generateStreamingRequest).filter (!·.isDisconnect)) = .ok baseline)
        ∧ (LlmEngine.new (Scheduler.new ⟨2, 2, 2, 0, false⟩ 1 4 4 none
            (fun _ => Scheduler.waitingSequence []) 0) fun _ => .ok "").run
              (twoRequests .generateStreamingRequest)
            = .error (.flumeSendError "sending on a closed channel") := by
  have hbaseline : ((LlmEngine.new (Scheduler.new ⟨2, 2, 2, 0, false⟩ 1 4 4 none
      (fun _ => Scheduler.waitingSequence []) 0) fun _ => .ok "").run
        ((twoRequests .generateStreamingRequest).filter (!·.isDisconnect))).toOption.any
          (fun engine => engine.responses.length = 1) = true := by
    decide +kernel
  rcases Except.exists_eq_ok_of_any hbaseline with ⟨baseline, hbaseline, -⟩
  refine ⟨by decide, ⟨baseline, hbaseline⟩, ?_⟩
  refine Except.eq_error_of_eq_some ?_
  decide +kernel

end Isolation

end LlmEngine

end AtomaInfer
