import AtomaInfer.Engine.Executed
import AtomaInfer.Worker.Input

/-!
The order of a batch, which the worker relies on.
-/

namespace AtomaInfer

namespace Scheduler

/--
The batch that `schedule` returns, with the scheduler after the call.
-/
structure OrdersBatch (scheduler : Scheduler) (scheduled : List ScheduledSequenceGroup)
    (metadata : List SequenceGroupMetadata) : Prop where
  promptsFirst : ∀ (i j : Nat) (prompt decode : SequenceGroupMetadata), metadata[i]? = some prompt →
    metadata[j]? = some decode → prompt.isPrompt = true → decode.isPrompt = false → i < j
  describes : List.Forall₂
    (fun scheduled metadata => ∃ seq blockTable,
      Describes scheduler.memory scheduler.schedulerConfig.enableChunkedPrefill scheduled metadata
        seq blockTable)
    scheduled metadata
  nodup : (metadata.flatMap (·.sequenceData.keys)).Nodup
  tables : ∀ entry ∈ metadata, ∀ sequenceId ∈ entry.sequenceData, sequenceId ∈ entry.blockTables
  single : ∀ entry ∈ metadata, entry.isPrompt = true → entry.sequenceData.keys.length = 1
  unmixed : scheduler.schedulerConfig.enableChunkedPrefill = false →
    (∀ entry ∈ metadata, entry.isPrompt = true) ∨ ∀ entry ∈ metadata, entry.isPrompt = false
  inputs : ∀ worker : ModelWorker, worker.blockSize = scheduler.memory.blockManager.blockSize →
    metadata ≠ [] →
      ∃ input, worker.prepareInputTensors metadata = .ok input
        ∧ input.inputTokens = metadata.flatMap (·.nextTokenIds)
        ∧ input.inputTokens.take input.attentionMetadata.numPrefillTokens
            = (metadata.filter (·.isPrompt)).flatMap (·.nextTokenIds)

variable {memory : Memory} {refs : List SequenceRef} {enableChunking : Bool}
variable {scheduled : ScheduledSequenceGroup} {metadata : SequenceGroupMetadata}
variable {seq : SequenceRef} {blockTable : BlockTable}

theorem Describes.fits (worker : ModelWorker) (hsound : memory.Sound refs) (hseq : seq ∈ refs)
    (h : Describes memory enableChunking scheduled metadata seq blockTable)
    (hsize : worker.blockSize = memory.blockManager.blockSize)
    : worker.Fits metadata seq.sequenceId (memory.sequences seq).sequenceData
        (blockTable.map (·.blockNumber)) := by
  rcases h.chunk with ⟨hpos, hchunk, -⟩
  have hplaces := Session.places_of_describes hsound hseq h
  have hle : 1 ≤ (memory.sequences seq).length := by
    change _ ≤ (memory.sequences seq).length at hchunk
    omega
  refine ⟨h.sequenceData_eq, h.blockTables_eq, ?_, ?_, ?_, ?_, ?_⟩
  . rw [h.tokenChunkSize_eq]
    exact hpos
  . rw [h.tokenChunkSize_eq]
    exact hchunk
  . intro hprompt
    rcases hsound.onDevice_of_running hseq h.status_eq with ⟨_, -, -, -, -, -, hdecode, -⟩
    apply hdecode
    have hstage := h.isPrompt_eq.symm.trans hprompt
    unfold Sequence.isPrefill at hstage
    cases hcase : (memory.sequences seq).sequenceData.stage with
    | prefill => simp [hcase] at hstage
    | decode => rfl
  . rw [hsize]
    exact hsound.blockSize_pos hseq hle
  . rw [hsize, List.length_map]
    exact hplaces

/--
The groups of a batch list different sequences.
-/
theorem nodup_keys_of_describes {memory : Memory} {refs : List SequenceRef} {enableChunking : Bool}
    {scheduled : List ScheduledSequenceGroup} {metadata : List SequenceGroupMetadata}
    (hsound : memory.Sound refs)
    (hdescribes : List.Forall₂ (fun scheduled metadata => ∃ seq ∈ refs, ∃ blockTable,
      Describes memory enableChunking scheduled metadata seq blockTable) scheduled metadata)
    (hnodup : (scheduled.flatMap (·.scheduledGroup.sequences)).Nodup)
    : (metadata.flatMap (·.sequenceData.keys)).Nodup := by
  have hmem : ∀ seq ∈ scheduled.flatMap (·.scheduledGroup.sequences), seq ∈ refs := by
    intro seq hseq
    rcases List.mem_flatMap.mp hseq with ⟨ready, hready, hseq⟩
    rcases hdescribes.exists_of_mem hready with ⟨_, -, seq', hseq', _, hdesc⟩
    rw [hdesc.sequences_eq, List.mem_singleton] at hseq
    rwa [hseq]
  have hkeys : metadata.flatMap (·.sequenceData.keys)
      = (scheduled.flatMap (·.scheduledGroup.sequences)).map (·.sequenceId) := by
    clear hmem hnodup
    induction hdescribes with
    | nil => rfl
    | cons hhead _ ih =>
      rcases hhead with ⟨seq, -, blockTable, hdesc⟩
      rw [List.flatMap_cons, List.flatMap_cons, List.map_append, ih, hdesc.sequences_eq,
        hdesc.sequenceData_eq]
      rfl
  rw [hkeys]
  apply hnodup.map_on
  intro seq hseq other hother hid
  exact hsound.eq_of_sequenceId_eq (hmem other hother) (hmem seq hseq) hid

end Scheduler

open Scheduler

/--
A list of prompts followed by a list of decodes.
-/
theorem lt_of_isPrompt {prompts decodes : List SequenceGroupMetadata}
    (hprompts : ∀ metadata ∈ prompts, metadata.isPrompt = true)
    (hdecodes : ∀ metadata ∈ decodes, metadata.isPrompt = false) {i j : Nat}
    {prompt decode : SequenceGroupMetadata} (hi : (prompts ++ decodes)[i]? = some prompt)
    (hj : (prompts ++ decodes)[j]? = some decode) (hprompt : prompt.isPrompt = true)
    (hdecode : decode.isPrompt = false) : i < j := by
  have hlt : i < prompts.length := by
    by_contra hge
    rw [List.getElem?_append_right (by omega)] at hi
    rw [hdecodes prompt (List.mem_of_getElem? hi)] at hprompt
    cases hprompt
  have hge : prompts.length ≤ j := by
    by_contra hlt
    rw [List.getElem?_append_left (by omega)] at hj
    rw [hprompts decode (List.mem_of_getElem? hj)] at hdecode
    cases hdecode
  omega

namespace Session

variable {session : Session} {instants : Instants} {metadata : List SequenceGroupMetadata}
variable {outputs : SchedulerOutputs} {scheduler : Scheduler}

theorem Inv.describes_of_schedule (hinv : session.Inv)
    (h : session.scheduler.schedule instants = .ok (metadata, outputs, scheduler))
    : scheduler.memory.Sound session.refs
        ∧ List.Forall₂
            (fun scheduled metadata => ∃ seq ∈ session.refs, ∃ blockTable,
              Describes scheduler.memory scheduler.schedulerConfig.enableChunkedPrefill scheduled
                metadata seq blockTable)
            outputs.scheduledSequenceGroups metadata := by
  -- whether a batch is being computed does not matter here
  have hidle : Inv { session with pending := none } :=
    ⟨hinv.ok, fun _ _ hsome => (nomatch hsome)⟩
  have hschedules : Schedules { session with pending := none } _ :=
    .intro instants metadata outputs scheduler rfl h
  have hnext := hschedules.inv hidle
  exact ⟨hnext.ok.sound, hnext.describes metadata outputs rfl⟩

theorem Inv.exists_prompts (hinv : session.Inv)
    (h : session.scheduler.schedule instants = .ok (metadata, outputs, scheduler))
    : ∃ prompts decodes, metadata = prompts ++ decodes
        ∧ (∀ entry ∈ prompts, entry.isPrompt = true)
        ∧ (∀ entry ∈ decodes, entry.isPrompt = false)
        ∧ (scheduler.schedulerConfig.enableChunkedPrefill = false → prompts = [] ∨ decodes = []) := by
  have hreschedules := hinv.reschedules h
  rcases hreschedules.ordered with ⟨prefills, decodes, hscheduled, hstaged, hunmixed⟩
  have hdescribes := (hinv.describes_of_schedule h).2.flip
  rw [hscheduled] at hdescribes
  have hprompts := List.forall₂_take_append _ _ _ hdescribes
  have hdecodes := List.forall₂_drop_append _ _ _ hdescribes
  have hisPrompt : ∀ {entry : SequenceGroupMetadata} {scheduled : ScheduledSequenceGroup},
      (∃ seq ∈ session.refs, ∃ blockTable,
        Describes scheduler.memory scheduler.schedulerConfig.enableChunkedPrefill scheduled entry seq
          blockTable) →
      entry.isPrompt = scheduled.scheduledGroup.isPrefill scheduler.memory.sequences := by
    rintro entry scheduled ⟨seq, -, blockTable, hdescribes⟩
    rw [hdescribes.isPrompt_eq]
    simp [SequenceGroup.isPrefill, hdescribes.sequences_eq]
  refine ⟨_, _, (List.take_append_drop prefills.length metadata).symm, ?_, ?_, ?_⟩
  . intro entry hentry
    rcases hprompts.exists_of_mem hentry with ⟨scheduled, hmem, hentry⟩
    rw [hisPrompt hentry]
    exact hstaged.prefills scheduled hmem
  . intro entry hentry
    rcases hdecodes.exists_of_mem hentry with ⟨scheduled, hmem, hentry⟩
    rw [hisPrompt hentry]
    exact hstaged.decodes scheduled hmem
  . intro hpolicy
    rw [hreschedules.schedulerConfig_eq] at hpolicy
    rcases hunmixed hpolicy with rfl | rfl
    . exact .inl rfl
    . right
      exact List.forall₂_nil_right_iff.mp hdecodes

theorem Inv.nodup_keys (hinv : session.Inv)
    (h : session.scheduler.schedule instants = .ok (metadata, outputs, scheduler))
    : (metadata.flatMap (·.sequenceData.keys)).Nodup := by
  rcases hinv.describes_of_schedule h with ⟨hsound, hdescribes⟩
  exact nodup_keys_of_describes hsound hdescribes (hinv.reschedules h).nodup

theorem Inv.ordersBatch (hinv : session.Inv)
    (h : session.scheduler.schedule instants = .ok (metadata, outputs, scheduler))
    : scheduler.OrdersBatch outputs.scheduledSequenceGroups metadata := by
  rcases hinv.describes_of_schedule h with ⟨hsound, hdescribes⟩
  have hnodup := hinv.nodup_keys h
  rcases hinv.exists_prompts h with ⟨prompts, decodes, rfl, hprompts, hdecodes, hunmixed⟩
  have hentries : ∀ entry ∈ prompts ++ decodes, ∃ scheduled, ∃ seq ∈ session.refs, ∃ blockTable,
      Describes scheduler.memory scheduler.schedulerConfig.enableChunkedPrefill scheduled entry seq
        blockTable := by
    intro entry hentry
    rcases hdescribes.flip.exists_of_mem hentry with ⟨scheduled, -, hdesc⟩
    exact ⟨scheduled, hdesc⟩
  refine ⟨?_, ?_, hnodup, ?_, ?_, ?_, ?_⟩
  . intro i j prompt decode hi hj
    exact lt_of_isPrompt hprompts hdecodes hi hj
  . refine hdescribes.imp ?_
    rintro scheduled metadata ⟨seq, -, hdesc⟩
    exact ⟨seq, hdesc⟩
  . intro entry hentry sequenceId hid
    rcases hentries entry hentry with ⟨scheduled, seq, -, blockTable, hdesc⟩
    rw [hdesc.sequenceData_eq, AList.mem_insert] at hid
    rw [hdesc.blockTables_eq, AList.mem_insert]
    exact hid
  . intro entry hentry _
    rcases hentries entry hentry with ⟨scheduled, seq, -, blockTable, hdesc⟩
    rw [hdesc.sequenceData_eq]
    rfl
  . intro hpolicy
    rcases hunmixed hpolicy with rfl | rfl
    . exact .inr (by simpa using hdecodes)
    . exact .inl (by simpa using hprompts)
  . intro worker hsize hne
    rw [filter_isPrompt_eq hprompts hdecodes]
    refine ModelWorker.prepareInputTensors_eq ?_ hprompts hdecodes hne
    intro entry hentry
    rcases hentries entry hentry with ⟨scheduled, seq, hseq, blockTable, hdesc⟩
    exact ⟨_, _, _, hdesc.fits worker hsound hseq hsize⟩

end Session

namespace Trace

variable {accepts : Session.Accepts} {state : Trace} {schedulerConfig : SchedulerConfig}
variable {blockSize numCpuBlocks numGpuBlocks : Nat} {slidingWindow : Option Nat}
variable {heap : SequenceHeap} {now : Nat} {tokenizer : List Nat → Except String String}

/--
In every state of a run, the batch that `schedule` returns is in order. The block size of the
scheduler is the one that it was created with.
-/
theorem ordersBatch_of_visits
    (h : Visits accepts
      (LlmEngine.new
        (Scheduler.new schedulerConfig blockSize numCpuBlocks numGpuBlocks slidingWindow heap now)
        tokenizer)
      state)
    {instants : Instants} {metadata : List SequenceGroupMetadata} {outputs : SchedulerOutputs}
    {scheduler : Scheduler}
    (hschedule : state.engine.scheduler.schedule instants = .ok (metadata, outputs, scheduler))
    : scheduler.OrdersBatch outputs.scheduledSequenceGroups metadata
        ∧ scheduler.memory.blockManager.blockSize = blockSize := by
  have hstart := Session.inv_start schedulerConfig blockSize numCpuBlocks numGpuBlocks slidingWindow
    heap now
  rcases h.exists_session hstart with ⟨session, hsteps, hscheduler, -⟩
  have hinv := hsteps.inv hstart
  rw [← hscheduler] at hschedule
  refine ⟨hinv.ordersBatch hschedule, ?_⟩
  rw [(hinv.reschedules hschedule).sameConfig.blockSize_eq, (hsteps.sameConfig hstart).2.blockSize_eq]
  rfl

/--
A prompt arrives while the batch of another one is out: the next batch has a prompt and a decode.
-/
theorem ordersBatch_of_visits_mixed
    : ∃ (state : Trace) (metadata : List SequenceGroupMetadata) (outputs : SchedulerOutputs)
        (scheduler : Scheduler),
        Visits (fun _ _ _ => True)
            (LlmEngine.new
              (Scheduler.new ⟨4, 2, 8, 0, true⟩ 1 4 8 none (fun _ => waitingSequence []) 0)
              (fun _ => .ok ""))
            state
          ∧ state.engine.scheduler.schedule ⟨2, 2, fun _ => 2, 2⟩ = .ok (metadata, outputs, scheduler)
          ∧ metadata.map (·.isPrompt) = [true, false]
          ∧ scheduler.OrdersBatch outputs.scheduledSequenceGroups metadata
          ∧ scheduler.memory.blockManager.blockSize = 1 := by
  let inputs : List Input := [.prompt "a" 0 [5], .prompt "b" 1 [6, 7]]
  have hrun : (stepping
      (Scheduler.new ⟨4, 2, 8, 0, true⟩ 1 4 8 none (fun _ => waitingSequence []) 0)
      (fun _ => .ok "") inputs (.token 9)).any (fun state =>
        (state.engine.scheduler.schedule ⟨2, 2, fun _ => 2, 2⟩).toOption.any fun result =>
          result.1.map (·.isPrompt) = [true, false]) = true := by
    decide +kernel
  rcases (Option.any_eq_true _ _).mp hrun with ⟨state, hstate, hrun⟩
  rcases Except.exists_eq_ok_of_any hrun with ⟨⟨metadata, outputs, scheduler⟩, hok, hprompts⟩
  have haccepts : ∀ input : Input, input.Accepted fun _ _ _ => True := by
    intro input
    cases input with
    | prompt _ _ _ => exact fun _ => trivial
    | token _ => trivial
  have hvisits := visits_of_stepping (fun input _ => haccepts input) (haccepts _) hstate
  exact ⟨state, metadata, outputs, scheduler, hvisits, hok, of_decide_eq_true hprompts,
    ordersBatch_of_visits hvisits hok⟩

end Trace

end AtomaInfer
