import AtomaInfer.Engine.Coherence
import AtomaInfer.Engine.Sampled

/-!
The tokens of the sequences of a run, which are only added to, and what a batch computes without
chunked prefill: prompts of which nothing is computed yet, or decodes.
-/

namespace AtomaInfer

open Scheduler

namespace Trace

variable {accepts : Session.Accepts} {trace trace' called received : Trace} {instants : Instants}
variable {event : LlmEngine.Event} {session : Session}

/--
The tokens of the sequence with an identifier.
-/
def tokenIds (trace : Trace) (sequenceId : Nat) : List Nat :=
  match trace.refs.find? (·.sequenceId = sequenceId) with
  | some seq => (trace.engine.scheduler.memory.sequences seq).sequenceData.getTokenIds
  | none => []

theorem tokenIds_eq {seq : SequenceRef}
    (hsound : trace.engine.scheduler.memory.Sound trace.refs) (hseq : seq ∈ trace.refs)
    : trace.tokenIds seq.sequenceId
        = (trace.engine.scheduler.memory.sequences seq).sequenceData.getTokenIds := by
  unfold tokenIds
  cases hfind : trace.refs.find? (·.sequenceId = seq.sequenceId) with
  | none =>
    rw [List.find?_eq_none] at hfind
    exact absurd (decide_eq_true rfl) (hfind seq hseq)
  | some other =>
    have hfound := List.find?_some hfind
    have hid : other.sequenceId = seq.sequenceId := of_decide_eq_true hfound
    rw [hsound.eq_of_sequenceId_eq hseq (List.mem_of_find?_eq_some hfind) hid]

theorem isPrefix_tokenIds (hrefs : trace.refs <+: trace'.refs)
    (htokens : ∀ seq ∈ trace.refs,
      (trace.engine.scheduler.memory.sequences seq).sequenceData.getTokenIds
        <+: (trace'.engine.scheduler.memory.sequences seq).sequenceData.getTokenIds)
    (sequenceId : Nat) : trace.tokenIds sequenceId <+: trace'.tokenIds sequenceId := by
  rcases hrefs with ⟨later, hrefs⟩
  unfold tokenIds
  rw [← hrefs, List.find?_append]
  cases hfind : trace.refs.find? (·.sequenceId = sequenceId) with
  | none => exact List.nil_prefix
  | some seq => exact htokens seq (List.mem_of_find?_eq_some hfind)

theorem Receives.isPrefix_tokenIds (h : trace.Receives accepts instants event received)
    (sequenceId : Nat) : trace.tokenIds sequenceId <+: received.tokenIds sequenceId := by
  rcases h.exists_seq with ⟨seq, hrefs, hfresh, -, -, hframe, -⟩
  apply Trace.isPrefix_tokenIds
  . rw [hrefs]
    exact List.prefix_append _ _
  . intro other hother
    rw [hframe other fun heq => hfresh other hother (by rw [heq])]

/--
A sequence advances with the batch, or it stays as it is.
-/
theorem Processed.advances_or_eq {heap : SequenceHeap} (h : trace.Processed called heap)
    (hsimulates : trace.Simulates session) (hinv : session.Inv)
    (hpending : session.pending
      = some (trace.engine.sequenceGroupsMetadata, trace.engine.schedulerOutputs))
    (seq : SequenceRef)
    : (∃ scheduled metadata blockTable,
          Describes trace.engine.scheduler.memory
              trace.engine.scheduler.schedulerConfig.enableChunkedPrefill scheduled metadata seq
              blockTable
            ∧ (trace.engine.scheduler.memory.sequences seq).Advances scheduled.tokenChunkSize
                metadata.doSample trace.engine.scheduler.schedulerConfig.maxModelLen (heap seq))
        ∨ heap seq = trace.engine.scheduler.memory.sequences seq := by
  by_cases hin : ∃ entry ∈ trace.engine.schedulerOutputs.scheduledSequenceGroups.zip
      trace.engine.sequenceGroupsMetadata, seq ∈ entry.1.scheduledGroup.sequences
  . rcases hin with ⟨⟨scheduled, metadata⟩, hentry, hown⟩
    left
    rcases (List.forall₂_iff_zip.mp (hsimulates.describes hinv hpending)).2 hentry
      with ⟨seq', -, blockTable, hdesc⟩
    rcases h.advances _ hentry seq hown with ⟨output, hadvances⟩
    rw [hdesc.sequences_eq, List.mem_singleton] at hown
    subst hown
    exact ⟨scheduled, metadata, blockTable, hdesc, hadvances.toAdvances⟩
  . right
    apply h.frame
    intro entry hentry hown
    exact hin ⟨entry, hentry, hown⟩

theorem Processed.sequences_eq {heap : SequenceHeap} (h : trace.Processed called heap)
    : called.engine.scheduler.memory.sequences = heap := by
  rw [h.scheduler_eq]
  rfl

theorem Processed.refs_eq {heap : SequenceHeap} (h : trace.Processed called heap)
    : called.refs = trace.refs := by
  unfold refs
  rw [h.arrived_eq]

theorem Processed.isPrefix_tokenIds {heap : SequenceHeap} (h : trace.Processed called heap)
    (hsimulates : trace.Simulates session) (hinv : session.Inv)
    (hpending : session.pending
      = some (trace.engine.sequenceGroupsMetadata, trace.engine.schedulerOutputs))
    (sequenceId : Nat) : trace.tokenIds sequenceId <+: called.tokenIds sequenceId := by
  apply Trace.isPrefix_tokenIds
  . rw [h.refs_eq]
  . intro seq _
    rw [h.sequences_eq]
    rcases h.advances_or_eq hsimulates hinv hpending seq with ⟨_, _, _, -, hadvances⟩ | hsame
    . exact hadvances.isPrefix_getTokenIds
    . rw [hsame]

theorem Processes.pending_eq (h : trace.Processes instants event called)
    (hsimulates : trace.Simulates session)
    : session.pending
        = some (trace.engine.sequenceGroupsMetadata, trace.engine.schedulerOutputs) := by
  cases h with
  | intro _ _ _ _ _ _ hreceiver => exact hsimulates.pending_of_getElem? hreceiver

theorem Calls.isPrefix_tokenIds (h : trace.Calls accepts instants event called)
    (hsimulates : trace.Simulates session) (hinv : session.Inv) (sequenceId : Nat)
    : trace.tokenIds sequenceId <+: called.tokenIds sequenceId := by
  cases h with
  | request hreceives hidle => exact hreceives.isPrefix_tokenIds sequenceId
  | response hprocesses =>
    rcases hprocesses.processed hsimulates hinv with ⟨heap, hprocessed⟩
    exact hprocessed.isPrefix_tokenIds hsimulates hinv (hprocesses.pending_eq hsimulates) sequenceId

/--
What a call of `step` does to the sequences.
-/
theorem Between.reschedules {stepped : LlmEngine} (hbetween : trace.Between session)
    (hinv : session.Inv) (hstep : trace.engine.step instants = .ok stepped)
    : ∃ metadata outputs scheduler,
        trace.engine.scheduler.schedule instants = .ok (metadata, outputs, scheduler)
          ∧ Session.Reschedules instants outputs.scheduledSequenceGroups trace.engine.scheduler
              scheduler
          ∧ stepped.scheduler = scheduler
          ∧ stepped.sequenceGroupsMetadata = metadata := by
  rcases LlmEngine.step_eq_ok hstep
    with ⟨metadata, outputs, scheduler, hschedule, hmetadata, -, -, hstepped⟩
  have hreschedules := hinv.reschedules (hbetween.scheduler_eq ▸ hschedule)
  rw [hbetween.scheduler_eq] at hreschedules
  exact ⟨metadata, outputs, scheduler, hschedule, hreschedules, by rw [hstepped], hmetadata⟩

/--
The tokens of a sequence are only added to.
-/
theorem Step.isPrefix_tokenIds (h : Step accepts trace trace') (hsimulates : trace.Simulates session)
    (hinv : session.Inv) (sequenceId : Nat)
    : trace.tokenIds sequenceId <+: trace'.tokenIds sequenceId := by
  cases h with
  | wait hreceives hbusy => exact hreceives.isPrefix_tokenIds sequenceId
  | @schedule _ _ called engine hcalls hhandle =>
    rcases hcalls.exists_between hsimulates hinv with ⟨between, hsteps, hbetween, -⟩
    rcases hcalls.handle_eq hhandle with ⟨stepped, responseSenders, sent, hstep, hengine⟩
    rcases hbetween.reschedules (hsteps.inv hinv) hstep
      with ⟨_, _, scheduler, -, hreschedules, hscheduler, -⟩
    refine (hcalls.isPrefix_tokenIds hsimulates hinv sequenceId).trans ?_
    have hsequences : engine.scheduler = scheduler := by
      rw [hengine, hscheduler]
    apply Trace.isPrefix_tokenIds
    . exact List.prefix_refl _
    . intro seq _
      dsimp only
      rw [hsequences, (hreschedules.keepsTokens seq).getTokenIds_eq]
  | disconnect channel => exact List.prefix_refl _

/--
Of a sequence that is not decoded yet nothing is computed.
-/
def Starts (trace : Trace) : Prop :=
  ∀ seq ∈ trace.refs,
    (trace.engine.scheduler.memory.sequences seq).sequenceData.stage = .prefill →
      (trace.engine.scheduler.memory.sequences seq).sequenceData.numComputedTokens = 0

/--
The batch has prompts or decodes, and the prompts are computed as a whole.
-/
structure Whole (trace : Trace) : Prop where
  starts : trace.Starts
  unmixed : (∀ metadata ∈ trace.engine.sequenceGroupsMetadata, metadata.isPrompt = true)
    ∨ ∀ metadata ∈ trace.engine.sequenceGroupsMetadata, metadata.isPrompt = false

theorem Receives.starts (h : trace.Receives accepts instants event received) (hstarts : trace.Starts)
    : received.Starts := by
  rcases h.exists_seq with ⟨seq, hrefs, hfresh, -, -, hframe, promptTokenIds, hnew⟩
  intro other hother
  rw [hrefs, List.mem_append, List.mem_singleton] at hother
  rcases hother with hother | rfl
  . rw [hframe other fun heq => hfresh other hother (by rw [heq])]
    exact hstarts other hother
  . intro _
    rw [hnew]
    rfl

theorem Processed.starts {heap : SequenceHeap} (h : trace.Processed called heap)
    (hsimulates : trace.Simulates session) (hinv : session.Inv)
    (hpending : session.pending
      = some (trace.engine.sequenceGroupsMetadata, trace.engine.schedulerOutputs))
    (hpolicy : trace.engine.scheduler.schedulerConfig.enableChunkedPrefill = false)
    (hstarts : trace.Starts) : called.Starts := by
  intro seq hseq
  rw [h.refs_eq] at hseq
  rw [h.sequences_eq]
  rcases h.advances_or_eq hsimulates hinv hpending seq
    with ⟨scheduled, metadata, blockTable, hdesc, hadvances⟩ | hsame
  . -- the batch computes all that is left
    intro hstage
    have hfull : _ = (trace.engine.scheduler.memory.sequences seq).length := hdesc.chunk.2.2 hpolicy
    rw [hadvances.stage_eq, if_pos hfull] at hstage
    cases hstage
  . rw [hsame]
    exact hstarts seq hseq

section Run

variable {config : SchedulerConfig} {blockSize numCpuBlocks numGpuBlocks : Nat}
variable {slidingWindow : Option Nat} {heap : SequenceHeap} {now : Nat}
variable {tokenizer : List Nat → Except String String}

theorem schedulerConfig_of_visits
    (h : Visits accepts
      (LlmEngine.new
        (Scheduler.new config blockSize numCpuBlocks numGpuBlocks slidingWindow heap now) tokenizer)
      trace)
    : trace.engine.scheduler.schedulerConfig = config := by
  have hstart := Session.inv_start config blockSize numCpuBlocks numGpuBlocks slidingWindow heap now
  rcases h.exists_session hstart with ⟨session, hsteps, hscheduler, -⟩
  rw [← hscheduler, (hsteps.sameConfig hstart).1]
  rfl

theorem Starts.step {stepped engine : LlmEngine} {sampled : SequenceRef → Bool}
    {responseSenders : AList fun _ : String => Channel} {sent : List (Channel × Message)}
    (hstarts : trace.Starts) (hbetween : trace.Between session) (hinv : session.Inv)
    (hpolicy : trace.engine.scheduler.schedulerConfig.enableChunkedPrefill = false)
    (hstep : trace.engine.step instants = .ok stepped)
    (hengine : engine = { stepped with responseSenders, sent })
    : Whole { trace with engine, sampled } := by
  rcases hbetween.reschedules hinv hstep
    with ⟨metadata, outputs, scheduler, hschedule, hreschedules, hscheduler, hmetadata⟩
  subst hengine
  constructor
  . intro seq hseq
    dsimp only
    rw [hscheduler, hreschedules.resets seq]
    split
    . exact fun _ => rfl
    . exact hstarts seq hseq
  . rw [← hbetween.scheduler_eq] at hschedule
    have hunmixed := (hinv.ordersBatch hschedule).unmixed
    rw [hreschedules.schedulerConfig_eq] at hunmixed
    dsimp only
    rw [hmetadata]
    exact hunmixed hpolicy

theorem preserves_whole {δ : Type} {thread : ModelThread δ}
    (hpolicy : config.enableChunkedPrefill = false)
    : ThreadTrace.Preserves accepts thread
        (LlmEngine.new
          (Scheduler.new config blockSize numCpuBlocks numGpuBlocks slidingWindow heap now) tokenizer)
        (fun run => run.trace.Whole) (fun run => run.trace.Starts) := by
  constructor
  . intro run session instants sequences request received _ _ _ hreceives hwhole
    rcases hreceives.batch_eq with ⟨-, hmetadata, -⟩
    refine ⟨hreceives.starts hwhole.starts, ?_⟩
    dsimp only
    rw [hmetadata]
    exact hwhole.unmixed
  . exact fun _ hwhole => hwhole.starts
  . intro run session instants created index receiver outputs state called hreach hsimulates hinv
      hreceiver _ hprocesses hwhole
    rcases hprocesses.processed hsimulates hinv with ⟨heap', hprocessed⟩
    refine hprocessed.starts hsimulates hinv (hprocesses.pending_eq hsimulates) ?_ hwhole.starts
    rw [schedulerConfig_of_visits (.between hreach), hpolicy]
  . intro run session instants stepped next sampled responseSenders sent hvisits hbetween hinv hstep
      hnext hstarts
    refine hstarts.step hbetween hinv ?_ hstep hnext
    rw [schedulerConfig_of_visits hvisits, hpolicy]
  . exact fun _ hwhole => ⟨hwhole.starts, hwhole.unmixed⟩

theorem whole_of_reachable {δ : Type} {thread : ModelThread δ} {initial : δ} {run : ThreadTrace δ}
    (hpolicy : config.enableChunkedPrefill = false)
    (h : ThreadTrace.Reachable accepts thread
      (LlmEngine.new
        (Scheduler.new config blockSize numCpuBlocks numGpuBlocks slidingWindow heap now) tokenizer)
      initial run)
    : run.trace.Whole := by
  have hstart := Session.inv_start config blockSize numCpuBlocks numGpuBlocks slidingWindow heap now
  refine (preserves_whole hpolicy).between_of_reachable hstart ?_ h
  exact ⟨fun _ hseq => (nomatch hseq), .inl fun _ hmetadata => (nomatch hmetadata)⟩

end Run

end Trace

end AtomaInfer
