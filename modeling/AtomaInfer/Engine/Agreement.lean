import AtomaInfer.Engine.Order

/-!
In the runs in which every batch is executed, the number of computed tokens, the stage and the
tokens of a sequence agree.
-/

namespace AtomaInfer

open Scheduler

namespace Trace

/--
A group that arrives has a prompt and asks for a token.
-/
def admissible : Session.Accepts :=
  fun _ group sequence => 1 ≤ sequence.length ∧ 1 ≤ group.stoppingCriteria.maxNewTokens

/--
An unfinished sequence of `group`, for which a token was `sampled` since it was last reset.
-/
structure Tracks (maxModelLen : Nat) (sampled : Bool) (group : SequenceGroup) (sequence : Sequence)
    : Prop where
  decode_iff : sequence.sequenceData.stage = .decode ↔ sampled = true
  outputLen_lt : sequence.getOutputLen < group.stoppingCriteria.maxNewTokens
  length_le : sequence.getOutputLen ≠ 0 → sequence.length ≤ maxModelLen

structure Tracked (trace : Trace) : Prop where
  tracks : ∀ group ∈ trace.arrived, ∀ seq ∈ group.sequences,
    (trace.engine.scheduler.memory.sequences seq).isFinished = false →
      Tracks trace.engine.scheduler.schedulerConfig.maxModelLen (trace.sampled seq) group
        (trace.engine.scheduler.memory.sequences seq)
  held : ∀ group ∈ trace.engine.scheduler.config.held, group ∈ trace.arrived

/--
The groups of the batch have arrived.
-/
def BatchArrived (trace : Trace) : Prop :=
  ∀ scheduled ∈ trace.engine.schedulerOutputs.scheduledSequenceGroups,
    scheduled.scheduledGroup ∈ trace.arrived

variable {trace trace' called : Trace} {instants : Instants} {event : LlmEngine.Event}
variable {session : Session}

theorem Receives.tracked {received : Trace} (h : trace.Receives admissible instants event received)
    (htracked : trace.Tracked) : received.Tracked := by
  cases h with
  | intro request seq sequence prompt promptTokenIds returnFullText hgroup hfresh hnew haccepts =>
    have hsequences : ((trace.engine.createSequences request.sequenceGroup [sequence]).addRequest
        request).scheduler.memory.sequences
          = Function.update trace.engine.scheduler.memory.sequences seq sequence := by
      cases request <;>
        simp [LlmEngine.addRequest, LlmEngine.createSequences, addSequenceGroup,
          EngineRequest.sequenceGroup] at hgroup ⊢ <;>
        simp [hgroup]
    have hconfig : ((trace.engine.createSequences request.sequenceGroup [sequence]).addRequest
        request).scheduler.schedulerConfig = trace.engine.scheduler.schedulerConfig := by
      cases request <;> rfl
    constructor
    . intro group hgroup' seq' hseq'
      dsimp only at hgroup' ⊢
      rw [hsequences, hconfig]
      rcases List.mem_append.mp hgroup' with harrived | hnewest
      . have hne : seq' ≠ seq := fun heq => hfresh group harrived seq' hseq' (by rw [heq])
        rw [Function.update_of_ne hne, Function.update_of_ne hne]
        exact htracked.tracks group harrived seq' hseq'
      . rw [List.mem_singleton] at hnewest
        subst hnewest
        rw [hgroup, List.mem_singleton] at hseq'
        subst hseq'
        rw [Function.update_self, Function.update_self]
        intro _
        have hdata := (Sequence.of_new hnew).2.1
        refine ⟨?_, ?_, ?_⟩
        . rw [hdata]
          simp [SequenceData.new]
        . unfold Sequence.getOutputLen
          rw [hdata]
          exact haccepts.2
        . unfold Sequence.getOutputLen
          rw [hdata]
          exact fun hne => absurd rfl hne
    . intro group hheld
      dsimp only at hheld ⊢
      rw [List.mem_append, List.mem_singleton]
      have hmem : group ∈ trace.engine.scheduler.config.held ∨ group = request.sequenceGroup := by
        cases request <;>
          simp [LlmEngine.addRequest, LlmEngine.createSequences, addSequenceGroup, Config.held,
            Scheduler.config, EngineRequest.sequenceGroup] at hheld ⊢ <;>
          tauto
      rcases hmem with hold | rfl
      . exact .inl (htracked.held group hold)
      . exact .inr rfl

/--
The entry of the batch that `seq` is in, if there is one.
-/
theorem mark_eq_of_mem {sampled : SequenceRef → Bool} {scheduled : List ScheduledSequenceGroup}
    {metadata : List SequenceGroupMetadata} (hlength : scheduled.length = metadata.length)
    (hnodup : (scheduled.flatMap (·.scheduledGroup.sequences)).Nodup)
    {entry : ScheduledSequenceGroup × SequenceGroupMetadata} (hentry : entry ∈ scheduled.zip metadata)
    {seq : SequenceRef} (hseq : seq ∈ entry.1.scheduledGroup.sequences)
    : mark sampled scheduled metadata seq = (sampled seq || entry.2.doSample) := by
  have hzip : ((scheduled.zip metadata).flatMap (·.1.scheduledGroup.sequences)).Nodup := by
    rw [← List.map_fst_zip hlength.le, List.flatMap_map] at hnodup
    exact hnodup
  unfold mark
  congr 1
  rw [Bool.eq_iff_iff, List.any_eq_true]
  constructor
  . rintro ⟨other, hother, hsample⟩
    simp only [Bool.and_eq_true, decide_eq_true_eq] at hsample
    rw [List.eq_of_nodup_flatMap hzip hentry hother hseq hsample.2]
    exact hsample.1
  . intro hsample
    exact ⟨entry, hentry, by simp [hsample, hseq]⟩

theorem mark_eq_of_notMem {sampled : SequenceRef → Bool} {scheduled : List ScheduledSequenceGroup}
    {metadata : List SequenceGroupMetadata} {seq : SequenceRef}
    (h : ∀ entry ∈ scheduled.zip metadata, seq ∉ entry.1.scheduledGroup.sequences)
    : mark sampled scheduled metadata seq = sampled seq := by
  unfold mark
  have hnone : ((scheduled.zip metadata).any fun entry =>
      entry.2.doSample && decide (seq ∈ entry.1.scheduledGroup.sequences)) = false := by
    rw [List.any_eq_false]
    intro entry hentry
    simp [h entry hentry]
  rw [hnone, Bool.or_false]

theorem Tracks.advances {memory : Memory} {enableChunking : Bool}
    {scheduled : ScheduledSequenceGroup} {metadata : SequenceGroupMetadata} {seq : SequenceRef}
    {blockTable : BlockTable} {maxModelLen : Nat} {sampled : Bool} {output : SequenceOutput}
    {heap : SequenceHeap}
    (hdescribes : Describes memory enableChunking scheduled metadata seq blockTable)
    (hadvances : LlmEngine.Advances maxModelLen scheduled.scheduledGroup.stoppingCriteria
      scheduled.tokenChunkSize metadata.doSample output (memory.sequences seq) (heap seq))
    (hunfinished : (heap seq).isFinished = false)
    (h : Tracks maxModelLen sampled scheduled.scheduledGroup (memory.sequences seq))
    : Tracks maxModelLen (sampled || metadata.doSample) scheduled.scheduledGroup (heap seq) := by
  have hstage := hadvances.stage_eq
  have hlength := Session.length_of_advances hadvances.toAdvances
  cases hsample : metadata.doSample with
  | true =>
    have hfull := hdescribes.doSample_eq
    rw [hsample, eq_comm, decide_eq_true_eq] at hfull
    rw [if_pos hfull] at hstage
    refine ⟨by simp [hstage], ?_, ?_⟩
    . by_contra hge
      have hfinished := hadvances.limited hsample (by omega)
      rw [hunfinished] at hfinished
      cases hfinished
    . intro _
      by_contra hgt
      have hfinished := hadvances.capped hsample (by omega)
      rw [hunfinished] at hfinished
      cases hfinished
  | false =>
    have hpart := hdescribes.doSample_eq
    rw [hsample, eq_comm, decide_eq_false_iff_not] at hpart
    rw [if_neg hpart] at hstage
    rw [hsample, if_neg (by simp), Nat.add_zero] at hlength
    have hsame : (heap seq).getOutputLen = (memory.sequences seq).getOutputLen := by
      unfold Sequence.getOutputLen SequenceData.getOutputLen
      rw [(hadvances.keep hsample).1]
    refine ⟨?_, ?_, ?_⟩
    . rw [hstage, Bool.or_false]
      exact h.decode_iff
    . rw [hsame]
      exact h.outputLen_lt
    . rw [hsame, hlength]
      exact h.length_le

theorem Processed.tracked {heap : SequenceHeap} (h : trace.Processed called heap)
    (hsimulates : trace.Simulates session) (hinv : session.Inv)
    (hpending : session.pending
      = some (trace.engine.sequenceGroupsMetadata, trace.engine.schedulerOutputs))
    (htracked : trace.Tracked) (hbatch : trace.BatchArrived) : called.Tracked := by
  have hdescribes := hinv.describes _ _ hpending
  rw [hsimulates.scheduler_eq, List.forall₂_iff_zip] at hdescribes
  have hrefs : (trace.arrived.flatMap (·.sequences)).Nodup := by
    rw [← hsimulates.arrived_eq]
    exact hinv.ok.sound.nodup.of_map
  have hscheduler := h.scheduler_eq
  constructor
  . intro group hgroup seq hseq hunfinished
    rw [h.arrived_eq] at hgroup
    rw [hscheduler] at hunfinished ⊢
    rw [h.sampled_eq]
    change (heap seq).isFinished = false at hunfinished
    change Tracks trace.engine.scheduler.schedulerConfig.maxModelLen _ group (heap seq)
    by_cases hin : ∃ entry ∈ trace.engine.schedulerOutputs.scheduledSequenceGroups.zip
        trace.engine.sequenceGroupsMetadata, seq ∈ entry.1.scheduledGroup.sequences
    . rcases hin with ⟨entry, hentry, hmem⟩
      rcases hdescribes.2 hentry with ⟨seq', -, blockTable, hdesc⟩
      have hseq' := hmem
      rw [hdesc.sequences_eq, List.mem_singleton] at hseq'
      subst hseq'
      have hsame : group = entry.1.scheduledGroup :=
        List.eq_of_nodup_flatMap hrefs hgroup (hbatch entry.1 (List.of_mem_zip hentry).1) hseq hmem
      rcases h.advances entry hentry seq hmem with ⟨output, hadvances⟩
      rw [mark_eq_of_mem hdescribes.1 hsimulates.nodup hentry hmem, hsame]
      refine Tracks.advances hdesc hadvances hunfinished ?_
      rw [← hsame]
      apply htracked.tracks group hgroup seq hseq
      have hstatus := hdesc.status_eq
      unfold Sequence.isFinished
      rw [hstatus]
      rfl
    . push Not at hin
      rw [h.frame seq hin] at hunfinished ⊢
      rw [mark_eq_of_notMem hin]
      exact htracked.tracks group hgroup seq hseq hunfinished
  . intro group hheld
    rw [h.arrived_eq]
    rw [hscheduler] at hheld
    apply htracked.held
    simp only [Config.held, Scheduler.config, removeFinishedSequences, Multiset.mem_add,
      Multiset.mem_coe, List.mem_filter] at hheld ⊢
    tauto

theorem Calls.tracked (h : trace.Calls admissible instants event called)
    (hsimulates : trace.Simulates session) (hinv : session.Inv) (htracked : trace.Tracked)
    (hbatch : trace.BatchArrived) : called.Tracked := by
  cases h with
  | request hreceives hidle => exact hreceives.tracked htracked
  | response hprocesses =>
    rcases hprocesses.processed hsimulates hinv with ⟨heap, hprocessed⟩
    have hpending : session.pending
        = some (trace.engine.sequenceGroupsMetadata, trace.engine.schedulerOutputs) := by
      cases hprocesses with
      | intro _ _ _ _ _ _ hreceiver => exact hsimulates.pending_of_getElem? hreceiver
    exact hprocessed.tracked hsimulates hinv hpending htracked hbatch

/--
A sequence that is reset starts anew; the others stay as they are.
-/
theorem Tracks.reschedules {maxModelLen : Nat} {sampled : SequenceRef → Bool}
    {group : SequenceGroup} {seq : SequenceRef} {scheduled : List ScheduledSequenceGroup}
    {scheduler scheduler' : Scheduler}
    (hreschedules : Session.Reschedules instants scheduled scheduler scheduler')
    (h : Tracks maxModelLen (sampled seq) group (scheduler.memory.sequences seq))
    : Tracks maxModelLen (reset sampled (scheduler.recomputed instants) seq) group
        (scheduler'.memory.sequences seq) := by
  have hdata := hreschedules.resets seq
  have hlen : (scheduler'.memory.sequences seq).getOutputLen
      = (scheduler.memory.sequences seq).getOutputLen
        ∧ (scheduler'.memory.sequences seq).length = (scheduler.memory.sequences seq).length := by
    unfold Sequence.getOutputLen Sequence.length
    rw [hdata]
    split <;> exact ⟨rfl, rfl⟩
  rcases h with ⟨hdecode, houtput, hlength⟩
  rw [← hlen.1] at houtput hlength
  rw [← hlen.2] at hlength
  refine ⟨?_, houtput, hlength⟩
  unfold reset
  by_cases hmem : ∃ group ∈ scheduler.recomputed instants, seq ∈ group.sequences
  . have hany : ((scheduler.recomputed instants).any fun group => decide (seq ∈ group.sequences))
        = true := by
      simpa using hmem
    rw [if_pos (by simpa using hmem)] at hdata
    rw [hdata, hany]
    simp [SequenceData.resetStateForRecompute]
  . have hany : ((scheduler.recomputed instants).any fun group => decide (seq ∈ group.sequences))
        = false := by
      simpa using hmem
    rw [if_neg (by simpa using hmem)] at hdata
    rw [hdata, hany, Bool.not_false, Bool.and_true]
    exact hdecode

theorem Tracked.step {engine : LlmEngine} {stepped : LlmEngine}
    {responseSenders : AList fun _ : String => Channel} {sent : List (Channel × Message)}
    (h : called.Tracked) (hbetween : called.Between session) (hinv : session.Inv)
    (hstep : called.engine.step instants = .ok stepped)
    (hengine : engine = { stepped with responseSenders, sent })
    : Tracked {
          called with
          engine
          sampled := reset called.sampled (called.engine.scheduler.recomputed instants) }
        ∧ BatchArrived {
            called with
            engine
            sampled := reset called.sampled (called.engine.scheduler.recomputed instants) } := by
  rcases LlmEngine.step_eq_ok hstep
    with ⟨metadata, outputs, scheduler, hschedule, -, houtputs, -, hstepped⟩
  have hreschedules := hinv.reschedules (hbetween.scheduler_eq ▸ hschedule)
  rw [hbetween.scheduler_eq] at hreschedules
  have hscheduler : engine.scheduler = scheduler := by
    rw [hengine, hstepped]
  refine ⟨⟨?_, ?_⟩, ?_⟩
  . intro group hgroup seq hseq hunfinished
    dsimp only at hunfinished ⊢
    rw [hscheduler] at hunfinished ⊢
    rw [hreschedules.schedulerConfig_eq]
    refine Tracks.reschedules hreschedules (h.tracks group hgroup seq hseq ?_)
    -- a sequence that was finished before is finished now
    cases hfinished : (called.engine.scheduler.memory.sequences seq).isFinished with
    | false => rfl
    | true =>
      rw [hreschedules.sequences_of_isFinished seq hfinished] at hunfinished
      rw [hunfinished] at hfinished
      cases hfinished
  . intro group hheld
    dsimp only at hheld
    rw [hscheduler] at hheld
    exact h.held group (Multiset.mem_of_le hreschedules.held_le hheld)
  . intro scheduled hscheduled
    dsimp only at hscheduled
    rw [hengine] at hscheduled
    dsimp only at hscheduled
    rw [houtputs] at hscheduled
    exact h.held _ (hreschedules.groups scheduled hscheduled)

theorem Step.tracked (h : Step admissible trace trace') (hsimulates : trace.Simulates session)
    (hinv : session.Inv) (htracked : trace.Tracked) (hbatch : trace.BatchArrived)
    : trace'.Tracked ∧ trace'.BatchArrived := by
  cases h with
  | wait hreceives hbusy =>
    refine ⟨hreceives.tracked htracked, ?_⟩
    intro scheduled hscheduled
    cases hreceives with
    | intro request =>
      apply List.mem_append_left
      apply hbatch
      cases request <;> exact hscheduled
  | schedule hcalls hhandle =>
    rcases hcalls.exists_between hsimulates hinv with ⟨between, hsteps, hbetween, -⟩
    rcases hcalls.handle_eq hhandle with ⟨stepped, responseSenders, sent, hstep, hengine⟩
    exact (hcalls.tracked hsimulates hinv htracked hbatch).step hbetween (hsteps.inv hinv) hstep
      hengine
  | disconnect channel => exact ⟨⟨htracked.tracks, htracked.held⟩, hbatch⟩

theorem tracked_of_reachable {scheduler : Scheduler} {tokenizer : List Nat → Except String String}
    (hinv : (Session.start scheduler).Inv) (hheld : scheduler.config.held = 0)
    (h : Reachable admissible (LlmEngine.new scheduler tokenizer) trace)
    : trace.Tracked ∧ trace.BatchArrived := by
  induction h with
  | refl =>
    refine ⟨⟨fun _ hgroup => (nomatch hgroup), ?_⟩, fun _ hscheduled => (nomatch hscheduled)⟩
    intro group hgroup
    have hgroup : group ∈ scheduler.config.held := hgroup
    rw [hheld] at hgroup
    exact absurd hgroup (Multiset.notMem_zero _)
  | tail hreach hstep ih =>
    rcases simulates_of_reachable hinv hreach with ⟨session, hsteps, hsimulates⟩
    exact hstep.tracked hsimulates (hsteps.inv hinv) ih.1 ih.2

/--
An unfinished sequence of `group`: its counter, its stage and its length.
-/
structure Agrees (maxModelLen : Nat) (sampled : Bool) (group : SequenceGroup) (sequence : Sequence)
    : Prop extends Tracks maxModelLen sampled group sequence where
  computed_le : sequence.sequenceData.numComputedTokens ≤ sequence.length
  computed_eq : sequence.sequenceData.stage = .decode →
    sequence.sequenceData.numComputedTokens = sequence.length - 1

/--
A group of the batch, with the scheduler after the call: it is sampled if and only if nothing is left
to compute, and the worker continues where the computed tokens end.
-/
structure SamplesLast (scheduler : Scheduler) (scheduled : ScheduledSequenceGroup)
    (metadata : SequenceGroupMetadata) (seq : SequenceRef) : Prop where
  sequences_eq : scheduled.scheduledGroup.sequences = [seq]
  sequenceData_eq : metadata.sequenceData
    = AList.insert seq.sequenceId (scheduler.memory.sequences seq).sequenceData ∅
  doSample_iff : metadata.doSample = true ↔
    (scheduler.memory.sequences seq).sequenceData.numComputedTokens + scheduled.tokenChunkSize
      = (scheduler.memory.sequences seq).length
  contextLength_eq : ModelWorker.contextLength metadata.isPrompt
      (scheduler.memory.sequences seq).sequenceData
    = .ok (scheduler.memory.sequences seq).sequenceData.numComputedTokens

variable {schedulerConfig : SchedulerConfig} {blockSize numCpuBlocks numGpuBlocks : Nat}
variable {slidingWindow : Option Nat} {heap : SequenceHeap} {now : Nat}
variable {tokenizer : List Nat → Except String String} {state : Trace}

theorem Visits.tracked {scheduler : Scheduler} (hinv : (Session.start scheduler).Inv)
    (hheld : scheduler.config.held = 0)
    (h : Visits admissible (LlmEngine.new scheduler tokenizer) state) : state.Tracked := by
  cases h with
  | between h => exact (tracked_of_reachable hinv hheld h).1
  | calls h hcalls =>
    rcases simulates_of_reachable hinv h with ⟨session, hsteps, hsimulates⟩
    rcases tracked_of_reachable hinv hheld h with ⟨htracked, hbatch⟩
    exact hcalls.tracked hsimulates (hsteps.inv hinv) htracked hbatch

theorem computed_of_fits {memory : Memory} {seq : SequenceRef} {blockTable : BlockTable}
    (h : memory.Fits seq blockTable)
    : (memory.sequences seq).sequenceData.numComputedTokens ≤ (memory.sequences seq).length
        ∧ ((memory.sequences seq).sequenceData.stage = .decode →
            (memory.sequences seq).sequenceData.numComputedTokens
              = (memory.sequences seq).length - 1) := by
  rcases h with ⟨hlt, -, -, hdecode, -⟩
  change _ < (memory.sequences seq).length at hlt
  refine ⟨by omega, fun hstage => ?_⟩
  have hone := hdecode hstage
  change _ = (memory.sequences seq).length at hone
  omega

/--
Where the counter of a sequence may be, by its status.
-/
theorem computed_of_located {memory : Memory} {seq : SequenceRef} (h : memory.Located seq)
    (hunfinished : (memory.sequences seq).isFinished = false)
    : (memory.sequences seq).sequenceData.numComputedTokens ≤ (memory.sequences seq).length
        ∧ ((memory.sequences seq).sequenceData.stage = .decode →
            (memory.sequences seq).sequenceData.numComputedTokens
              = (memory.sequences seq).length - 1) := by
  unfold Memory.Located at h
  split at h
  . rcases h with ⟨-, hzero, hstage⟩
    rw [hzero, hstage]
    exact ⟨Nat.zero_le _, fun hdecode => (nomatch hdecode)⟩
  . rcases h with ⟨blockTable, -, -, hfits⟩
    exact computed_of_fits hfits
  . rcases h with ⟨blockTable, -, -, hfits⟩
    exact computed_of_fits hfits
  . next hwaiting hrunning hswapped =>
    unfold Sequence.isFinished at hunfinished
    cases hstatus : (memory.sequences seq).sequenceStatus <;>
      simp_all [SequenceStatus.isFinished]

/--
The counters, the stages and the tokens of the unfinished sequences agree in every state of a run.
-/
theorem agrees_of_visits
    (h : Visits admissible
      (LlmEngine.new
        (Scheduler.new schedulerConfig blockSize numCpuBlocks numGpuBlocks slidingWindow heap now)
        tokenizer)
      state)
    : (∀ group ∈ state.arrived, ∀ seq ∈ group.sequences,
        (state.engine.scheduler.memory.sequences seq).isFinished = false →
          Agrees schedulerConfig.maxModelLen (state.sampled seq) group
            (state.engine.scheduler.memory.sequences seq))
        ∧ ∀ (instants : Instants) (metadata : List SequenceGroupMetadata)
            (outputs : SchedulerOutputs) (scheduler : Scheduler),
            state.engine.scheduler.schedule instants = .ok (metadata, outputs, scheduler) →
              List.Forall₂ (fun scheduled metadata => ∃ seq, SamplesLast scheduler scheduled metadata seq)
                outputs.scheduledSequenceGroups metadata := by
  have hstart := Session.inv_start schedulerConfig blockSize numCpuBlocks numGpuBlocks slidingWindow
    heap now
  have htracked := h.tracked hstart rfl
  rcases h.exists_session hstart with ⟨session, hsteps, hscheduler, harrived⟩
  have hinv := hsteps.inv hstart
  refine ⟨?_, ?_⟩
  . intro group hgroup seq hseq hunfinished
    have hmem : seq ∈ session.refs := by
      rw [← harrived] at hgroup
      exact List.mem_flatMap.mpr ⟨group, hgroup, hseq⟩
    have hconfig : state.engine.scheduler.schedulerConfig = schedulerConfig := by
      rw [← hscheduler]
      exact (hsteps.sameConfig hstart).1
    have htracks := htracked.tracks group hgroup seq hseq hunfinished
    rw [hconfig] at htracks
    have hlocated := hinv.ok.sound.located seq hmem
    change session.scheduler.memory.Located seq at hlocated
    rw [hscheduler] at hlocated
    rcases computed_of_located hlocated hunfinished with ⟨hle, hdecode⟩
    exact ⟨htracks, hle, hdecode⟩
  . intro instants metadata outputs scheduler hschedule
    rw [← hscheduler] at hschedule
    rcases hinv.describes_of_schedule hschedule with ⟨hsound, hdescribes⟩
    refine hdescribes.imp ?_
    rintro scheduled entry ⟨seq, hseq, blockTable, hdesc⟩
    have hfits := hdesc.fits ⟨scheduler.memory.blockManager.blockSize, none, false⟩
      hsound hseq rfl
    refine ⟨seq, hdesc.sequences_eq, hdesc.sequenceData_eq, ?_, hfits.contextLength_eq⟩
    rw [hdesc.doSample_eq, decide_eq_true_eq]

/--
When the batch of a prompt has been processed and another prompt has arrived, one sequence is in the
decode stage and the other one is not computed yet.
-/
theorem agrees_of_visits_decode
    : ∃ state,
        Visits admissible
            (LlmEngine.new
              (Scheduler.new ⟨4, 2, 8, 0, true⟩ 1 4 8 none (fun _ => waitingSequence []) 0)
              (fun _ => .ok ""))
            state
          ∧ state.arrived = [singleGroup "a" 0 0, singleGroup "b" 1 0]
          ∧ (state.engine.scheduler.memory.sequences ⟨0, 0⟩).sequenceData.stage = .decode
          ∧ Agrees 8 true (singleGroup "a" 0 0)
              (state.engine.scheduler.memory.sequences ⟨0, 0⟩)
          ∧ Agrees 8 false (singleGroup "b" 1 0)
              (state.engine.scheduler.memory.sequences ⟨1, 1⟩) := by
  let inputs : List Input := [.prompt "a" 0 [5], .prompt "b" 1 [6, 7]]
  have hrun : (stepping
      (Scheduler.new ⟨4, 2, 8, 0, true⟩ 1 4 8 none (fun _ => waitingSequence []) 0)
      (fun _ => .ok "") inputs (.token 9)).any (fun state =>
        state.arrived = [singleGroup "a" 0 0, singleGroup "b" 1 0]
          ∧ (state.engine.scheduler.memory.sequences ⟨0, 0⟩).sequenceData.stage = .decode
          ∧ (state.engine.scheduler.memory.sequences ⟨0, 0⟩).isFinished = false
          ∧ (state.engine.scheduler.memory.sequences ⟨1, 1⟩).isFinished = false
          ∧ state.sampled ⟨0, 0⟩ = true ∧ state.sampled ⟨1, 1⟩ = false) = true := by
    decide +kernel
  rcases (Option.any_eq_true _ _).mp hrun with ⟨state, hstate, hrun⟩
  rcases of_decide_eq_true hrun with ⟨harrived, hstage, hfirst, hsecond, hsampled, hnew⟩
  have haccepts : ∀ input ∈ inputs, input.Accepted admissible := by
    simp only [inputs, List.mem_cons, List.not_mem_nil, or_false]
    rintro input (rfl | rfl) <;> exact fun _ => ⟨by decide, by decide⟩
  have hlast : Input.Accepted admissible (.token 9) := trivial
  have hvisits := visits_of_stepping haccepts hlast hstate
  have hagrees := (agrees_of_visits hvisits).1
  refine ⟨state, hvisits, harrived, hstage, ?_, ?_⟩
  . have hagrees := hagrees (singleGroup "a" 0 0) (by simp [harrived]) ⟨0, 0⟩
      (List.mem_singleton_self _) hfirst
    rwa [hsampled] at hagrees
  . have hagrees := hagrees (singleGroup "b" 1 0) (by simp [harrived]) ⟨1, 1⟩
      (List.mem_singleton_self _) hsecond
    rwa [hnew] at hagrees

end Trace

end AtomaInfer
