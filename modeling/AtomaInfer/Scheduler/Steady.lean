import AtomaInfer.Scheduler.Run
import AtomaInfer.Scheduler.Stuck

/-!
Runs of a scheduler in which no two groups in the queues have the same request identifier. In every
state that they reach, a call of `schedule` finds what it relies on.
-/

namespace AtomaInfer

namespace Session

open Scheduler

/--
The groups in the queues have their own request identifiers.
-/
def DistinctRequests (session : Session) : Prop :=
  (session.scheduler.groups.map (·.requestId)).Nodup

instance (session : Session) : Decidable session.DistinctRequests :=
  inferInstanceAs (Decidable (List.Nodup _))

/--
A run in which the requests in the queues stay distinct.
-/
def DistinctSteps (accepts : Accepts) : Session → Session → Prop :=
  Relation.ReflTransGen fun session session' =>
    Step accepts session session' ∧ session'.DistinctRequests

/--
What a call of `schedule` relies on, apart from the request identifiers.
-/
structure Steady (session : Session) : Prop where
  inv : session.Inv
  unwindowed : session.scheduler.memory.Unwindowed
  single : ∀ group ∈ session.scheduler.config.held, ∃ seq, group.sequences = [seq]
    ∧ 1 ≤ (session.scheduler.memory.sequences seq).length
  limits : session.scheduler.schedulerConfig.maxNumSequences
    ≤ session.scheduler.schedulerConfig.maxNumBatchedTokens
  width_le : ((session.scheduler.running : Multiset SequenceGroup).map SequenceGroup.width).sum
    ≤ session.scheduler.schedulerConfig.maxNumSequences

variable {accepts : Accepts} {session session' : Session} {instants : Instants}

theorem DistinctSteps.steps (h : DistinctSteps accepts session session')
    : session.Steps accepts session' := by
  induction h with
  | refl => exact .refl
  | tail _ hstep ih => exact ih.tail hstep.1

theorem held_config (scheduler : Scheduler)
    : scheduler.config.held = (scheduler.groups : Multiset SequenceGroup) := by
  simp only [Config.held, Scheduler.config, Scheduler.groups, Multiset.map_zero, add_zero,
    Multiset.coe_add]

theorem Steady.ready (h : session.Steady) (hdistinct : session.DistinctRequests)
    : session.scheduler.Ready session.refs := by
  refine ⟨h.inv.ok, h.unwindowed, ⟨h.single, ?_⟩, h.limits, h.width_le⟩
  rw [held_config, Multiset.map_coe, Multiset.coe_nodup]
  exact hdistinct

theorem Steady.of_ready (hinv : session.Inv) (h : session.scheduler.Ready session.refs)
    : session.Steady :=
  ⟨hinv, h.unwindowed, h.simple.single, h.limits, h.width_le⟩

theorem steady_start {config : SchedulerConfig} (hconfig : config.verifyArgs = .ok ())
    (blockSize numCpuBlocks numGpuBlocks : Nat) (heap : SequenceHeap) (now : Nat)
    : (start (Scheduler.new config blockSize numCpuBlocks numGpuBlocks none heap now)).Steady := by
  refine ⟨inv_start config blockSize numCpuBlocks numGpuBlocks none heap now, rfl, ?_,
    (SchedulerConfig.le_of_verifyArgs hconfig).2, Nat.zero_le _⟩
  intro group hgroup
  rw [held_config] at hgroup
  exact absurd hgroup (Multiset.notMem_zero group)

theorem Arrives.steady (h : session.Arrives accepts session') (hsteady : session.Steady)
    (hprompt : ∀ arrived group sequence, accepts arrived group sequence → 1 ≤ sequence.length)
    : session'.Steady := by
  have hinv := h.inv hsteady.inv
  cases h with
  | intro group seq sequence prompt promptTokenIds returnFullText hgroup hfresh hnew haccepts =>
    refine ⟨hinv, hsteady.unwindowed, ?_, hsteady.limits, hsteady.width_le⟩
    intro other hother
    rw [held_receive] at hother
    rcases Multiset.mem_cons.mp hother with rfl | hother
    . refine ⟨seq, hgroup, ?_⟩
      simpa [receive, addSequenceGroup] using hprompt _ _ _ haccepts
    . rcases hsteady.single other hother with ⟨seq', hsingle, hlength⟩
      refine ⟨seq', hsingle, ?_⟩
      have hmem : seq' ∈ session.refs := hsteady.inv.ok.mem_refs other hother seq' (by simp [hsingle])
      have hne : seq' ≠ seq := fun heq => hfresh seq' hmem (by rw [heq])
      simpa [receive, addSequenceGroup, Function.update_of_ne hne] using hlength

/--
After a call that has returned, the scheduler is ready for the next one.
-/
theorem Schedules.ready (h : session.Schedules session') (hsteady : session.Steady)
    (hdistinct : session.DistinctRequests) : session'.scheduler.Ready session'.refs := by
  cases h with
  | intro instants metadata outputs scheduler hpending hschedule =>
    have hready := hsteady.ready hdistinct
    have hstuck := hready.exists_schedule_iff.mp ⟨_, _, _, hschedule⟩
    rcases hready.exists_schedule hstuck with ⟨metadata', outputs', scheduler', hok, hready', -⟩
    rw [hschedule] at hok
    cases hok
    exact hready'

theorem Schedules.steady (h : session.Schedules session') (hsteady : session.Steady)
    (hdistinct : session.DistinctRequests) : session'.Steady :=
  .of_ready (h.inv hsteady.inv) (h.ready hsteady hdistinct)

theorem Updates.steady (h : session.Updates session') (hsteady : session.Steady) : session'.Steady := by
  have hinv := h.inv hsteady.inv
  cases h with
  | intro metadata outputs heap hpending hupdates =>
    refine ⟨hinv, hsteady.unwindowed, ?_, hsteady.limits, ?_⟩
    . intro group hgroup
      rcases hsteady.single group (Multiset.mem_of_le (session.held_update_le heap) hgroup)
        with ⟨seq, hsingle, hlength⟩
      refine ⟨seq, hsingle, ?_⟩
      change 1 ≤ (heap seq).length
      rcases cases_of_updates hsteady.inv hpending hupdates seq
        with ⟨entry, -, blockTable, -, -, hadvances⟩ | hsame
      . rw [length_of_advances hadvances]
        omega
      . rw [hsame]
        exact hlength
    . refine le_trans (SequenceGroup.sum_width_le ?_) hsteady.width_le
      exact List.filter_sublist.subperm

theorem Step.steady (h : Step accepts session session') (hsteady : session.Steady)
    (hdistinct : session.DistinctRequests)
    (hprompt : ∀ arrived group sequence, accepts arrived group sequence → 1 ≤ sequence.length)
    : session'.Steady := by
  cases h with
  | arrive h => exact h.steady hsteady hprompt
  | schedule h => exact h.steady hsteady hdistinct
  | update h => exact h.steady hsteady

/--
No group may run more than one sequence.
-/
def Narrow (session : Session) : Prop :=
  ∀ group ∈ session.scheduler.config.held, group.width = 1

theorem Step.narrow (h : Step accepts session session') (hinv : session.Inv) (hnarrow : session.Narrow)
    (hwidth : ∀ arrived group sequence, accepts arrived group sequence → group.width = 1)
    : session'.Narrow := by
  intro other hother
  cases h with
  | arrive h =>
    cases h with
    | intro group seq sequence prompt promptTokenIds returnFullText hgroup hfresh hnew haccepts =>
      rw [held_receive] at hother
      rcases Multiset.mem_cons.mp hother with rfl | hother
      . exact hwidth _ _ _ haccepts
      . exact hnarrow other hother
  | schedule h =>
    cases h with
    | intro instants metadata outputs scheduler hpending hschedule =>
      exact hnarrow other (Multiset.mem_of_le (hinv.reschedules hschedule).held_le hother)
  | update h =>
    cases h with
    | intro metadata outputs heap hpending hupdates =>
      exact hnarrow other (Multiset.mem_of_le (session.held_update_le heap) hother)

/--
The groups that run or are swapped out decode, except for those of the batch that is being computed.
-/
def Decoding (session : Session) : Prop :=
  ∀ group ∈ session.scheduler.config.running + session.scheduler.config.swapped,
    group.isPrefill session.scheduler.memory.sequences = false
      ∨ ∃ metadata outputs, session.pending = some (metadata, outputs)
          ∧ group ∈ groupsOf outputs.scheduledSequenceGroups

theorem Decoding.decodes (h : session.Decoding) (hpending : session.pending = none)
    : session.scheduler.config.Decodes := by
  intro group hgroup
  rcases h group hgroup with hdecode | ⟨metadata, outputs, hsome, -⟩
  . exact hdecode
  . rw [hpending] at hsome
    cases hsome

theorem mem_held_of_mem {group : SequenceGroup} {c : Config} (h : group ∈ c.running + c.swapped)
    : group ∈ c.held := by
  simp only [Config.held, Multiset.mem_add] at h ⊢
  tauto

theorem Arrives.decoding (h : session.Arrives accepts session') (hinv : session.Inv)
    (hdecoding : session.Decoding) : session'.Decoding := by
  cases h with
  | intro group seq sequence prompt promptTokenIds returnFullText hgroup hfresh hnew haccepts =>
    intro other hother
    have hother : other ∈ session.scheduler.config.running + session.scheduler.config.swapped := hother
    have hsame : ∀ seq' ∈ other.sequences,
        (session.receive group seq sequence).scheduler.memory.sequences seq'
          = session.scheduler.memory.sequences seq' := by
      intro seq' hseq'
      have hmem := hinv.ok.mem_refs other (mem_held_of_mem hother) seq' hseq'
      exact Function.update_of_ne (fun heq => hfresh seq' hmem (by rw [heq])) _ _
    rw [Staged.isPrefill_congr hsame]
    exact hdecoding other hother

/--
The batch has all the groups that may not decode after the call.
-/
theorem Schedules.decoding (h : session.Schedules session') (hinv : session.Inv)
    (hdecoding : session.Decoding) : session'.Decoding := by
  cases h with
  | intro instants metadata outputs scheduler hpending hschedule =>
    rcases schedule_eq_ok hschedule with ⟨passed, hpolicy, hsame, -⟩
    have hok := hinv.ok.of_scheduled_eq_zero rfl
      session.scheduler.schedulerConfig.enableChunkedPrefill
    rcases schedulePolicy_moves hpolicy hok with ⟨c, lost, hmoves, hsettles, -⟩
    have hdecodes := hmoves.decodes hok (hdecoding.decodes hpending)
    rcases hsame with ⟨manager, rfl, -⟩
    intro group hgroup
    have hgroup : group ∈ (passed.running + passed.swapped : Multiset SequenceGroup) := hgroup
    dsimp only
    rw [hsettles.memory_eq]
    have hcases : group ∈ c.running + c.swapped ∨ group ∈ c.scheduled.map (·.scheduledGroup) := by
      rw [hsettles.swapped_eq] at hgroup
      rcases Multiset.mem_add.mp hgroup with hgroup | hgroup
      . have hadd : group ∈ c.running + c.scheduled.map (·.scheduledGroup) := by
          rw [← hsettles.running_add]
          exact Multiset.mem_add.mpr (.inl hgroup)
        simp only [Multiset.mem_add] at hadd ⊢
        tauto
      . exact .inl (Multiset.mem_add.mpr (.inr hgroup))
    rcases hcases with hgroup | hgroup
    . exact .inl (hdecodes group hgroup)
    . right
      rw [← hsettles.scheduled_eq, Multiset.map_coe, Multiset.mem_coe] at hgroup
      exact ⟨metadata, outputs, rfl, hgroup⟩

/--
Without chunked prefills all tokens of a sequence are computed at once, and then it decodes.
-/
theorem stage_of_advances {memory : Memory} {scheduled : ScheduledSequenceGroup}
    {metadata : SequenceGroupMetadata} {seq : SequenceRef} {blockTable : BlockTable}
    {maxModelLen : Nat} {heap : SequenceHeap}
    (hdescribes : Describes memory false scheduled metadata seq blockTable)
    (hadvances : (memory.sequences seq).Advances scheduled.tokenChunkSize metadata.doSample
      maxModelLen (heap seq))
    : (heap seq).isPrefill = false := by
  have hfull := hdescribes.chunk.2.2 rfl
  change _ = (memory.sequences seq).length at hfull
  have hstage := hadvances.stage_eq
  rw [if_pos hfull] at hstage
  simp [Sequence.isPrefill, hstage]

theorem Updates.decoding (h : session.Updates session') (hsteady : session.Steady)
    (hdefault : session.scheduler.schedulerConfig.enableChunkedPrefill = false)
    (hdecoding : session.Decoding) : session'.Decoding := by
  cases h with
  | intro metadata outputs heap hpending hupdates =>
    intro group hgroup
    left
    have hle : (session.update heap).scheduler.config.running
        + (session.update heap).scheduler.config.swapped
          ≤ session.scheduler.config.running + session.scheduler.config.swapped := by
      simp only [Scheduler.config, update, removeFinishedSequences]
      gcongr
      exact List.filter_sublist.subperm
    have hgroup := Multiset.mem_of_le hle hgroup
    rcases hsteady.single group (mem_held_of_mem hgroup) with ⟨seq, hsingle, -⟩
    change group.isPrefill heap = false
    have hdescribes := hsteady.inv.describes metadata outputs hpending
    have hcases := cases_of_updates hsteady.inv hpending hupdates seq
    rw [hdefault] at hcases hdescribes
    rcases hcases with ⟨entry, -, blockTable, -, hdesc, hadvances⟩ | hsame
    . simp [SequenceGroup.isPrefill, hsingle, stage_of_advances hdesc hadvances]
    . rcases hdecoding group hgroup with hdecode | ⟨metadata', outputs', hsome, hbatch⟩
      . simpa [SequenceGroup.isPrefill, hsingle, hsame] using hdecode
      . cases hpending.symm.trans hsome
        rw [List.forall₂_iff_zip] at hdescribes
        rcases List.mem_map.mp hbatch with ⟨scheduled, hscheduled, rfl⟩
        rw [← List.map_fst_zip hdescribes.1.le, List.mem_map] at hscheduled
        rcases hscheduled with ⟨entry, hentry, rfl⟩
        rcases hdescribes.2 hentry with ⟨seq', -, blockTable, hdesc⟩
        cases hsingle.symm.trans hdesc.sequences_eq
        have hadvances := hupdates.advances entry hentry seq (by simp [hsingle])
        simp [SequenceGroup.isPrefill, hsingle, stage_of_advances hdesc hadvances]

/--
A prompt with at least one token, for which one sequence is returned.
-/
def acceptsPrompts : Accepts :=
  fun _ group sequence =>
    group.nextTokenChooserParams.bestOf ≤ 1 ∧ sequence.sequenceData.promptTokenIds ≠ []

theorem one_le_length_of_acceptsPrompts {arrived : List SequenceGroup} {group : SequenceGroup}
    {sequence : Sequence} (h : acceptsPrompts arrived group sequence) : 1 ≤ sequence.length := by
  have hlength := List.length_pos_iff.mpr h.2
  unfold Sequence.length SequenceData.length
  omega

theorem width_of_acceptsPrompts {arrived : List SequenceGroup} {group : SequenceGroup}
    {sequence : Sequence} (h : acceptsPrompts arrived group sequence) : group.width = 1 :=
  Nat.max_eq_left h.1

/--
What holds in every state of a run in which the requests stay distinct.
-/
structure Settled (session : Session) : Prop where
  steady : session.Steady
  distinct : session.DistinctRequests
  narrow : session.Narrow
  decoding : session.scheduler.schedulerConfig.enableChunkedPrefill = false → session.Decoding

theorem settled_start {config : SchedulerConfig} (hconfig : config.verifyArgs = .ok ())
    (blockSize numCpuBlocks numGpuBlocks : Nat) (heap : SequenceHeap) (now : Nat)
    : (start (Scheduler.new config blockSize numCpuBlocks numGpuBlocks none heap now)).Settled := by
  refine ⟨steady_start hconfig _ _ _ _ _, List.nodup_nil, ?_, fun _ => ?_⟩
  . intro group hgroup
    rw [held_config] at hgroup
    exact absurd hgroup (Multiset.notMem_zero group)
  . intro group hgroup
    exact absurd hgroup (Multiset.notMem_zero group)

theorem Settled.step (h : session.Settled) (hstep : Step acceptsPrompts session session')
    (hdistinct : session'.DistinctRequests) : session'.Settled := by
  refine ⟨hstep.steady h.steady h.distinct fun _ _ _ => one_le_length_of_acceptsPrompts, hdistinct,
    hstep.narrow h.steady.inv h.narrow fun _ _ _ => width_of_acceptsPrompts, ?_⟩
  rw [(Steps.sameConfig (.single hstep) h.steady.inv).1]
  intro hdefault
  cases hstep with
  | arrive hstep => exact hstep.decoding h.steady.inv (h.decoding hdefault)
  | schedule hstep => exact hstep.decoding h.steady.inv (h.decoding hdefault)
  | update hstep => exact hstep.decoding h.steady hdefault (h.decoding hdefault)

theorem DistinctSteps.settled (h : session.DistinctSteps acceptsPrompts session')
    (hsettled : session.Settled) : session'.Settled := by
  induction h with
  | refl => exact hsettled
  | tail _ hstep ih => exact ih.step hstep.1 hstep.2

section Limits

variable {maxNumBatchedTokens maxNumSequences maxModelLen : Nat} {delayFactor : ℚ}
variable {enableChunkedPrefill : Bool} {config : SchedulerConfig}

/--
A call of `schedule` returns, and its batch keeps to the limits of the configuration.
-/
def SchedulesWithinLimits (session : Session) (instants : Instants) : Prop :=
  ∃ metadata outputs scheduler,
    session.scheduler.schedule instants = .ok (metadata, outputs, scheduler)
      ∧ KeepsLimits session.scheduler.schedulerConfig outputs

theorem settled_of_distinctSteps
    (hconfig : SchedulerConfig.new maxNumBatchedTokens maxNumSequences maxModelLen delayFactor
      enableChunkedPrefill = .ok config)
    {blockSize numCpuBlocks numGpuBlocks : Nat} {heap : SequenceHeap} {now : Nat}
    (h : (start (Scheduler.new config blockSize numCpuBlocks numGpuBlocks none heap now)
      ).DistinctSteps acceptsPrompts session)
    : session.Settled
        ∧ session.scheduler.schedulerConfig = config
        ∧ config.enableChunkedPrefill = enableChunkedPrefill := by
  rcases Except.bind_eq_ok.mp hconfig with ⟨_, hverify, hpure⟩
  cases hpure
  have hstart := settled_start hverify blockSize numCpuBlocks numGpuBlocks heap now
  exact ⟨h.settled hstart, (h.steps.sameConfig hstart.steady.inv).1, rfl⟩

/--
The default policy never fails, and its batches keep to the limits.
-/
theorem scheduleDefault_within_limits
    (hconfig : SchedulerConfig.new maxNumBatchedTokens maxNumSequences maxModelLen delayFactor false
      = .ok config)
    {blockSize numCpuBlocks numGpuBlocks : Nat} {heap : SequenceHeap} {now : Nat}
    (h : (start (Scheduler.new config blockSize numCpuBlocks numGpuBlocks none heap now)
      ).DistinctSteps acceptsPrompts session)
    (hpending : session.pending = none) (instants : Instants)
    : session.SchedulesWithinLimits instants := by
  rcases settled_of_distinctSteps hconfig h with ⟨hsettled, hsame, hdefault⟩
  rw [← hsame] at hdefault
  have hready := hsettled.steady.ready hsettled.distinct
  have hstuck : ¬ session.scheduler.Stuck instants :=
    hready.not_stuck_default hdefault hsettled.narrow
      ((hsettled.decoding hdefault).decodes hpending)
  rcases hready.exists_schedule hstuck with ⟨metadata, outputs, scheduler, hok, -, hlimits⟩
  exact ⟨metadata, outputs, scheduler, hok, hlimits⟩

/--
A group with one sequence arrives, whose text is not kept.
-/
def receivePrompt (session : Session) (requestId : String) (sequenceId : Nat)
    (promptTokenIds : List Nat) : Session :=
  session.receive (singleGroup requestId sequenceId 0) ⟨sequenceId, sequenceId⟩
    (waitingSequence promptTokenIds)

theorem arrives_receivePrompt {requestId : String} {sequenceId : Nat} {promptTokenIds : List Nat}
    (hfresh : ∀ other ∈ session.refs, other.sequenceId ≠ sequenceId)
    (hnew : Sequence.new "" promptTokenIds session.scheduler.memory.blockManager.blockSize false
      = .ok (waitingSequence promptTokenIds))
    (hprompt : promptTokenIds ≠ [])
    : session.Step acceptsPrompts (session.receivePrompt requestId sequenceId promptTokenIds) :=
  .arrive (.intro _ _ _ "" promptTokenIds false rfl hfresh hnew ⟨le_rfl, hprompt⟩)

/--
The scheduler before any request, for blocks of one token.
-/
def empty (config : SchedulerConfig) : Session :=
  start (Scheduler.new config 1 4 4 none (fun _ => waitingSequence []) 0)

/--
Two prompts of one token each are scheduled in one batch.
-/
theorem scheduleDefault_within_limits_two_prompts
    : ∃ (config : SchedulerConfig) (session : Session),
        SchedulerConfig.new 2 2 2 0 false = .ok config
          ∧ session.scheduler.waiting = [singleGroup "a" 0 0, singleGroup "b" 1 0]
          ∧ session.SchedulesWithinLimits ⟨2, 2, fun _ => 2, 2⟩ := by
  let config : SchedulerConfig := ⟨2, 2, 2, 0, false⟩
  have hconfig : SchedulerConfig.new 2 2 2 0 false = .ok config := rfl
  let first := (empty config).receivePrompt "a" 0 [5]
  let session := first.receivePrompt "b" 1 [6]
  have hfirst : (empty config).Step acceptsPrompts first :=
    arrives_receivePrompt (by decide) (by decide +kernel) (by decide)
  have hsecond : first.Step acceptsPrompts session :=
    arrives_receivePrompt (by decide) (by decide +kernel) (by decide)
  have hsteps : (empty config).DistinctSteps acceptsPrompts session :=
    .tail (.single ⟨hfirst, by decide⟩) ⟨hsecond, by decide⟩
  exact ⟨config, session, hconfig, rfl, scheduleDefault_within_limits hconfig hsteps rfl _⟩

/--
Three prompts with the same request identifier are counted once, and scheduled in one batch.
-/
theorem not_within_limits_same_request
    : ∃ config session,
        SchedulerConfig.new 2 2 2 0 false = .ok config
          ∧ (empty config).Steps acceptsPrompts session
          ∧ session.pending = none
          ∧ ¬ session.SchedulesWithinLimits ⟨2, 2, fun _ => 2, 2⟩ := by
  let config : SchedulerConfig := ⟨2, 2, 2, 0, false⟩
  let first := (empty config).receivePrompt "a" 0 [5]
  let second := first.receivePrompt "a" 1 [6]
  let session := second.receivePrompt "a" 2 [7]
  have hfirst : (empty config).Step acceptsPrompts first :=
    arrives_receivePrompt (by decide) (by decide +kernel) (by decide)
  have hsecond : first.Step acceptsPrompts second :=
    arrives_receivePrompt (by decide) (by decide +kernel) (by decide)
  have hthird : second.Step acceptsPrompts session :=
    arrives_receivePrompt (by decide) (by decide +kernel) (by decide)
  refine ⟨config, session, rfl, .tail (.tail (.single hfirst) hsecond) hthird, rfl, ?_⟩
  rintro ⟨metadata, outputs, scheduler, hok, hlimits⟩
  have hrun : (session.scheduler.schedule ⟨2, 2, fun _ => 2, 2⟩).toOption.all (fun result =>
      2 < (result.2.1.scheduledSequenceGroups.map (·.tokenChunkSize)).sum) = true := by
    decide +kernel
  rw [hok] at hrun
  have hle := hlimits.tokens_le
  simp only [Except.toOption, Option.all_some, decide_eq_true_eq] at hrun
  change _ ≤ 2 at hle
  omega

/--
A call of the chunked policy comes to a waiting group for which there are blocks when the tokens of
its budget are used up.
-/
def Exhausts (session : Session) (instants : Instants) : Prop :=
  ∃ vars, session.scheduler.ReachesWaiting instants vars ∧ vars.Exhausted instants.prefills

/--
The chunked policy returns and keeps to its budget just when the tokens last.
-/
theorem scheduleChunkedPrefill_within_budget_iff
    (hconfig : SchedulerConfig.new maxNumBatchedTokens maxNumSequences maxModelLen delayFactor true
      = .ok config)
    {blockSize numCpuBlocks numGpuBlocks : Nat} {heap : SequenceHeap} {now : Nat}
    (h : (start (Scheduler.new config blockSize numCpuBlocks numGpuBlocks none heap now)
      ).DistinctSteps acceptsPrompts session)
    (instants : Instants)
    : (∃ metadata outputs scheduler,
          session.scheduler.schedule instants = .ok (metadata, outputs, scheduler)
            ∧ (outputs.scheduledSequenceGroups.map (·.tokenChunkSize)).sum
                ≤ config.maxNumBatchedTokens)
        ↔ ¬ session.Exhausts instants := by
  rcases settled_of_distinctSteps hconfig h with ⟨hsettled, hsame, hchunked⟩
  rw [← hsame] at hchunked
  have hready := hsettled.steady.ready hsettled.distinct
  constructor
  . rintro ⟨metadata, outputs, scheduler, hok, -⟩ ⟨vars, hreach, hspent⟩
    exact hready.exists_schedule_iff.mp ⟨metadata, outputs, scheduler, hok⟩
      (.tokens vars hchunked hreach hspent)
  . intro hroom
    have hstuck : ¬ session.scheduler.Stuck instants :=
      hready.not_stuck_chunked hchunked hsettled.narrow
        fun vars hreach hspent => hroom ⟨vars, hreach, hspent⟩
    rcases hready.exists_schedule hstuck with ⟨metadata, outputs, scheduler, hok, -, hlimits⟩
    rw [hsame] at hlimits
    exact ⟨metadata, outputs, scheduler, hok, hlimits.tokens_le⟩

/--
The tokens last for two prompts.
-/
theorem scheduleChunkedPrefill_within_budget_iff_two_prompts
    : ∃ (config : SchedulerConfig) (session : Session),
        SchedulerConfig.new 3 2 2 0 true = .ok config
          ∧ session.scheduler.waiting = [singleGroup "a" 0 0, singleGroup "b" 1 0]
          ∧ (∃ metadata outputs scheduler,
              session.scheduler.schedule ⟨2, 2, fun _ => 2, 2⟩ = .ok (metadata, outputs, scheduler)
                ∧ (outputs.scheduledSequenceGroups.map (·.tokenChunkSize)).sum = 3)
          ∧ ¬ session.Exhausts ⟨2, 2, fun _ => 2, 2⟩ := by
  let config : SchedulerConfig := ⟨3, 2, 2, 0, true⟩
  have hconfig : SchedulerConfig.new 3 2 2 0 true = .ok config := rfl
  let first := (empty config).receivePrompt "a" 0 [5, 6]
  let session := first.receivePrompt "b" 1 [7]
  have hfirst : (empty config).Step acceptsPrompts first :=
    arrives_receivePrompt (by decide) (by decide +kernel) (by decide)
  have hsecond : first.Step acceptsPrompts session :=
    arrives_receivePrompt (by decide) (by decide +kernel) (by decide)
  have hsteps : (empty config).DistinctSteps acceptsPrompts session :=
    .tail (.single ⟨hfirst, by decide⟩) ⟨hsecond, by decide⟩
  have hrun : (session.scheduler.schedule ⟨2, 2, fun _ => 2, 2⟩).toOption.any (fun result =>
      (result.2.1.scheduledSequenceGroups.map (·.tokenChunkSize)).sum = 3) = true := by
    decide +kernel
  rcases Except.exists_eq_ok_of_any hrun with ⟨⟨metadata, outputs, scheduler⟩, hok, hsum⟩
  have hsum := of_decide_eq_true hsum
  exact ⟨config, session, hconfig, rfl, ⟨metadata, outputs, scheduler, hok, hsum⟩,
    (scheduleChunkedPrefill_within_budget_iff hconfig hsteps _).mp
      ⟨metadata, outputs, scheduler, hok, hsum.le⟩⟩

/--
The second prompt comes when the first one has used up the tokens, and the call fails.
-/
theorem not_within_budget_second_prompt
    : ∃ config session,
        SchedulerConfig.new 2 2 2 0 true = .ok config
          ∧ (empty config).DistinctSteps acceptsPrompts session
          ∧ session.pending = none
          ∧ session.scheduler.schedule ⟨2, 2, fun _ => 2, 2⟩ = .error .emptyScheduling
    := by
  let config : SchedulerConfig := ⟨2, 2, 2, 0, true⟩
  let first := (empty config).receivePrompt "a" 0 [5, 6]
  let session := first.receivePrompt "b" 1 [7]
  have hfirst : (empty config).Step acceptsPrompts first :=
    arrives_receivePrompt (by decide) (by decide +kernel) (by decide)
  have hsecond : first.Step acceptsPrompts session :=
    arrives_receivePrompt (by decide) (by decide +kernel) (by decide)
  refine ⟨config, session, rfl, .tail (.single ⟨hfirst, by decide⟩) ⟨hsecond, by decide⟩, rfl, ?_⟩
  exact Except.eq_error_of_eq_some (by decide +kernel)

end Limits

end Session

end AtomaInfer
