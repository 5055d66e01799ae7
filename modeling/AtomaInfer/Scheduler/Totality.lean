import AtomaInfer.Scheduler.Admission

/-!
When a call of `schedule` does not fail: the passes of both policies, put together. Then it keeps to
the limits of the configuration, too.
-/

namespace AtomaInfer

namespace Scheduler

open Config

section Start

variable {scheduler : Scheduler} {c : Config} {limits : SchedulerConfig}
variable {budget : SchedulingBudget} {counted : Multiset SequenceGroup} {refs : List SequenceRef}

theorem Config.budgeted_new (c : Config) (limits : SchedulerConfig) (hscheduled : c.scheduled = 0)
    : c.Budgeted limits (SchedulingBudget.new limits.maxNumBatchedTokens limits.maxNumSequences)
        0 := by
  refine ⟨rfl, rfl, ?_, ?_, ⟨rfl, rfl⟩, Multiset.zero_le _⟩
  . rw [hscheduled]
    rfl
  . intro requestId hmem
    exact absurd hmem (Finset.notMem_empty _)

/--
The loop that makes the running groups a part of the budget.
-/
theorem Config.Budgeted.foldl_addNumberSequences {groups : List SequenceGroup}
    (h : c.Budgeted limits budget counted) (hsimple : c.Simple) (hle : groups + counted ≤ c.held)
    (hwidth : ∀ group ∈ groups, group.getMaxNumRunningSeqs c.memory.sequences = group.width)
    : ∃ budget',
        groups.foldl
            (fun budget group => budget.addNumberSequences group.requestId
              (group.getMaxNumRunningSeqs c.memory.sequences))
            budget
          = budget'
          ∧ c.Budgeted limits budget' (groups + counted) := by
  induction groups generalizing budget counted with
  | nil => exact ⟨budget, rfl, by simpa using h⟩
  | cons group groups ih =>
    have hcons : ((group :: groups : List SequenceGroup) : Multiset SequenceGroup) + counted
        = groups + group ::ₘ counted := by
      rw [← Multiset.cons_coe, Multiset.cons_add, Multiset.add_cons]
    rw [hcons] at hle ⊢
    have hmem : group ::ₘ counted ≤ c.held := (Multiset.le_add_left _ _).trans hle
    have hnew (other : SequenceGroup) (hother : other ∈ counted)
        : other.requestId ≠ group.requestId := by
      rcases Multiset.le_iff_exists_add.mp hmem with ⟨rest, hheld⟩
      rw [Multiset.cons_add] at hheld
      exact hsimple.requestId_ne hheld (Multiset.mem_add.mpr (.inl hother))
    rw [List.foldl_cons, hwidth group List.mem_cons_self]
    exact ih (h.count (Multiset.mem_of_le hmem (Multiset.mem_cons_self _ _)) hnew) hle
      (fun other hother => hwidth other (List.mem_cons_of_mem _ hother))

theorem budgeted_includeRunning (hok : scheduler.config.OK false refs)
    (hsimple : scheduler.config.Simple)
    : scheduler.config.Budgeted scheduler.schedulerConfig
        (scheduler.includeRunning scheduler.newBudget) scheduler.running := by
  have hle : (scheduler.running : Multiset SequenceGroup) + 0 ≤ scheduler.config.held := by
    rw [add_zero]
    calc
      _ ≤ (scheduler.running : Multiset SequenceGroup) + (scheduler.waiting + scheduler.swapped) :=
        Multiset.le_add_right _ _
      _ = _ := by
        simp only [held, config, Multiset.map_zero, add_zero]
        abel
  rcases (budgeted_new scheduler.config scheduler.schedulerConfig rfl).foldl_addNumberSequences
    hsimple hle (fun group hgroup => hok.getMaxNumRunningSeqs_of_running hgroup)
    with ⟨budget, hbudget, hbudgeted⟩
  rw [add_zero, ← hbudget] at hbudgeted
  exact hbudgeted

end Start

namespace RunningVars

variable {enableChunking : Bool} {refs : List SequenceRef} {base : Config}
variable {limits : SchedulerConfig} {vars : RunningVars}

/--
Under the default policy every group that is scheduled decodes, so there are not more tokens than
sequences.
-/
theorem Counted.numBatchedTokens_le (h : vars.Counted enableChunking refs base limits)
    (hlimits : limits.maxNumSequences ≤ limits.maxNumBatchedTokens)
    : vars.budget.numBatchedTokens ≤ limits.maxNumBatchedTokens := by
  cases henable : enableChunking with
  | true => exact (h.chunked henable).1
  | false =>
    rcases h.budgeted with ⟨counted, hbudgeted, -⟩
    have hones : (vars.config base).scheduled.map (·.tokenChunkSize)
        = (vars.config base).scheduled.map fun _ => 1 :=
      Multiset.map_congr rfl (h.decodes henable).2
    have hcard : vars.budget.numBatchedTokens
        = Multiset.card ((vars.config base).scheduled.map (·.scheduledGroup)) := by
      rw [hbudgeted.tokens_eq, hones]
      simp
    calc vars.budget.numBatchedTokens
      _ ≤ (((vars.config base).scheduled.map (·.scheduledGroup)).map SequenceGroup.width).sum := by
        rw [hcard]
        exact SequenceGroup.card_le_sum_width _
      _ ≤ limits.maxNumSequences :=
        (SequenceGroup.sum_width_le (Multiset.le_add_left _ _)).trans h.width_le
      _ ≤ limits.maxNumBatchedTokens := hlimits

theorem Counted.sum_width_counted_le {counted : Multiset SequenceGroup}
    (h : vars.Counted enableChunking refs base limits)
    (htracks : Tracks enableChunking base limits vars counted)
    : (counted.map SequenceGroup.width).sum ≤ limits.maxNumSequences := by
  cases enableChunking with
  | true =>
    have htracks : counted = _ := htracks
    rw [htracks]
    exact (SequenceGroup.sum_width_le (Multiset.le_add_left _ _)).trans h.width_le
  | false => exact htracks.1

/--
The loop has counted just the groups that are scheduled, when it has counted all of them, as it has
with chunked prefills or when none was preempted.
-/
theorem Counted.withinBudget (h : vars.Counted enableChunking refs base limits)
    (hlimits : limits.maxNumSequences ≤ limits.maxNumBatchedTokens)
    (hcurrent : vars.current = none)
    (hqueue : vars.runningQueue = []
      ∨ enableChunking = true ∧ limits.maxNumBatchedTokens ≤ vars.budget.numBatchedTokens)
    (hkeeps : enableChunking = true
      ∨ vars.outputs.preempted = [] ∧ vars.outputs.swappedOut = [])
    : (vars.config base).WithinBudget limits vars.budget 0 := by
  have hrunning : (vars.config base).running = vars.runningQueue := by simp [config, hcurrent]
  rcases h.budgeted with ⟨counted, hbudgeted, htracks⟩
  have hcounted : counted = (vars.config base).scheduled.map (·.scheduledGroup) := by
    cases enableChunking with
    | true => exact htracks
    | false =>
      rcases hkeeps with henable | ⟨hpreempted, hswappedOut⟩
      . cases henable
      . rcases hqueue with hqueue | ⟨henable, -⟩
        . rw [htracks.2 hpreempted hswappedOut, hrunning, hqueue]
          exact zero_add _
        . cases henable
  rw [hcounted, ← zero_add ((vars.config base).scheduled.map (·.scheduledGroup))] at hbudgeted
  refine ⟨h.simple, hbudgeted, Multiset.zero_le _, h.numBatchedTokens_le hlimits, h.width_le, ?_⟩
  rcases hqueue with hqueue | ⟨-, hspent⟩
  . left
    rw [hrunning, hqueue]
    rfl
  . exact .inr hspent

end RunningVars

namespace PolicyVars

variable {enableChunking : Bool} {refs : List SequenceRef} {limits : SchedulerConfig}
variable {extra : Multiset SequenceGroup} {vars : PolicyVars} {instants : Instants}

/--
The variables of a policy between two of its calls, when the budget is used up by what is scheduled
and by `extra`.
-/
structure Within (enableChunking : Bool) (refs : List SequenceRef) (limits : SchedulerConfig)
    (extra : Multiset SequenceGroup) (vars : PolicyVars) : Prop where
  ok : vars.config.OK enableChunking refs
  unwindowed : vars.scheduler.memory.Unwindowed
  within : vars.config.WithinBudget limits vars.budget extra

/--
The variables of a policy after its calls. Here the budget may have counted groups that were
preempted afterwards.
-/
structure Done (enableChunking : Bool) (refs : List SequenceRef) (limits : SchedulerConfig)
    (vars : PolicyVars) : Prop where
  ok : vars.config.OK enableChunking refs
  unwindowed : vars.scheduler.memory.Unwindowed
  simple : vars.config.Simple
  budgeted : ∃ counted,
    vars.config.Budgeted limits vars.budget counted
      ∧ (counted.map SequenceGroup.width).sum ≤ limits.maxNumSequences
  numBatchedTokens_le : vars.budget.numBatchedTokens ≤ limits.maxNumBatchedTokens
  width_le : ((vars.config.running + vars.config.scheduled.map (·.scheduledGroup)).map
    SequenceGroup.width).sum ≤ limits.maxNumSequences
  decodes : enableChunking = false →
    vars.runningScheduled.prefillSeqGroups = [] ∧ vars.swappedIn.prefillSeqGroups = []

theorem Within.done (h : vars.Within enableChunking refs limits extra)
    (hdecodes : enableChunking = false →
      vars.runningScheduled.prefillSeqGroups = [] ∧ vars.swappedIn.prefillSeqGroups = [])
    : vars.Done enableChunking refs limits := by
  refine ⟨h.ok, h.unwindowed, h.within.simple, ⟨_, h.within.budgeted, ?_⟩,
    h.within.numBatchedTokens_le, h.within.width_le, hdecodes⟩
  rw [← h.within.budgeted.counts.numCurrSeqs_eq]
  exact h.within.numCurrSeqs_le

theorem Within.counted_prefillStart (h : vars.Within enableChunking refs limits extra)
    (hprefills : vars.prefills = SchedulerPrefillOutputs.createEmpty)
    : (PrefillVars.start vars.scheduler vars.remainingWaiting vars.budget).Counted enableChunking refs
        { vars.config with waiting := vars.runningScheduled.preempted } limits extra := by
  have hstart : (PrefillVars.start vars.scheduler vars.remainingWaiting vars.budget).config
      { vars.config with waiting := vars.runningScheduled.preempted } = vars.config := by
    simp only [PrefillVars.start, PrefillVars.config, config, hprefills,
      SchedulerPrefillOutputs.createEmpty, Multiset.coe_nil, zero_add, add_zero]
  refine ⟨?_, h.unwindowed, ?_⟩
  . rw [hstart]
    exact h.ok
  . rw [hstart]
    exact h.within

variable (instants) in
/--
`schedule_prefills` returns, unless the budget is exhausted before the loop notices.
-/
theorem Within.exists_schedulePrefills (h : vars.Within enableChunking refs limits extra)
    (hprefills : vars.prefills = SchedulerPrefillOutputs.createEmpty)
    (hroom : enableChunking = true →
      ∀ prefills,
        (prefillLoop enableChunking instants.prefills).Reaches
            (PrefillVars.start vars.scheduler vars.remainingWaiting vars.budget) prefills
          → ¬ prefills.Exhausted instants.prefills)
    : ∃ vars',
        vars.schedulePrefills enableChunking instants = .ok vars'
          ∧ vars'.Within enableChunking refs limits extra := by
  rcases (h.counted_prefillStart hprefills).exists_run hroom with ⟨final, hrun, hok, hnone, hwithin⟩
  rw [← config_afterPrefills final hprefills] at hok hwithin
  unfold PolicyVars.schedulePrefills Scheduler.schedulePrefills
  rw [hrun]
  simp only [bind, Except.bind]
  by_cases hempty : final.outputs.sequenceGroups.isEmpty = true
  . rw [if_pos hempty]
    exact ⟨vars.afterPrefills final, rfl, hok, hnone, hwithin⟩
  . rw [if_neg hempty]
    exact ⟨vars.afterPrefills { final with scheduler.previousPrompt := true }, rfl, hok, hnone,
      hwithin⟩

section Running

variable {final : RunningVars}

variable (instants) in
theorem counted_swappedStart (hfinal : final.Counted enableChunking refs vars.config limits)
    (hlimits : limits.maxNumSequences ≤ limits.maxNumBatchedTokens)
    (hrunning : vars.runningScheduled = SchedulerRunningOutputs.createEmpty)
    (hswapped : vars.swappedIn = SchedulerSwappedInOutputs.createEmpty)
    (hcurrent : final.current = none)
    (hqueue : final.runningQueue = []
      ∨ enableChunking = true ∧ limits.maxNumBatchedTokens ≤ final.budget.numBatchedTokens)
    (hpreempted : final.outputs.preempted = []) (hswappedOut : final.outputs.swappedOut = [])
    : (vars.swappedStart instants final).Counted enableChunking refs
        (vars.afterRunning final).config limits := by
  have hafter := config_afterRunning hrunning hswapped hcurrent
  have hstart : (vars.swappedStart instants final).config (vars.afterRunning final).config
      = (vars.afterRunning final).config := by
    have hsort : (FcfsPolicy.sortByPriority instants.swapped vars.remainingSwapped
        : Multiset SequenceGroup) = vars.remainingSwapped :=
      Multiset.coe_eq_coe.mpr (FcfsPolicy.sortByPriority_perm _ _)
    simp [swappedStart, SwappedVars.start, SwappedVars.config, afterRunning, config,
      hswapped, hswappedOut, SchedulerSwappedInOutputs.createEmpty, hsort]
  refine ⟨?_, hfinal.unwindowed, ?_⟩
  . rw [hstart, hafter]
    exact hfinal.inv.ok
  . rw [hstart, hafter]
    exact hfinal.withinBudget hlimits hcurrent hqueue (.inr ⟨hpreempted, hswappedOut⟩)

/--
Nothing is swapped in before something is swapped out.
-/
theorem blocksToSwapOut_eq (hfinal : final.Counted enableChunking refs vars.config limits)
    (hrunning : vars.runningScheduled = SchedulerRunningOutputs.createEmpty)
    (hswappedOut : final.outputs.swappedOut = [])
    : (vars.afterRunning final).config.blocksToSwapOut = ∅ := by
  refine (hfinal.inv.schedulesOut hswappedOut).trans ?_
  simp [config, hrunning, SchedulerRunningOutputs.createEmpty]

end Running

/--
`schedule_running` and `schedule_swapped` return, unless a group cannot be swapped out or, under the
default policy, a group in its prefill phase is scheduled.
-/
theorem exists_scheduleRunningAndSwapped
    (hstart : (vars.runningStart instants).Counted enableChunking refs vars.config limits)
    (hlimits : limits.maxNumSequences ≤ limits.maxNumBatchedTokens)
    (hrunning : vars.runningScheduled = SchedulerRunningOutputs.createEmpty)
    (hswapped : vars.swappedIn = SchedulerSwappedInOutputs.createEmpty)
    (hroom : ∀ running,
      (runningLoop enableChunking).Reaches (vars.runningStart instants) running
        → ¬ running.CannotSwapOut)
    (hstage : enableChunking = false → ∀ running,
      (runningLoop enableChunking).Reaches (vars.runningStart instants) running
        → ¬ running.SchedulesPrefill)
    (hstage' : enableChunking = false → ∀ running,
      (runningLoop enableChunking).run (vars.runningStart instants) = .ok running
        → running.outputs.preempted = []
        → running.outputs.swappedOut = []
        → ∀ swapped,
            (swappedLoop enableChunking).Reaches (vars.swappedStart instants running) swapped
              → ¬ swapped.SchedulesPrefill enableChunking)
    : ∃ vars',
        vars.scheduleRunningAndSwapped enableChunking instants = .ok vars'
          ∧ vars'.Done enableChunking refs limits
          ∧ (enableChunking = true → vars'.Within enableChunking refs limits 0) := by
  have hin : vars.config.blocksToSwapIn = ∅ := by
    simp [config, hswapped, SchedulerSwappedInOutputs.createEmpty]
  rcases hstart.exists_run hin hroom hstage with ⟨final, hrun, hfinal, hcurrent, hqueue⟩
  have hafter := config_afterRunning hrunning hswapped hcurrent
  have hprefill : enableChunking = false → final.outputs.prefillSeqGroups = [] :=
    fun henable => (hfinal.decodes henable).1
  unfold scheduleRunningAndSwapped
  have hrun' : scheduleRunning vars.scheduler vars.remainingRunning vars.budget enableChunking
      instants.running = .ok final := hrun
  rw [hrun']
  simp only [bind, Except.bind]
  by_cases hnone : final.outputs.preempted.length + final.outputs.swappedOut.length = 0
  . have hpreempted : final.outputs.preempted = [] := List.eq_nil_of_length_eq_zero (by omega)
    have hswappedOut : final.outputs.swappedOut = [] := List.eq_nil_of_length_eq_zero (by omega)
    have hcounted : (vars.swappedStart instants final).Counted enableChunking refs
        (vars.afterRunning final).config limits :=
      counted_swappedStart instants hfinal hlimits hrunning hswapped hcurrent hqueue hpreempted
        hswappedOut
    have hout := blocksToSwapOut_eq hfinal hrunning hswappedOut
    rcases hcounted.exists_run hout with ⟨swapped, hswap, hok, hnone', hwithin⟩
    have hlast : ((vars.afterRunning final).afterSwapped swapped).config = _ :=
      config_afterSwapped swapped hswappedOut hswapped
    rw [← hlast] at hok hwithin
    have hresult : Within enableChunking refs limits 0
        ((vars.afterRunning final).afterSwapped swapped) := ⟨hok, hnone', hwithin⟩
    have hswap' : scheduleSwapped final.scheduler vars.remainingSwapped final.budget enableChunking
        instants.swapped = .ok swapped := hswap
    rw [if_pos hnone, hswap']
    refine ⟨_, rfl, hresult.done ?_, fun _ => hresult⟩
    intro henable
    refine ⟨hprefill henable, ?_⟩
    change swapped.outputs.prefillSeqGroups = []
    by_contra hsome
    rcases (hcounted.run_prefillSeqGroups hout hswap).mp hsome with hfirst | ⟨current, hreach, hstep⟩
    . exact hfirst rfl
    . exact hstage' henable final hrun hpreempted hswappedOut current hreach hstep
  . rw [if_neg hnone]
    refine ⟨vars.afterRunning final, rfl, ⟨?_, hfinal.unwindowed, ?_, ?_, ?_, ?_, ?_⟩, ?_⟩
    . exact hafter ▸ hfinal.inv.ok
    . exact hafter ▸ hfinal.simple
    . rcases hfinal.budgeted with ⟨counted, hbudgeted, htracks⟩
      exact ⟨counted, hafter ▸ hbudgeted, hfinal.sum_width_counted_le htracks⟩
    . exact hfinal.numBatchedTokens_le hlimits
    . exact hafter ▸ hfinal.width_le
    . intro henable
      refine ⟨hprefill henable, ?_⟩
      change vars.swappedIn.prefillSeqGroups = []
      rw [hswapped]
      rfl
    . intro henable
      refine ⟨hafter ▸ hfinal.inv.ok, hfinal.unwindowed, ?_⟩
      rw [hafter]
      exact hfinal.withinBudget hlimits hcurrent hqueue (.inl henable)

end PolicyVars

section Metadata

variable (scheduler : Scheduler) (now : Nat)

theorem exists_groupMetadata {scheduled : ScheduledSequenceGroup} {seq : SequenceRef}
    (hsingle : scheduled.scheduledGroup.sequences = [seq])
    : ∃ metadata scheduler', scheduler.groupMetadata now scheduled = .ok (metadata, scheduler') := by
  have hsample (current : Scheduler)
      : ∃ doSample,
          current.doSample scheduled.scheduledGroup scheduled.tokenChunkSize = .ok doSample := by
    unfold doSample
    rw [hsingle]
    split
    . exact ⟨_, rfl⟩
    . exact ⟨_, rfl⟩
  rcases hsample (scheduler.collectSequences now scheduled.scheduledGroup).2.2 with ⟨doSample, hok⟩
  unfold groupMetadata
  dsimp only
  rw [hok]
  exact ⟨_, _, rfl⟩

/--
The metadata of groups with one sequence are made without an error.
-/
theorem exists_groupsMetadata {scheduledGroups : List ScheduledSequenceGroup}
    (hsingle : ∀ scheduled ∈ scheduledGroups, ∃ seq, scheduled.scheduledGroup.sequences = [seq])
    : ∃ result, scheduler.groupsMetadata now scheduledGroups = .ok result := by
  unfold groupsMetadata
  refine Except.exists_foldlM (fun acc scheduled hscheduled => ?_) ([], scheduler)
  rcases hsingle scheduled hscheduled with ⟨seq, hseq⟩
  rcases exists_groupMetadata acc.2 now hseq with ⟨metadata, next, hmetadata⟩
  dsimp only
  rw [hmetadata]
  exact ⟨_, rfl⟩

end Metadata

section Policies

variable (scheduler : Scheduler) (instants : Instants)

/--
A call of the chunked policy comes to an iteration of `schedule_prefills` with the variables `vars`.
-/
def ReachesWaiting (vars : PrefillVars) : Prop :=
  ∃ passed,
    (PolicyVars.start scheduler scheduler.newBudget).scheduleRunningAndSwapped true instants
        = .ok passed
      ∧ (prefillLoop true instants.prefills).Reaches
          (PrefillVars.start passed.scheduler passed.remainingWaiting passed.budget) vars

/--
The ways in which a call of `schedule` comes to a state that it does not get out of.
-/
inductive Stuck : Prop where
  | swapOut (vars : RunningVars) (hreach : scheduler.ReachesRunning instants vars)
      (hroom : vars.CannotSwapOut)
  | running (vars : RunningVars) (hdefault : scheduler.schedulerConfig.enableChunkedPrefill = false)
      (hreach : scheduler.ReachesRunning instants vars) (hprefill : vars.SchedulesPrefill)
  | swapped (vars : SwappedVars) (hdefault : scheduler.schedulerConfig.enableChunkedPrefill = false)
      (hreach : scheduler.ReachesSwappedIn instants vars) (hprefill : vars.SchedulesPrefill false)
  | tokens (vars : PrefillVars) (hchunked : scheduler.schedulerConfig.enableChunkedPrefill = true)
      (hreach : scheduler.ReachesWaiting instants vars) (hspent : vars.Exhausted instants.prefills)

/--
What a call of `schedule` relies on: the groups have one sequence and their own request identifiers,
and those that run keep to the limits.
-/
structure Ready (refs : List SequenceRef) (scheduler : Scheduler) : Prop where
  ok : scheduler.config.OK false refs
  unwindowed : scheduler.memory.Unwindowed
  simple : scheduler.config.Simple
  limits : scheduler.schedulerConfig.maxNumSequences ≤ scheduler.schedulerConfig.maxNumBatchedTokens
  width_le : ((scheduler.running : Multiset SequenceGroup).map SequenceGroup.width).sum
    ≤ scheduler.schedulerConfig.maxNumSequences

variable {scheduler instants} {refs : List SequenceRef}

variable (instants) in
theorem PolicyVars.counted_runningStart {enableChunking : Bool} {limits : SchedulerConfig}
    {vars : PolicyVars} (hok : vars.config.OK enableChunking refs)
    (hnone : vars.scheduler.memory.Unwindowed) (hsimple : vars.config.Simple)
    (hscheduled : vars.config.scheduled = 0)
    (hbudgeted : vars.config.Budgeted limits vars.budget
      (if enableChunking then 0 else vars.config.running))
    (hwidth : (vars.config.running.map SequenceGroup.width).sum ≤ limits.maxNumSequences)
    (hrunning : vars.runningScheduled = SchedulerRunningOutputs.createEmpty)
    (hswapped : vars.swappedIn = SchedulerSwappedInOutputs.createEmpty)
    : (vars.runningStart instants).Counted enableChunking refs vars.config limits := by
  have hstart : (vars.runningStart instants).config vars.config = vars.config := by
    have hsort : (FcfsPolicy.sortByPriority instants.running vars.remainingRunning
        : Multiset SequenceGroup) = vars.remainingRunning :=
      Multiset.coe_eq_coe.mpr (FcfsPolicy.sortByPriority_perm _ _)
    simp [runningStart, RunningVars.start, RunningVars.config, config, hrunning, hswapped,
      SchedulerRunningOutputs.createEmpty, SchedulerSwappedInOutputs.createEmpty, hsort]
  have hzero : vars.budget.numBatchedTokens = 0 := by
    rw [hbudgeted.tokens_eq, hscheduled]
    rfl
  refine ⟨⟨?_, fun _ _ _ hsome => (by cases hsome), fun _ => ?_, .nil _⟩, hnone, ?_,
    ⟨if enableChunking then 0 else vars.config.running, ?_, ?_⟩, ?_, ?_, ?_⟩
  . rw [hstart]
    exact hok
  . simp [runningStart, RunningVars.start, config, hrunning, SchedulerRunningOutputs.createEmpty]
  . rw [hstart]
    exact hsimple
  . rw [hstart]
    exact hbudgeted
  . unfold RunningVars.Tracks
    dsimp only
    rw [hstart, hscheduled]
    cases enableChunking with
    | true => simp only [if_true, Multiset.map_zero]
    | false =>
      simp only [Bool.false_eq_true, if_false, Multiset.map_zero, add_zero]
      exact ⟨hwidth, fun _ _ => trivial⟩
  . rw [hstart, hscheduled, Multiset.map_zero, add_zero]
    exact hwidth
  . intro _
    refine ⟨?_, fun _ _ hsome => (by cases hsome)⟩
    change vars.budget.numBatchedTokens ≤ _
    omega
  . intro _
    refine ⟨rfl, ?_⟩
    rw [hstart, hscheduled]
    exact fun _ hmem => absurd hmem (Multiset.notMem_zero _)

theorem Ready.within_start (h : scheduler.Ready refs)
    : PolicyVars.Within false refs scheduler.schedulerConfig scheduler.running
        (PolicyVars.start scheduler (scheduler.includeRunning scheduler.newBudget)) := by
  have hbudgeted := budgeted_includeRunning h.ok h.simple
  have hconfig := PolicyVars.config_start scheduler (scheduler.includeRunning scheduler.newBudget)
  refine ⟨by rw [hconfig]; exact h.ok, h.unwindowed, ?_⟩
  rw [hconfig]
  refine ⟨h.simple, ?_, le_rfl, ?_, ?_, .inl rfl⟩
  . change scheduler.config.Budgeted _ _ (_ + 0)
    rw [add_zero]
    exact hbudgeted
  . change (scheduler.includeRunning scheduler.newBudget).numBatchedTokens ≤ _
    rw [hbudgeted.tokens_eq]
    exact Nat.zero_le _
  . change (((scheduler.running : Multiset SequenceGroup) + 0).map SequenceGroup.width).sum ≤ _
    rw [add_zero]
    exact h.width_le

variable (instants) in
/--
The default policy calls `schedule_prefills` without an error.
-/
theorem Ready.exists_beforeRunning (h : scheduler.Ready refs)
    (hdefault : scheduler.schedulerConfig.enableChunkedPrefill = false)
    : ∃ before,
        scheduler.beforeRunning instants = .ok before
          ∧ before.Within false refs scheduler.schedulerConfig scheduler.running
          ∧ before.runningScheduled = SchedulerRunningOutputs.createEmpty
          ∧ before.swappedIn = SchedulerSwappedInOutputs.createEmpty
          ∧ before.remainingRunning = scheduler.running := by
  unfold beforeRunning
  rw [if_neg (by simp [hdefault])]
  dsimp only
  split
  . rcases h.within_start.exists_schedulePrefills instants rfl
      (fun henable => (by cases henable)) with ⟨before, hprefills, hwithin⟩
    have hkeeps := PolicyVars.keeps_of_schedulePrefills hprefills
    exact ⟨before, hprefills, hwithin, hkeeps.1, hkeeps.2.1, hkeeps.2.2.1⟩
  . exact ⟨_, rfl, h.within_start, rfl, rfl, rfl⟩

theorem defaultPasses_eq {before : PolicyVars}
    (hdefault : scheduler.schedulerConfig.enableChunkedPrefill = false)
    (hbefore : scheduler.beforeRunning instants = .ok before)
    : scheduler.defaultPasses instants
        =
      if before.prefills.sequenceGroups.isEmpty then before.scheduleRunningAndSwapped false instants
      else .ok before := by
  unfold beforeRunning at hbefore
  rw [if_neg (by simp [hdefault])] at hbefore
  unfold defaultPasses
  dsimp only at hbefore ⊢
  split at hbefore
  . next hempty =>
    rw [if_pos hempty, hbefore]
    rfl
  . next hempty =>
    rw [if_neg hempty]
    cases hbefore
    rfl

/--
The running groups go into the loop of `schedule_running` with room in the budget, for both policies.
-/
theorem Ready.counted_runningStart (h : scheduler.Ready refs) {before : PolicyVars}
    (hbefore : scheduler.beforeRunning instants = .ok before)
    (hnil : before.prefills.sequenceGroups = [])
    : (before.runningStart instants).Counted scheduler.schedulerConfig.enableChunkedPrefill refs
          before.config scheduler.schedulerConfig
        ∧ before.runningScheduled = SchedulerRunningOutputs.createEmpty
        ∧ before.swappedIn = SchedulerSwappedInOutputs.createEmpty := by
  cases henable : scheduler.schedulerConfig.enableChunkedPrefill with
  | true =>
    unfold beforeRunning at hbefore
    rw [if_pos henable] at hbefore
    cases hbefore
    refine ⟨PolicyVars.counted_runningStart instants ?_ h.unwindowed ?_ ?_ ?_ ?_ rfl rfl, rfl, rfl⟩
    . rw [PolicyVars.config_start]
      exact h.ok.of_scheduled_eq_zero rfl true
    . rw [PolicyVars.config_start]
      exact h.simple
    . rw [PolicyVars.config_start]
      rfl
    . rw [PolicyVars.config_start]
      exact budgeted_new scheduler.config scheduler.schedulerConfig rfl
    . rw [PolicyVars.config_start]
      exact h.width_le
  | false =>
    rcases h.exists_beforeRunning instants henable
      with ⟨before', hbefore', hwithin, hrunning, hswapped, hremaining⟩
    cases hbefore.symm.trans hbefore'
    have hscheduled : before.config.scheduled = 0 := by
      simp [PolicyVars.config, hnil, hrunning, hswapped, SchedulerRunningOutputs.createEmpty,
        SchedulerSwappedInOutputs.createEmpty]
    have hconfig : before.config.running = scheduler.running := by
      simp [PolicyVars.config, hremaining]
    have hbudgeted := hwithin.within.budgeted
    have hwidth := hwithin.within.width_le
    rw [hscheduled, Multiset.map_zero, add_zero] at hbudgeted hwidth
    exact ⟨PolicyVars.counted_runningStart instants hwithin.ok hwithin.unwindowed
      hwithin.within.simple hscheduled (by simpa [hconfig] using hbudgeted) hwidth hrunning hswapped,
      hrunning, hswapped⟩

/--
Up to the waiting groups, a call of `schedule` that does not get stuck goes on.
-/
theorem Ready.exists_scheduleRunningAndSwapped (h : scheduler.Ready refs)
    (hstuck : ¬ scheduler.Stuck instants) {before : PolicyVars}
    (hbefore : scheduler.beforeRunning instants = .ok before)
    (hnil : before.prefills.sequenceGroups = [])
    : ∃ vars,
        before.scheduleRunningAndSwapped scheduler.schedulerConfig.enableChunkedPrefill instants
            = .ok vars
          ∧ vars.Done scheduler.schedulerConfig.enableChunkedPrefill refs scheduler.schedulerConfig
          ∧ (scheduler.schedulerConfig.enableChunkedPrefill = true →
              vars.Within scheduler.schedulerConfig.enableChunkedPrefill refs
                scheduler.schedulerConfig 0) := by
  rcases h.counted_runningStart hbefore hnil with ⟨hstart, hrunning, hswapped⟩
  refine PolicyVars.exists_scheduleRunningAndSwapped hstart h.limits hrunning hswapped ?_ ?_ ?_
  . intro running hreach hroom
    exact hstuck (.swapOut running ⟨before, hbefore, hnil, hreach⟩ hroom)
  . intro hdefault running hreach hprefill
    exact hstuck (.running running hdefault ⟨before, hbefore, hnil, hreach⟩ hprefill)
  . intro hdefault running hrun hpreempted hswappedOut swapped hreach hprefill
    rw [hdefault] at hprefill
    exact hstuck (.swapped swapped hdefault
      ⟨before, running, hbefore, hnil, hrun, hpreempted, hswappedOut, hreach⟩ hprefill)

theorem Ready.exists_defaultPasses (h : scheduler.Ready refs)
    (hdefault : scheduler.schedulerConfig.enableChunkedPrefill = false)
    (hstuck : ¬ scheduler.Stuck instants)
    : ∃ vars,
        scheduler.defaultPasses instants = .ok vars
          ∧ vars.Done false refs scheduler.schedulerConfig := by
  rcases h.exists_beforeRunning instants hdefault
    with ⟨before, hbefore, hwithin, hrunning, hswapped, -⟩
  rw [defaultPasses_eq hdefault hbefore]
  by_cases hempty : before.prefills.sequenceGroups.isEmpty = true
  . rw [if_pos hempty]
    rcases h.exists_scheduleRunningAndSwapped hstuck hbefore (List.isEmpty_iff.mp hempty)
      with ⟨vars, hok, hdone, -⟩
    rw [hdefault] at hok hdone
    exact ⟨vars, hok, hdone⟩
  . rw [if_neg hempty]
    refine ⟨before, rfl, hwithin.done fun _ => ?_⟩
    rw [hrunning, hswapped]
    exact ⟨rfl, rfl⟩

theorem beforeRunning_of_chunked
    (hchunked : scheduler.schedulerConfig.enableChunkedPrefill = true)
    : scheduler.beforeRunning instants = .ok (PolicyVars.start scheduler scheduler.newBudget) := by
  unfold beforeRunning
  rw [if_pos hchunked]

theorem Ready.exists_chunkedPasses (h : scheduler.Ready refs)
    (hchunked : scheduler.schedulerConfig.enableChunkedPrefill = true)
    (hstuck : ¬ scheduler.Stuck instants)
    : ∃ vars,
        scheduler.chunkedPasses instants = .ok vars
          ∧ vars.Done true refs scheduler.schedulerConfig := by
  rcases h.exists_scheduleRunningAndSwapped hstuck (beforeRunning_of_chunked hchunked) rfl
    with ⟨passed, hpassed, -, hwithin⟩
  have hwithin := hwithin hchunked
  rw [hchunked] at hpassed hwithin
  have hkeeps := PolicyVars.keeps_of_scheduleRunningAndSwapped hpassed
  have hroom : true = true → ∀ prefills,
      (prefillLoop true instants.prefills).Reaches
          (PrefillVars.start passed.scheduler passed.remainingWaiting passed.budget) prefills
        → ¬ prefills.Exhausted instants.prefills :=
    fun _ prefills hreach hspent =>
      hstuck (.tokens prefills hchunked ⟨passed, hpassed, hreach⟩ hspent)
  rcases hwithin.exists_schedulePrefills instants hkeeps.1 hroom with ⟨vars, hprefills, hdone⟩
  refine ⟨vars, ?_, hdone.done fun henable => (by cases henable)⟩
  exact Except.bind_eq_ok.mpr ⟨passed, hpassed, hprefills⟩

theorem Config.Simple.of_le {c c' : Config} (h : c.Simple) (hle : c'.held ≤ c.held)
    (hmemory : c'.memory = c.memory) : c'.Simple := by
  constructor
  . intro group hgroup
    rw [hmemory]
    exact h.single group (Multiset.mem_of_le hle hgroup)
  . exact Multiset.nodup_of_le (Multiset.map_le_map hle) h.nodup

section Ends

variable {enableChunking : Bool} {limits : SchedulerConfig} {vars : PolicyVars}
variable {outputs : SchedulerOutputs} {lost : Multiset SequenceGroup} {scheduler' : Scheduler}

theorem PolicyVars.Done.checkBudget_eq_ok
    (h : vars.Done enableChunking refs scheduler.schedulerConfig)
    : scheduler.checkBudget vars.budget = .ok () := by
  rcases h.budgeted with ⟨counted, hbudgeted, hwidth⟩
  rw [← hbudgeted.counts.numCurrSeqs_eq] at hwidth
  have htokens := h.numBatchedTokens_le
  unfold checkBudget
  rw [if_neg (by omega), if_neg (by omega)]

theorem PolicyVars.Done.ready (h : vars.Done enableChunking refs limits)
    (hsettles : vars.config.Settles lost outputs scheduler')
    (hconfig : scheduler'.schedulerConfig = limits)
    (hlimits : limits.maxNumSequences ≤ limits.maxNumBatchedTokens) : scheduler'.Ready refs := by
  refine ⟨hsettles.ok h.ok, ?_, ?_, hconfig ▸ hlimits, ?_⟩
  . rw [hsettles.memory_eq]
    exact h.unwindowed
  . refine h.simple.of_le ?_ hsettles.memory_eq
    rw [hsettles.held_eq]
    exact Multiset.le_add_right _ _
  . rw [hconfig]
    refine le_trans (SequenceGroup.sum_width_le ?_) h.width_le
    rw [← hsettles.running_add]
    exact Multiset.le_add_right _ _

/--
The batch keeps to the limits of the configuration.
-/
structure KeepsLimits (limits : SchedulerConfig) (outputs : SchedulerOutputs) : Prop where
  tokens_le : (outputs.scheduledSequenceGroups.map (·.tokenChunkSize)).sum
    ≤ limits.maxNumBatchedTokens
  length_le : outputs.scheduledSequenceGroups.length ≤ limits.maxNumSequences

theorem PolicyVars.Done.keepsLimits (h : vars.Done enableChunking refs limits)
    (hsettles : vars.config.Settles lost outputs scheduler') : KeepsLimits limits outputs := by
  have hscheduled := hsettles.scheduled_eq
  rcases h.budgeted with ⟨counted, hbudgeted, -⟩
  constructor
  . have htokens := h.numBatchedTokens_le
    rw [hbudgeted.tokens_eq, ← hscheduled, Multiset.map_coe, Multiset.sum_coe] at htokens
    exact htokens
  . calc outputs.scheduledSequenceGroups.length
      _ = Multiset.card (vars.config.scheduled.map (·.scheduledGroup)) := by
        rw [← hscheduled, Multiset.card_map, Multiset.coe_card]
      _ ≤ ((vars.config.scheduled.map (·.scheduledGroup)).map SequenceGroup.width).sum :=
        SequenceGroup.card_le_sum_width _
      _ ≤ limits.maxNumSequences :=
        (SequenceGroup.sum_width_le (Multiset.le_add_left _ _)).trans h.width_le

/--
A pass that does not get stuck returns.
-/
theorem Ready.exists_schedulePolicy (h : scheduler.Ready refs) (hstuck : ¬ scheduler.Stuck instants)
    : ∃ outputs scheduler',
        scheduler.schedulePolicy instants = .ok (outputs, scheduler')
          ∧ scheduler'.Ready refs
          ∧ KeepsLimits scheduler.schedulerConfig outputs
          ∧ ∀ scheduled ∈ outputs.scheduledSequenceGroups,
              ∃ seq, scheduled.scheduledGroup.sequences = [seq] := by
  have hsingle {enableChunking : Bool} {vars : PolicyVars} {lost : Multiset SequenceGroup}
      {outputs : SchedulerOutputs} {scheduler' : Scheduler}
      (hdone : vars.Done enableChunking refs scheduler.schedulerConfig)
      (hsettles : vars.config.Settles lost outputs scheduler')
      : ∀ scheduled ∈ outputs.scheduledSequenceGroups,
          ∃ seq, scheduled.scheduledGroup.sequences = [seq] := by
    intro scheduled hscheduled
    have hmem : scheduled ∈ (outputs.scheduledSequenceGroups : Multiset _) := hscheduled
    rw [hsettles.scheduled_eq] at hmem
    rcases hdone.ok.scheduled scheduled hmem with ⟨seq, -, hgroup, -⟩
    exact ⟨seq, hgroup⟩
  unfold schedulePolicy
  cases henable : scheduler.schedulerConfig.enableChunkedPrefill with
  | true =>
    rw [if_pos rfl]
    rcases h.exists_chunkedPasses henable hstuck with ⟨vars, hpasses, hdone⟩
    have hok : ∃ result, scheduler.scheduleChunkedPrefill instants = .ok result := by
      unfold scheduleChunkedPrefill
      rw [hpasses]
      simp only [bind, Except.bind, hdone.checkBudget_eq_ok]
      exact ⟨_, rfl⟩
    rcases hok with ⟨⟨outputs, scheduler'⟩, hok⟩
    rcases scheduleChunkedPrefill_moves hok (h.ok.of_scheduled_eq_zero rfl true)
      with ⟨vars', hpasses', -, hsettles⟩
    cases hpasses.symm.trans hpasses'
    have hconfig : scheduler'.schedulerConfig = scheduler.schedulerConfig := by
      rcases scheduleChunkedPrefill_eq_ok hok with ⟨vars', running, hpasses', -, -, rfl, -⟩
      exact schedulerConfig_of_chunkedPasses hpasses'
    exact ⟨outputs, scheduler', hok, hdone.ready hsettles hconfig h.limits,
      hdone.keepsLimits hsettles, hsingle hdone hsettles⟩
  | false =>
    rw [if_neg (by simp)]
    rcases h.exists_defaultPasses henable hstuck with ⟨vars, hpasses, hdone⟩
    rcases hdone.decodes rfl with ⟨hrunning, hswapped⟩
    have hok : ∃ result, scheduler.scheduleDefault instants = .ok result := by
      unfold scheduleDefault
      rw [hpasses]
      simp only [bind, Except.bind, hdone.checkBudget_eq_ok, hrunning, hswapped,
        List.isEmpty_nil, Bool.not_true, Bool.false_eq_true, if_false]
      exact ⟨_, rfl⟩
    rcases hok with ⟨⟨outputs, scheduler'⟩, hok⟩
    rcases scheduleDefault_moves hok h.ok with ⟨vars', hpasses', -, hsettles⟩
    cases hpasses.symm.trans hpasses'
    have hconfig : scheduler'.schedulerConfig = scheduler.schedulerConfig := by
      rcases scheduleDefault_eq_ok hok with ⟨vars', running, hpasses', -, -, -, -, rfl, -⟩
      exact schedulerConfig_of_defaultPasses hpasses'
    exact ⟨outputs, scheduler', hok, hdone.ready hsettles hconfig h.limits,
      hdone.keepsLimits hsettles, hsingle hdone hsettles⟩

theorem Ready.of_sameButAccess (h : scheduler.Ready refs) (hsame : scheduler.SameButAccess scheduler')
    : scheduler'.Ready refs := by
  rcases hsame with ⟨manager, rfl, hmanager⟩
  have hnone : manager.blockSlidingWindow = none := by
    rcases hmanager with ⟨blocks, rfl, -⟩
    exact h.unwindowed
  exact ⟨⟨h.ok.sound.of_sameButAccess hmanager, h.ok.distinct, h.ok.mem_refs, h.ok.waiting,
    h.ok.running, h.ok.swapped, fun _ hscheduled => absurd hscheduled (Multiset.notMem_zero _)⟩,
    hnone, ⟨h.simple.single, h.simple.nodup⟩, h.limits, h.width_le⟩

/--
A call of `schedule` that does not get stuck returns, and the batch keeps to the limits.
-/
theorem Ready.exists_schedule (h : scheduler.Ready refs) (hstuck : ¬ scheduler.Stuck instants)
    : ∃ metadata outputs scheduler',
        scheduler.schedule instants = .ok (metadata, outputs, scheduler')
          ∧ scheduler'.Ready refs
          ∧ KeepsLimits scheduler.schedulerConfig outputs := by
  rcases h.exists_schedulePolicy hstuck with ⟨outputs, passed, hpolicy, hready, hlimits, hsingle⟩
  rcases exists_groupsMetadata passed instants.schedule hsingle
    with ⟨⟨metadata, scheduler'⟩, hmetadata⟩
  refine ⟨metadata, outputs, scheduler', ?_, ?_, hlimits⟩
  . unfold schedule
    rw [hpolicy]
    simp only [bind, Except.bind, hmetadata]
    rfl
  . exact hready.of_sameButAccess (groupsMetadata_eq_ok hmetadata).1

end Ends

end Policies

end Scheduler

end AtomaInfer
