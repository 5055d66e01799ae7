import Mathlib.Data.List.Perm.Basic
import AtomaInfer.Scheduler.Steps

/-!
A scheduling pass moves the groups between the queues. The three loops lose none of them and create
none; what a policy then does with the lists that the loops return decides whether a group is lost.
-/

namespace AtomaInfer

namespace Scheduler

/--
The groups in the queues of the scheduler.
-/
def groups (scheduler : Scheduler) : List SequenceGroup :=
  scheduler.waiting ++ scheduler.running ++ scheduler.swapped

@[simp]
theorem groupsOf_nil : groupsOf [] = [] := rfl

@[simp]
theorem groupsOf_append (xs ys : List ScheduledSequenceGroup)
    : groupsOf (xs ++ ys) = groupsOf xs ++ groupsOf ys := by
  simp [groupsOf]

@[simp]
theorem groupsOf_singleton (scheduled : ScheduledSequenceGroup)
    : groupsOf [scheduled] = [scheduled.scheduledGroup] := rfl

theorem mem_groupsOf {scheduled : ScheduledSequenceGroup} {xs : List ScheduledSequenceGroup}
    (h : scheduled ∈ xs) : scheduled.scheduledGroup ∈ groupsOf xs :=
  List.mem_map_of_mem h

namespace RunningVars

variable {enableChunking : Bool} {vars vars' : RunningVars}

def groups (vars : RunningVars) : List SequenceGroup :=
  vars.runningQueue
    ++ (vars.current.map (·.1)).toList
    ++ groupsOf vars.outputs.decodeSeqGroups
    ++ groupsOf vars.outputs.prefillSeqGroups
    ++ vars.outputs.preempted
    ++ vars.outputs.swappedOut

theorem groupsOf_addScheduled (outputs : SchedulerRunningOutputs) (isPrefill : Bool)
    (group : SequenceGroup) (numTokens : Nat)
    : (groupsOf (outputs.addScheduled isPrefill group numTokens).decodeSeqGroups
        ++ groupsOf (outputs.addScheduled isPrefill group numTokens).prefillSeqGroups).Perm
      (group :: (groupsOf outputs.decodeSeqGroups ++ groupsOf outputs.prefillSeqGroups)) := by
  unfold SchedulerRunningOutputs.addScheduled
  rw [List.perm_iff_count]
  intro a
  split <;> simp [List.count_cons] <;> omega

theorem preempted_addScheduled (outputs : SchedulerRunningOutputs) (isPrefill : Bool)
    (group : SequenceGroup) (numTokens : Nat)
    : (outputs.addScheduled isPrefill group numTokens).preempted = outputs.preempted
        ∧ (outputs.addScheduled isPrefill group numTokens).swappedOut = outputs.swappedOut := by
  unfold SchedulerRunningOutputs.addScheduled
  split <;> simp

theorem groups_preempt {group : SequenceGroup} (h : vars.preempt group = .ok vars')
    : vars'.groups.Perm (group :: vars.groups) := by
  rw [List.perm_iff_count]
  intro a
  rcases preempt_eq_ok h with ⟨-, scheduler, -, rfl⟩ | ⟨-, blocksToSwapOut, scheduler, -, rfl⟩
  . simp [groups, List.count_cons]
    omega
  . simp [groups, List.count_cons]
    omega

theorem groups_schedule {group : SequenceGroup} {numRunningTokens : Nat}
    (h : vars.schedule enableChunking group numRunningTokens = .ok vars')
    : vars'.groups.Perm (group :: vars.groups) := by
  rcases schedule_eq_ok h with ⟨blocksToCopy, scheduler, -, rfl⟩
  have hadd := groupsOf_addScheduled vars.outputs (group.isPrefill scheduler.memory.sequences) group
    numRunningTokens
  have hpreempted := preempted_addScheduled vars.outputs
    (group.isPrefill scheduler.memory.sequences) group numRunningTokens
  rw [List.perm_iff_count] at hadd ⊢
  intro a
  have hadd := hadd a
  simp [groups, List.count_cons, hpreempted] at hadd ⊢
  omega

theorem Next.groups_perm (h : Next enableChunking vars vars') : vars'.groups.Perm vars.groups := by
  cases h with
  | take group runningQueue numRunningTokens hcurrent hqueue =>
    rw [List.perm_iff_count]
    intro a
    simp [groups, hcurrent, hqueue, List.count_cons]
    omega
  | preemptVictim group victim runningQueue numRunningTokens budget budget' vars'' hcurrent _ _ _
      hqueue hpreempt =>
    have hgroups := groups_preempt hpreempt
    have hvars : vars''.runningQueue = vars.runningQueue ∧ vars''.current = vars.current := by
      rcases preempt_eq_ok hpreempt with ⟨-, _, -, rfl⟩ | ⟨-, _, _, -, rfl⟩ <;> simp
    rw [List.perm_iff_count] at hgroups ⊢
    intro a
    have hgroups := hgroups a
    simp [groups, hvars, hqueue, List.count_cons] at hgroups ⊢
    omega
  | preemptSelf group numRunningTokens budget budget' vars'' hcurrent _ _ _ hqueue hpreempt =>
    have hgroups := groups_preempt hpreempt
    have hvars : vars''.runningQueue = vars.runningQueue ∧ vars''.current = vars.current := by
      rcases preempt_eq_ok hpreempt with ⟨-, _, -, rfl⟩ | ⟨-, _, _, -, rfl⟩ <;> simp
    rw [List.perm_iff_count] at hgroups ⊢
    intro a
    have hgroups := hgroups a
    simp [groups, hvars, hqueue, hcurrent, List.count_cons] at hgroups ⊢
    omega
  | schedule group numRunningTokens vars'' hcurrent _ hschedule =>
    have hgroups := groups_schedule hschedule
    have hvars : vars''.runningQueue = vars.runningQueue ∧ vars''.current = vars.current := by
      rcases schedule_eq_ok hschedule with ⟨_, _, -, rfl⟩
      simp
    rw [List.perm_iff_count] at hgroups ⊢
    intro a
    have hgroups := hgroups a
    simp [groups, hvars, hcurrent, List.count_cons] at hgroups ⊢
    omega

end RunningVars

theorem scheduleRunning_groups_perm {scheduler : Scheduler} {runningQueue : List SequenceGroup}
    {budget : SchedulingBudget} {enableChunking : Bool} {now : Nat} {vars : RunningVars}
    (h : scheduler.scheduleRunning runningQueue budget enableChunking now = .ok vars)
    : vars.groups.Perm runningQueue ∧ vars.current = none := by
  refine (runningLoop enableChunking).run_invariant
    (I := fun vars => vars.groups.Perm runningQueue)
    (Q := fun vars => vars.groups.Perm runningQueue ∧ vars.current = none) ?_ ?_ ?_ h
  . intro vars vars' hvars hstep
    exact (RunningVars.next_of_step hstep).groups_perm.trans hvars
  . intro vars vars' hvars hstep
    rcases RunningVars.of_step_eq_inr hstep with ⟨rfl, hcurrent, -⟩
    exact ⟨hvars, hcurrent⟩
  . simpa [RunningVars.groups, RunningVars.start, SchedulerRunningOutputs.createEmpty] using
      FcfsPolicy.sortByPriority_perm now runningQueue

namespace SwappedVars

variable {enableChunking : Bool} {vars vars' : SwappedVars}

def groups (vars : SwappedVars) : List SequenceGroup :=
  vars.swappedQueue
    ++ groupsOf vars.outputs.decodeSeqGroups
    ++ groupsOf vars.outputs.prefillSeqGroups
    ++ vars.outputs.infeasibleSeqGroups

theorem groups_schedule {group : SequenceGroup} {numNewTokens numNewSequences : Nat}
    (h : vars.schedule group numNewTokens numNewSequences = .ok vars')
    : vars'.groups.Perm (group :: vars.groups) := by
  rcases schedule_eq_ok h with ⟨blocksToSwapIn, blocksToCopy, scheduler, scheduler', -, -, rfl⟩
  unfold SchedulerSwappedInOutputs.addScheduled
  rw [List.perm_iff_count]
  intro a
  cases group.isPrefill scheduler'.memory.sequences <;> simp [groups, List.count_cons] <;> omega

theorem Next.groups_perm (h : Next enableChunking vars vars') : vars'.groups.Perm vars.groups := by
  cases h with
  | ignore group swappedQueue hqueue =>
    rw [List.perm_iff_count]
    intro a
    simp [groups, SwappedVars.ignore, hqueue, List.count_cons]
    omega
  | schedule group swappedQueue numNewTokens vars'' hqueue _ _ _ hschedule =>
    have hgroups := groups_schedule hschedule
    have hvars : vars''.swappedQueue = vars.swappedQueue := by
      rcases schedule_eq_ok hschedule with ⟨_, _, _, _, -, -, rfl⟩
      rfl
    rw [List.perm_iff_count] at hgroups ⊢
    intro a
    have hgroups := hgroups a
    simp [groups, hvars, hqueue, List.count_cons] at hgroups ⊢
    omega

end SwappedVars

theorem scheduleSwapped_groups_perm {scheduler : Scheduler} {swappedQueue : List SequenceGroup}
    {budget : SchedulingBudget} {enableChunking : Bool} {now : Nat} {vars : SwappedVars}
    (h : scheduler.scheduleSwapped swappedQueue budget enableChunking now = .ok vars)
    : vars.groups.Perm swappedQueue := by
  refine (swappedLoop enableChunking).run_invariant
    (I := fun vars => vars.groups.Perm swappedQueue)
    (Q := fun vars => vars.groups.Perm swappedQueue) ?_ ?_ ?_ h
  . intro vars vars' hvars hstep
    exact (SwappedVars.next_of_step hstep).groups_perm.trans hvars
  . intro vars vars' hvars hstep
    rwa [(SwappedVars.of_step_eq_inr hstep).1]
  . simpa [SwappedVars.groups, SwappedVars.start, SchedulerSwappedInOutputs.createEmpty] using
      FcfsPolicy.sortByPriority_perm now swappedQueue

namespace PrefillVars

variable {enableChunking : Bool} {now : Nat → Nat} {vars vars' : PrefillVars}

def groups (vars : PrefillVars) : List SequenceGroup :=
  vars.waitingQueue
    ++ groupsOf vars.outputs.sequenceGroups
    ++ vars.outputs.ignoredSequenceGroups

theorem Next.groups_perm (h : Next enableChunking now vars vars')
    : vars'.groups.Perm vars.groups := by
  rw [List.perm_iff_count]
  intro a
  cases h with
  | ignoreTooLong group waitingQueue numNewTokens hqueue =>
    simp [groups, PrefillVars.ignore, enter, hqueue, List.count_cons]
    omega
  | ignoreNever group waitingQueue numNewTokens hqueue =>
    simp [groups, PrefillVars.ignore, enter, hqueue, List.count_cons]
    omega
  | schedule group waitingQueue numNewTokens vars'' hqueue _ _ _ _ _ hschedule =>
    rcases schedule_eq_ok hschedule with ⟨scheduler, -, rfl⟩
    simp [groups, enter, hqueue, List.count_cons]
    omega

end PrefillVars

theorem schedulePrefills_groups_perm {scheduler : Scheduler} {waitingQueue : List SequenceGroup}
    {budget : SchedulingBudget} {enableChunking : Bool} {now : Nat → Nat} {vars : PrefillVars}
    (h : scheduler.schedulePrefills waitingQueue budget enableChunking now = .ok vars)
    : vars.groups.Perm waitingQueue := by
  simp only [schedulePrefills, Except.bind_eq_ok] at h
  rcases h with ⟨last, hrun, h⟩
  have hlast : last.groups.Perm waitingQueue := by
    refine (prefillLoop enableChunking now).run_invariant
      (I := fun vars => vars.groups.Perm waitingQueue)
      (Q := fun vars => vars.groups.Perm waitingQueue) ?_ ?_ ?_ hrun
    . intro vars vars' hvars hstep
      exact (PrefillVars.next_of_step hstep).groups_perm.trans hvars
    . intro vars vars' hvars hstep
      rcases PrefillVars.of_step_eq_inr hstep with rfl | rfl | rfl
      all_goals exact hvars
    . simp [PrefillVars.groups, PrefillVars.start, SchedulerPrefillOutputs.createEmpty]
  split at h <;> cases h <;> exact hlast

section Policies

variable {scheduler : Scheduler} {instants : Instants} {vars vars' : PolicyVars}

/--
All the groups that the local variables of a policy hold.
-/
def PolicyVars.groups (vars : PolicyVars) : List SequenceGroup :=
  vars.remainingWaiting ++ vars.remainingRunning ++ vars.remainingSwapped
    ++ groupsOf vars.prefills.sequenceGroups
    ++ vars.prefills.ignoredSequenceGroups
    ++ groupsOf vars.runningScheduled.decodeSeqGroups
    ++ groupsOf vars.runningScheduled.prefillSeqGroups
    ++ vars.runningScheduled.preempted
    ++ vars.runningScheduled.swappedOut
    ++ groupsOf vars.swappedIn.decodeSeqGroups
    ++ groupsOf vars.swappedIn.prefillSeqGroups
    ++ vars.swappedIn.infeasibleSeqGroups

theorem PolicyVars.groups_start (budget : SchedulingBudget)
    : (PolicyVars.start scheduler budget).groups = scheduler.groups := by
  simp [PolicyVars.groups, PolicyVars.start, Scheduler.groups, SchedulerPrefillOutputs.createEmpty,
    SchedulerRunningOutputs.createEmpty, SchedulerSwappedInOutputs.createEmpty]

theorem PolicyVars.keeps_of_schedulePrefills {enableChunking : Bool}
    (h : vars.schedulePrefills enableChunking instants = .ok vars')
    : vars'.runningScheduled = vars.runningScheduled
        ∧ vars'.swappedIn = vars.swappedIn
        ∧ vars'.remainingRunning = vars.remainingRunning
        ∧ vars'.remainingSwapped = vars.remainingSwapped := by
  simp only [PolicyVars.schedulePrefills, Except.bind_eq_ok] at h
  rcases h with ⟨prefills, -, hpure⟩
  cases hpure
  simp

theorem PolicyVars.keeps_of_scheduleRunningAndSwapped {enableChunking : Bool}
    (h : vars.scheduleRunningAndSwapped enableChunking instants = .ok vars')
    : vars'.prefills = vars.prefills ∧ vars'.remainingWaiting = vars.remainingWaiting := by
  simp only [PolicyVars.scheduleRunningAndSwapped, Except.bind_eq_ok] at h
  rcases h with ⟨running, -, hrest⟩
  split at hrest
  . rcases Except.bind_eq_ok.mp hrest with ⟨swapped, -, hpure⟩
    cases hpure
    simp
  . cases hrest
    simp

theorem PolicyVars.schedulerConfig_of_schedulePrefills {enableChunking : Bool}
    (h : vars.schedulePrefills enableChunking instants = .ok vars')
    : vars'.scheduler.schedulerConfig = vars.scheduler.schedulerConfig := by
  simp only [PolicyVars.schedulePrefills, Except.bind_eq_ok] at h
  rcases h with ⟨prefills, hrun, hpure⟩
  cases hpure
  exact Scheduler.schedulerConfig_of_schedulePrefills hrun

theorem PolicyVars.schedulerConfig_of_scheduleRunningAndSwapped {enableChunking : Bool}
    (h : vars.scheduleRunningAndSwapped enableChunking instants = .ok vars')
    : vars'.scheduler.schedulerConfig = vars.scheduler.schedulerConfig := by
  simp only [PolicyVars.scheduleRunningAndSwapped, Except.bind_eq_ok] at h
  rcases h with ⟨running, hrun, hrest⟩
  have hrunning := schedulerConfig_of_scheduleRunning hrun
  split at hrest
  . rcases Except.bind_eq_ok.mp hrest with ⟨swapped, hswap, hpure⟩
    cases hpure
    exact (schedulerConfig_of_scheduleSwapped hswap).trans hrunning
  . cases hrest
    exact hrunning

theorem PolicyVars.schedulePrefills_groups_perm {enableChunking : Bool}
    (h : vars.schedulePrefills enableChunking instants = .ok vars')
    (hprefills : vars.prefills = SchedulerPrefillOutputs.createEmpty)
    : vars'.groups.Perm vars.groups := by
  simp only [PolicyVars.schedulePrefills, Except.bind_eq_ok] at h
  rcases h with ⟨prefills, hrun, h⟩
  cases h
  have hgroups := Scheduler.schedulePrefills_groups_perm hrun
  rw [List.perm_iff_count] at hgroups ⊢
  intro a
  have hgroups := hgroups a
  simp [PolicyVars.groups, PrefillVars.groups, hprefills, SchedulerPrefillOutputs.createEmpty]
    at hgroups ⊢
  omega

theorem PolicyVars.scheduleRunningAndSwapped_groups_perm {enableChunking : Bool}
    (h : vars.scheduleRunningAndSwapped enableChunking instants = .ok vars')
    (hrunning : vars.runningScheduled = SchedulerRunningOutputs.createEmpty)
    (hswapped : vars.swappedIn = SchedulerSwappedInOutputs.createEmpty)
    : vars'.groups.Perm vars.groups := by
  simp only [PolicyVars.scheduleRunningAndSwapped, Except.bind_eq_ok] at h
  rcases h with ⟨running, hrun, h⟩
  have hgroups := scheduleRunning_groups_perm hrun
  split at h
  . rcases Except.bind_eq_ok.mp h with ⟨swapped, hswap, h⟩
    cases h
    have hgroups' := scheduleSwapped_groups_perm hswap
    rw [List.perm_iff_count] at hgroups' ⊢
    intro a
    have hgroups := (List.perm_iff_count.mp hgroups.1) a
    have hgroups' := hgroups' a
    simp [PolicyVars.groups, RunningVars.groups, SwappedVars.groups, hrunning, hswapped,
      SchedulerRunningOutputs.createEmpty, SchedulerSwappedInOutputs.createEmpty,
      (scheduleRunning_groups_perm hrun).2] at hgroups hgroups' ⊢
    omega
  . cases h
    rw [List.perm_iff_count]
    intro a
    have hgroups := (List.perm_iff_count.mp hgroups.1) a
    simp [PolicyVars.groups, RunningVars.groups, hrunning, hswapped,
      SchedulerRunningOutputs.createEmpty, SchedulerSwappedInOutputs.createEmpty,
      (scheduleRunning_groups_perm hrun).2] at hgroups ⊢
    omega

theorem defaultPasses_eq_ok (h : scheduler.defaultPasses instants = .ok vars)
    : ∃ vars',
        ((scheduler.swapped.isEmpty = true
            ∧ (PolicyVars.start scheduler (scheduler.includeRunning scheduler.newBudget)
                ).schedulePrefills false instants = .ok vars')
          ∨ (scheduler.swapped.isEmpty = false
            ∧ vars' = PolicyVars.start scheduler (scheduler.includeRunning scheduler.newBudget)))
        ∧ ((vars'.prefills.sequenceGroups.isEmpty = true
              ∧ vars'.scheduleRunningAndSwapped false instants = .ok vars)
            ∨ (vars'.prefills.sequenceGroups.isEmpty = false ∧ vars = vars')) := by
  have hrest : ∀ {vars' : PolicyVars},
      (if vars'.prefills.sequenceGroups.isEmpty then vars'.scheduleRunningAndSwapped false instants
        else pure vars') = .ok vars
      → (vars'.prefills.sequenceGroups.isEmpty = true
            ∧ vars'.scheduleRunningAndSwapped false instants = .ok vars)
          ∨ (vars'.prefills.sequenceGroups.isEmpty = false ∧ vars = vars') := by
    intro vars' h
    split at h
    . next hempty => exact .inl ⟨hempty, h⟩
    . next hempty =>
      cases h
      exact .inr ⟨by simpa using hempty, rfl⟩
  unfold defaultPasses at h
  dsimp only at h
  split at h
  . next hempty =>
    rcases Except.bind_eq_ok.mp h with ⟨vars', hprefills, h⟩
    exact ⟨vars', .inl ⟨hempty, hprefills⟩, hrest h⟩
  . next hempty => exact ⟨_, .inr ⟨by simpa using hempty, rfl⟩, hrest h⟩

theorem defaultPasses_groups_perm (h : scheduler.defaultPasses instants = .ok vars)
    : vars.groups.Perm scheduler.groups := by
  rcases defaultPasses_eq_ok h with ⟨vars', hprefills, hrest⟩
  have hvars' : vars'.groups.Perm scheduler.groups
      ∧ vars'.runningScheduled = SchedulerRunningOutputs.createEmpty
      ∧ vars'.swappedIn = SchedulerSwappedInOutputs.createEmpty := by
    rcases hprefills with ⟨-, hprefills⟩ | ⟨-, rfl⟩
    . have hgroups := PolicyVars.schedulePrefills_groups_perm hprefills rfl
      rw [PolicyVars.groups_start] at hgroups
      have hkeeps := PolicyVars.keeps_of_schedulePrefills hprefills
      exact ⟨hgroups, hkeeps.1, hkeeps.2.1⟩
    . rw [PolicyVars.groups_start]
      exact ⟨.refl _, rfl, rfl⟩
  rcases hrest with ⟨-, hrest⟩ | ⟨-, rfl⟩
  . have hgroups :=
      PolicyVars.scheduleRunningAndSwapped_groups_perm hrest hvars'.2.1 hvars'.2.2
    exact hgroups.trans hvars'.1
  . exact hvars'.1

theorem chunkedPasses_groups_perm (h : scheduler.chunkedPasses instants = .ok vars)
    : vars.groups.Perm scheduler.groups := by
  simp only [chunkedPasses, Except.bind_eq_ok] at h
  rcases h with ⟨vars', hrunning, h⟩
  have hgroups := PolicyVars.scheduleRunningAndSwapped_groups_perm hrunning rfl rfl
  rw [PolicyVars.groups_start] at hgroups
  have hkeeps := PolicyVars.keeps_of_scheduleRunningAndSwapped hrunning
  exact (PolicyVars.schedulePrefills_groups_perm h hkeeps.1).trans hgroups

end Policies

section Default

variable {scheduler scheduler' : Scheduler} {instants : Instants} {outputs : SchedulerOutputs}

theorem scheduleDefault_eq_ok (h : scheduler.scheduleDefault instants = .ok (outputs, scheduler'))
    : ∃ vars running,
        scheduler.defaultPasses instants = .ok vars
          ∧ scheduler.checkBudget vars.budget = .ok ()
          ∧ vars.runningScheduled.prefillSeqGroups = []
          ∧ vars.swappedIn.prefillSeqGroups = []
          ∧ running = vars.remainingRunning
              ++ groupsOf vars.prefills.sequenceGroups
              ++ groupsOf vars.runningScheduled.decodeSeqGroups
              ++ groupsOf vars.swappedIn.decodeSeqGroups
          ∧ scheduler' = vars.writeQueues running
          ∧ outputs = vars.outputs
              (vars.prefills.sequenceGroups
                ++ vars.runningScheduled.decodeSeqGroups
                ++ vars.swappedIn.decodeSeqGroups)
              vars.prefills.sequenceGroups.length
              (vars.prefills.ignoredSequenceGroups ++ vars.swappedIn.infeasibleSeqGroups)
              running := by
  simp only [scheduleDefault, Except.bind_eq_ok] at h
  rcases h with ⟨vars, hpasses, _, hbudget, h⟩
  split at h
  . cases h
  . next hrunning =>
    split at h
    . cases h
    . next hswapped =>
      cases h
      exact ⟨vars, _, hpasses, hbudget, by simpa using hrunning, by simpa using hswapped, rfl, rfl,
        rfl⟩

theorem scheduleDefault_groups_perm
    (h : scheduler.scheduleDefault instants = .ok (outputs, scheduler'))
    : (scheduler'.groups ++ outputs.ignoredSeqGroups).Perm scheduler.groups := by
  rcases scheduleDefault_eq_ok h
    with ⟨vars, running, hpasses, -, hrunning, hswapped, rfl, rfl, rfl⟩
  have hgroups := defaultPasses_groups_perm hpasses
  rw [List.perm_iff_count] at hgroups ⊢
  intro a
  have hgroups := hgroups a
  simp [PolicyVars.groups, PolicyVars.writeQueues, PolicyVars.outputs, Scheduler.groups, hrunning,
    hswapped] at hgroups ⊢
  omega

/--
The default policy keeps every group in exactly one queue or among the ignored ones.
-/
theorem scheduleDefault_conserves
    (h : scheduler.scheduleDefault instants = .ok (outputs, scheduler'))
    : (scheduler'.groups ++ outputs.ignoredSeqGroups).Perm scheduler.groups
        ∧ ((scheduler.groups.map (·.requestId)).Nodup
            → ((scheduler'.groups ++ outputs.ignoredSeqGroups).map (·.requestId)).Nodup)
        ∧ ∀ scheduled ∈ outputs.scheduledSequenceGroups,
            scheduled.scheduledGroup ∈ scheduler'.running := by
  have hperm := scheduleDefault_groups_perm h
  refine ⟨hperm, fun hnodup => (hperm.map _).nodup_iff.mpr hnodup, ?_⟩
  rcases scheduleDefault_eq_ok h with ⟨vars, running, -, -, -, -, rfl, rfl, rfl⟩
  intro scheduled hmem
  simp only [PolicyVars.outputs, List.mem_append] at hmem
  simp only [PolicyVars.writeQueues, List.mem_append]
  rcases hmem with (hmem | hmem) | hmem
  . exact .inl (.inl (.inr (mem_groupsOf hmem)))
  . exact .inl (.inr (mem_groupsOf hmem))
  . exact .inr (mem_groupsOf hmem)

/--
A group of one sequence with `sequenceId`.
-/
def singleGroup (requestId : String) (sequenceId arrivalTime : Nat) : SequenceGroup where
  requestId
  sequences := [⟨sequenceId, sequenceId⟩]
  arrivalTime
  nextTokenChooserParams := {
    n := 1
    bestOf := 1
    temperature := 1
    topK := 0
    topP := 1
    doSample := false
    randomSeed := 0
    repetitionPenalty := 1
    repeatLastN := 0
  }
  stoppingCriteria := { maxNewTokens := 4, stopSequences := [], ignoreEosToken := false }
  logitsProcessor := { seed := 0, sampling := .argMax }

/--
A waiting sequence with `promptTokenIds` in blocks of one token.
-/
def waitingSequence (promptTokenIds : List Nat) : Sequence where
  prompt := ""
  sequenceData := SequenceData.new promptTokenIds []
  blockSize := 1
  logicalTokenBlocks := promptTokenIds.mapIdx fun blockNumber tokenId =>
    { blockNumber, blockSize := 1, tokenIds := [tokenId], numTokens := 1 }
  outputText := ""
  outputLogprobs := []
  sequenceStatus := .waiting
  stopReason := none
  tokens := []

/--
The second of two waiting groups is too long for the model and ignored.
-/
theorem scheduleDefault_conserves_ignored
    : ∃ (scheduler : Scheduler) (instants : Instants) (outputs : SchedulerOutputs)
        (scheduler' : Scheduler),
        scheduler.scheduleDefault instants = .ok (outputs, scheduler')
          ∧ (scheduler.groups.map (·.requestId)).Nodup
          ∧ scheduler'.running = [singleGroup "a" 0 0]
          ∧ outputs.ignoredSeqGroups = [singleGroup "b" 1 1]
          ∧ (scheduler'.groups ++ outputs.ignoredSeqGroups).Perm scheduler.groups := by
  let heap : SequenceHeap := fun seq =>
    if seq.sequenceId = 0 then waitingSequence [5] else waitingSequence [6, 7, 8]
  let config : SchedulerConfig := ⟨2, 2, 2, 0, false⟩
  let scheduler := ((Scheduler.new config 1 4 4 none heap 0).addSequenceGroup
    (singleGroup "a" 0 0)).addSequenceGroup (singleGroup "b" 1 1)
  let instants : Instants := ⟨2, 2, fun _ => 2, 2⟩
  have hrun : (scheduler.scheduleDefault instants).toOption.any
      (fun result =>
        result.2.running = [singleGroup "a" 0 0]
          ∧ result.1.ignoredSeqGroups = [singleGroup "b" 1 1]) = true := by
    decide +kernel
  rcases Except.exists_eq_ok_of_any hrun with ⟨⟨outputs, scheduler'⟩, hok, hvalues⟩
  rw [decide_eq_true_eq] at hvalues
  exact ⟨scheduler, instants, outputs, scheduler', hok, by decide, hvalues.1, hvalues.2,
    (scheduleDefault_conserves hok).1⟩

end Default

section ChunkedPrefill

variable {scheduler scheduler' : Scheduler} {instants : Instants} {outputs : SchedulerOutputs}

theorem scheduleChunkedPrefill_eq_ok
    (h : scheduler.scheduleChunkedPrefill instants = .ok (outputs, scheduler'))
    : ∃ vars running,
        scheduler.chunkedPasses instants = .ok vars
          ∧ scheduler.checkBudget vars.budget = .ok ()
          ∧ running = vars.remainingRunning
              ++ groupsOf vars.prefills.sequenceGroups
              ++ groupsOf vars.runningScheduled.decodeSeqGroups
              ++ groupsOf vars.swappedIn.decodeSeqGroups
              ++ groupsOf vars.swappedIn.prefillSeqGroups
          ∧ scheduler' = vars.writeQueues running
          ∧ outputs = vars.outputs
              (vars.prefills.sequenceGroups
                ++ vars.runningScheduled.prefillSeqGroups
                ++ vars.swappedIn.prefillSeqGroups
                ++ vars.runningScheduled.decodeSeqGroups
                ++ vars.swappedIn.decodeSeqGroups)
              (vars.prefills.sequenceGroups.length
                + vars.swappedIn.prefillSeqGroups.length
                + vars.runningScheduled.prefillSeqGroups.length)
              vars.prefills.ignoredSequenceGroups
              running := by
  simp only [scheduleChunkedPrefill, Except.bind_eq_ok] at h
  rcases h with ⟨vars, hpasses, _, hbudget, h⟩
  cases h
  exact ⟨vars, _, hpasses, hbudget, rfl, rfl, rfl⟩

/--
The groups that `schedule_chunked_prefill` puts neither back into a queue nor among the ignored ones.
-/
def PolicyVars.dropped (vars : PolicyVars) : List SequenceGroup :=
  groupsOf vars.runningScheduled.prefillSeqGroups ++ vars.swappedIn.infeasibleSeqGroups

theorem scheduleChunkedPrefill_groups_perm {vars : PolicyVars}
    (h : scheduler.scheduleChunkedPrefill instants = .ok (outputs, scheduler'))
    (hpasses : scheduler.chunkedPasses instants = .ok vars)
    : (scheduler'.groups ++ outputs.ignoredSeqGroups ++ vars.dropped).Perm scheduler.groups := by
  rcases scheduleChunkedPrefill_eq_ok h with ⟨vars', running, hpasses', -, rfl, rfl, rfl⟩
  rw [hpasses] at hpasses'
  cases hpasses'
  have hgroups := chunkedPasses_groups_perm hpasses
  rw [List.perm_iff_count] at hgroups ⊢
  intro a
  have hgroups := hgroups a
  simp [PolicyVars.groups, PolicyVars.writeQueues, PolicyVars.outputs, PolicyVars.dropped,
    Scheduler.groups] at hgroups ⊢
  omega

/--
`schedule_running` has a group in its prefill phase at hand, and room for it.
-/
def RunningVars.SchedulesPrefill (vars : RunningVars) : Prop :=
  ∃ group numRunningTokens,
    vars.current = some (group, numRunningTokens)
      ∧ vars.scheduler.canAppendSlots group = true
      ∧ group.isPrefill vars.scheduler.memory.sequences = true

/--
The first group of the queue of `schedule_swapped` needs more blocks than the GPU has.
-/
def SwappedVars.MeetsInfeasible (vars : SwappedVars) : Prop :=
  ∃ group swappedQueue,
    vars.swappedQueue = group :: swappedQueue
      ∧ vars.scheduler.memory.blockManager.canSwapIn group vars.scheduler.memory.sequences = .never

/--
From this state `schedule_running` comes to no group in its prefill phase that it has room for, and
`schedule_swapped`, if it is called at all, to no group that can never be swapped in.
-/
structure KeepsGroups (scheduler : Scheduler) (instants : Instants) : Prop where
  running : ∀ vars,
    (runningLoop true).Reaches
        (RunningVars.start scheduler scheduler.running scheduler.newBudget instants.running) vars
      → ¬ vars.SchedulesPrefill
  swapped : ∀ running vars,
    scheduler.scheduleRunning scheduler.running scheduler.newBudget true instants.running
        = .ok running
      → running.outputs.preempted.length + running.outputs.swappedOut.length = 0
      → (swappedLoop true).Reaches
          (SwappedVars.start running.scheduler scheduler.swapped running.budget instants.swapped)
          vars
      → ¬ vars.MeetsInfeasible

theorem RunningVars.prefillSeqGroups_preempt {vars vars' : RunningVars} {group : SequenceGroup}
    (h : vars.preempt group = .ok vars')
    : vars'.outputs.prefillSeqGroups = vars.outputs.prefillSeqGroups := by
  rcases preempt_eq_ok h with ⟨-, scheduler, -, rfl⟩ | ⟨-, blocksToSwapOut, scheduler, -, rfl⟩
  . rfl
  . rfl

theorem RunningVars.Next.prefillSeqGroups_ne_nil {enableChunking : Bool}
    {vars vars' : RunningVars} (h : Next enableChunking vars vars')
    : vars'.outputs.prefillSeqGroups ≠ []
        ↔ vars.outputs.prefillSeqGroups ≠ [] ∨ vars.SchedulesPrefill := by
  cases h with
  | take group runningQueue numRunningTokens hcurrent =>
    simp [SchedulesPrefill, hcurrent]
  | preemptVictim group victim runningQueue numRunningTokens budget budget' vars'' hcurrent hcan _ _
      _ hpreempt =>
    simp [SchedulesPrefill, hcurrent, hcan, prefillSeqGroups_preempt hpreempt]
  | preemptSelf group numRunningTokens budget budget' vars'' hcurrent hcan _ _ _ hpreempt =>
    simp [SchedulesPrefill, hcurrent, hcan, prefillSeqGroups_preempt hpreempt]
  | schedule group numRunningTokens vars'' hcurrent hcan hschedule =>
    rcases schedule_eq_ok hschedule with ⟨blocksToCopy, scheduler, happend, rfl⟩
    rcases appendSlots_eq_ok happend with ⟨blockManager, rfl⟩
    cases hprefill : group.isPrefill vars.scheduler.memory.sequences with
    | false =>
      simp [SchedulesPrefill, hcurrent, hprefill, SchedulerRunningOutputs.addScheduled]
    | true =>
      simp [SchedulesPrefill, hcurrent, hcan, hprefill, SchedulerRunningOutputs.addScheduled]

theorem scheduleRunning_prefillSeqGroups {enableChunking : Bool} {vars : RunningVars}
    {runningQueue : List SequenceGroup} {budget : SchedulingBudget} {now : Nat}
    (h : scheduler.scheduleRunning runningQueue budget enableChunking now = .ok vars)
    : vars.outputs.prefillSeqGroups ≠ []
        ↔ ∃ vars', (runningLoop enableChunking).Reaches
              (RunningVars.start scheduler runningQueue budget now) vars'
            ∧ vars'.SchedulesPrefill := by
  have hflag := (runningLoop enableChunking).run_flag
    (F := fun vars => vars.outputs.prefillSeqGroups ≠ [])
    (B := RunningVars.SchedulesPrefill)
    (G := fun vars => vars.outputs.prefillSeqGroups ≠ []) ?_ ?_ h
  . simpa [RunningVars.start, SchedulerRunningOutputs.createEmpty] using hflag
  . intro vars vars' hstep
    exact (RunningVars.next_of_step hstep).prefillSeqGroups_ne_nil
  . intro vars vars' hstep
    rcases RunningVars.of_step_eq_inr hstep with ⟨rfl, hcurrent, -⟩
    simp [RunningVars.SchedulesPrefill, hcurrent]

theorem SwappedVars.Next.infeasibleSeqGroups_ne_nil {enableChunking : Bool}
    {vars vars' : SwappedVars} (h : Next enableChunking vars vars')
    : vars'.outputs.infeasibleSeqGroups ≠ []
        ↔ vars.outputs.infeasibleSeqGroups ≠ [] ∨ vars.MeetsInfeasible := by
  cases h with
  | ignore group swappedQueue hqueue hcan =>
    simp [SwappedVars.ignore, MeetsInfeasible, hqueue, hcan]
  | schedule group swappedQueue numNewTokens vars'' hqueue hcan _ _ hschedule =>
    rcases schedule_eq_ok hschedule with ⟨_, _, scheduler, scheduler', -, -, rfl⟩
    unfold SchedulerSwappedInOutputs.addScheduled
    cases group.isPrefill scheduler'.memory.sequences <;> simp [MeetsInfeasible, hqueue, hcan]

theorem scheduleSwapped_infeasibleSeqGroups {enableChunking : Bool} {vars : SwappedVars}
    {swappedQueue : List SequenceGroup} {budget : SchedulingBudget} {now : Nat}
    (h : scheduler.scheduleSwapped swappedQueue budget enableChunking now = .ok vars)
    : vars.outputs.infeasibleSeqGroups ≠ []
        ↔ ∃ vars', (swappedLoop enableChunking).Reaches
              (SwappedVars.start scheduler swappedQueue budget now) vars'
            ∧ vars'.MeetsInfeasible := by
  have hflag := (swappedLoop enableChunking).run_flag
    (F := fun vars => vars.outputs.infeasibleSeqGroups ≠ [])
    (B := SwappedVars.MeetsInfeasible)
    (G := fun vars => vars.outputs.infeasibleSeqGroups ≠ []) ?_ ?_ h
  . simpa [SwappedVars.start, SchedulerSwappedInOutputs.createEmpty] using hflag
  . intro vars vars' hstep
    exact (SwappedVars.next_of_step hstep).infeasibleSeqGroups_ne_nil
  . intro vars vars' hstep
    rcases SwappedVars.of_step_eq_inr hstep with ⟨rfl, hfeasible⟩
    have : ¬ vars'.MeetsInfeasible := by
      rintro ⟨group, swappedQueue, hqueue, hcan⟩
      exact hfeasible group swappedQueue hqueue hcan
    simp [this]

theorem dropped_eq_nil_iff {vars : PolicyVars} (h : scheduler.chunkedPasses instants = .ok vars)
    : vars.dropped = [] ↔ scheduler.KeepsGroups instants := by
  simp only [chunkedPasses, PolicyVars.scheduleRunningAndSwapped, PolicyVars.schedulePrefills,
    Except.bind_eq_ok] at h
  rcases h with ⟨passed, ⟨running, hrunning, hswapped⟩, prefills, -, hpure⟩
  change scheduler.scheduleRunning scheduler.running scheduler.newBudget true instants.running
    = .ok running at hrunning
  have hprefill := scheduleRunning_prefillSeqGroups hrunning
  cases hpure
  split at hswapped
  . next hnone =>
    rcases Except.bind_eq_ok.mp hswapped with ⟨swapped, hswap, hpure⟩
    have hinfeasible := scheduleSwapped_infeasibleSeqGroups hswap
    cases hpure
    simp only [PolicyVars.dropped, List.append_eq_nil_iff, groupsOf, List.map_eq_nil_iff]
    constructor
    . rintro ⟨hrun, hswap'⟩
      refine ⟨fun vars hreach hbad => ?_, fun running' vars hrun' _ hreach hbad => ?_⟩
      . exact hprefill.mpr ⟨vars, hreach, hbad⟩ hrun
      . rw [hrunning] at hrun'
        cases hrun'
        exact hinfeasible.mpr ⟨vars, hreach, hbad⟩ hswap'
    . intro hkeeps
      refine ⟨by_contra fun hrun => ?_, by_contra fun hswap' => ?_⟩
      . rcases hprefill.mp hrun with ⟨vars, hreach, hbad⟩
        exact hkeeps.running vars hreach hbad
      . rcases hinfeasible.mp hswap' with ⟨vars, hreach, hbad⟩
        exact hkeeps.swapped running vars hrunning hnone hreach hbad
  . next hsome =>
    cases hswapped
    simp only [PolicyVars.dropped, List.append_eq_nil_iff, groupsOf, List.map_eq_nil_iff]
    constructor
    . rintro ⟨hrun, -⟩
      refine ⟨fun vars hreach hbad => ?_, fun running' vars hrun' hnone _ _ => ?_⟩
      . exact hprefill.mpr ⟨vars, hreach, hbad⟩ hrun
      . rw [hrunning] at hrun'
        cases hrun'
        exact hsome hnone
    . intro hkeeps
      refine ⟨by_contra fun hrun => ?_, rfl⟩
      rcases hprefill.mp hrun with ⟨vars, hreach, hbad⟩
      exact hkeeps.running vars hreach hbad

/--
The chunked policy keeps the groups exactly when it comes to none of the two kinds of groups whose
lists it forgets.
-/
theorem scheduleChunkedPrefill_conserves_iff
    (h : scheduler.scheduleChunkedPrefill instants = .ok (outputs, scheduler'))
    : (scheduler'.groups ++ outputs.ignoredSeqGroups).Perm scheduler.groups
        ↔ scheduler.KeepsGroups instants := by
  rcases scheduleChunkedPrefill_eq_ok h with ⟨vars, -, hpasses, -⟩
  have hperm := scheduleChunkedPrefill_groups_perm h hpasses
  rw [← dropped_eq_nil_iff hpasses]
  constructor
  . intro hkept
    have hlength := hperm.length_eq
    rw [List.length_append, hkept.length_eq] at hlength
    exact List.length_eq_zero_iff.mp (by omega)
  . intro hnil
    rwa [hnil, List.append_nil] at hperm

/--
One running group that has computed two of the three tokens of its prompt.
-/
def partlyPrefilled : Scheduler :=
  let sequence := waitingSequence [5, 6, 7]
  let heap : SequenceHeap := fun _ => {
    sequence with
    sequenceData.numComputedTokens := 2
    sequenceStatus := .running
  }
  let config : SchedulerConfig := ⟨2, 2, 4, 0, true⟩
  let scheduler := Scheduler.new config 1 4 4 none heap 0
  {
    scheduler with
    running := [singleGroup "a" 0 0]
    memory.blockManager := {
      scheduler.memory.blockManager with
      blockTables := (∅ : AList fun _ : Nat => BlockTable).insert 0 [⟨.gpu, 3⟩, ⟨.gpu, 2⟩, ⟨.gpu, 1⟩]
      gpuAllocator := ⟨4, [⟨.gpu, 0⟩]⟩
      blocks := fun block =>
        { PhysicalTokenBlock.new with
          refCount := if block.device = .gpu ∧ block.blockNumber ≠ 0 then 1 else 0 }
    }
  }

/--
The group in its prefill phase is scheduled and is in no queue afterwards.
-/
theorem scheduleChunkedPrefill_loses_prefill
    : ∃ (instants : Instants) (outputs : SchedulerOutputs) (scheduler' : Scheduler),
        partlyPrefilled.scheduleChunkedPrefill instants = .ok (outputs, scheduler')
          ∧ (partlyPrefilled.groups.map (·.requestId)).Nodup
          ∧ (partlyPrefilled.groups.flatMap
              fun group => group.sequences.map (·.sequenceId)).Nodup
          ∧ partlyPrefilled.groups = [singleGroup "a" 0 0]
          ∧ scheduler'.groups ++ outputs.ignoredSeqGroups = []
          ∧ ¬ (scheduler'.groups ++ outputs.ignoredSeqGroups).Perm partlyPrefilled.groups := by
  let instants : Instants := ⟨2, 2, fun _ => 2, 2⟩
  have hrun : (partlyPrefilled.scheduleChunkedPrefill instants).toOption.any
      (fun result => result.2.groups ++ result.1.ignoredSeqGroups = []) = true := by
    decide +kernel
  rcases Except.exists_eq_ok_of_any hrun with ⟨⟨outputs, scheduler'⟩, hok, hnil⟩
  rw [decide_eq_true_eq] at hnil
  refine ⟨instants, outputs, scheduler', hok, by decide, by decide, rfl, hnil, ?_⟩
  rw [hnil]
  decide

/--
A waiting group is admitted, and nothing is lost.
-/
theorem scheduleChunkedPrefill_conserves_iff_waiting
    : ∃ (scheduler : Scheduler) (instants : Instants) (outputs : SchedulerOutputs)
        (scheduler' : Scheduler),
        scheduler.scheduleChunkedPrefill instants = .ok (outputs, scheduler')
          ∧ scheduler'.running = [singleGroup "a" 0 0]
          ∧ ((scheduler'.groups ++ outputs.ignoredSeqGroups).Perm scheduler.groups
              ↔ scheduler.KeepsGroups instants) := by
  let config : SchedulerConfig := ⟨2, 2, 4, 0, true⟩
  let scheduler := (Scheduler.new config 1 4 4 none (fun _ => waitingSequence [5, 6, 7]) 0
    ).addSequenceGroup (singleGroup "a" 0 0)
  let instants : Instants := ⟨2, 2, fun _ => 2, 2⟩
  have hrun : (scheduler.scheduleChunkedPrefill instants).toOption.any
      (fun result => result.2.running = [singleGroup "a" 0 0]) = true := by
    decide +kernel
  rcases Except.exists_eq_ok_of_any hrun with ⟨⟨outputs, scheduler'⟩, hok, hvalues⟩
  rw [decide_eq_true_eq] at hvalues
  exact ⟨scheduler, instants, outputs, scheduler', hok, hvalues,
    scheduleChunkedPrefill_conserves_iff hok⟩

end ChunkedPrefill

end Scheduler

end AtomaInfer
