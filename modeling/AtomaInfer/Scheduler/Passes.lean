import AtomaInfer.Scheduler.Metadata

/-!
How a call of `schedule` comes to the loop of `schedule_running`, and what its result is in terms of
the results of the loops, for both policies.
-/

namespace AtomaInfer

namespace Scheduler

section Calls

variable (scheduler : Scheduler) (instants : Instants)

/--
The local variables of the policy when it comes to its call of `schedule_running`.
-/
def beforeRunning : Except SchedulerError PolicyVars :=
  if scheduler.schedulerConfig.enableChunkedPrefill then
    .ok (PolicyVars.start scheduler scheduler.newBudget)
  else
    let vars := PolicyVars.start scheduler (scheduler.includeRunning scheduler.newBudget)
    if scheduler.swapped.isEmpty then vars.schedulePrefills false instants else .ok vars

/--
The local variables of `schedule_running` when the policy calls it.
-/
def PolicyVars.runningStart (vars : PolicyVars) : RunningVars :=
  RunningVars.start vars.scheduler vars.remainingRunning vars.budget instants.running

/--
A call of `schedule` comes to an iteration of `schedule_running` with the variables `vars`. The
default policy does not call it when it has scheduled prompts.
-/
def ReachesRunning (vars : RunningVars) : Prop :=
  ∃ before,
    scheduler.beforeRunning instants = .ok before
      ∧ before.prefills.sequenceGroups = []
      ∧ (runningLoop scheduler.schedulerConfig.enableChunkedPrefill).Reaches
          (before.runningStart instants) vars

/--
The local variables of `schedule_swapped` when the policy calls it after `running`.
-/
def PolicyVars.swappedStart (vars : PolicyVars) (running : RunningVars) : SwappedVars :=
  SwappedVars.start running.scheduler vars.remainingSwapped running.budget instants.swapped

/--
A call of `schedule` comes to an iteration of `schedule_swapped` with the variables `vars`.
-/
def ReachesSwappedIn (vars : SwappedVars) : Prop :=
  ∃ before running,
    scheduler.beforeRunning instants = .ok before
      ∧ before.prefills.sequenceGroups = []
      ∧ (runningLoop scheduler.schedulerConfig.enableChunkedPrefill).run
          (before.runningStart instants) = .ok running
      ∧ running.outputs.preempted = []
      ∧ running.outputs.swappedOut = []
      ∧ (swappedLoop scheduler.schedulerConfig.enableChunkedPrefill).Reaches
          (before.swappedStart instants running) vars

/--
What a policy gets from `schedule_running` and `schedule_swapped`, each of which it may not call.
-/
inductive Passed (before : PolicyVars) : SchedulerRunningOutputs → SchedulerSwappedInOutputs → Prop where
  | prefills (hprefills : before.prefills.sequenceGroups ≠ [])
    : Passed before SchedulerRunningOutputs.createEmpty SchedulerSwappedInOutputs.createEmpty
  | preempts (running : RunningVars) (hprefills : before.prefills.sequenceGroups = [])
      (hrunning : (runningLoop scheduler.schedulerConfig.enableChunkedPrefill).run
        (before.runningStart instants) = .ok running)
      (hpreempts : running.outputs.preempted ≠ [] ∨ running.outputs.swappedOut ≠ [])
    : Passed before running.outputs SchedulerSwappedInOutputs.createEmpty
  | swaps (running : RunningVars) (swapped : SwappedVars)
      (hprefills : before.prefills.sequenceGroups = [])
      (hrunning : (runningLoop scheduler.schedulerConfig.enableChunkedPrefill).run
        (before.runningStart instants) = .ok running)
      (hpreempted : running.outputs.preempted = []) (hswappedOut : running.outputs.swappedOut = [])
      (hswapped : (swappedLoop scheduler.schedulerConfig.enableChunkedPrefill).run
        (before.swappedStart instants running) = .ok swapped)
    : Passed before running.outputs swapped.outputs

end Calls

variable {scheduler scheduler' : Scheduler} {instants : Instants} {outputs : SchedulerOutputs}
variable {vars vars' : PolicyVars} {enableChunking : Bool}

theorem PrefillVars.Next.suffix {now : Nat → Nat} {vars vars' : PrefillVars}
    (h : Next enableChunking now vars vars') : vars'.waitingQueue <:+ vars.waitingQueue := by
  cases h with
  | ignoreTooLong group waitingQueue numNewTokens hqueue =>
    rw [hqueue]
    exact List.suffix_cons group waitingQueue
  | ignoreNever group waitingQueue numNewTokens hqueue =>
    rw [hqueue]
    exact List.suffix_cons group waitingQueue
  | schedule group waitingQueue numNewTokens vars' hqueue =>
    rw [hqueue]
    exact List.suffix_cons group waitingQueue

theorem PolicyVars.suffix_of_schedulePrefills
    (h : vars.schedulePrefills enableChunking instants = .ok vars')
    : vars'.remainingWaiting <:+ vars.remainingWaiting := by
  simp only [PolicyVars.schedulePrefills, Scheduler.schedulePrefills, Except.bind_eq_ok] at h
  rcases h with ⟨prefills, ⟨last, hrun, hlast⟩, hpure⟩
  have hsuffix : last.waitingQueue <:+ vars.remainingWaiting := by
    refine (prefillLoop enableChunking instants.prefills).run_invariant
      (I := fun current => current.waitingQueue <:+ vars.remainingWaiting)
      (Q := fun current => current.waitingQueue <:+ vars.remainingWaiting) ?_ ?_ ?_ hrun
    . intro current next hcurrent hnext
      exact (PrefillVars.next_of_step hnext).suffix.trans hcurrent
    . intro current final hcurrent hdone
      rcases PrefillVars.of_step_eq_inr hdone with rfl | rfl | rfl
      . exact hcurrent
      . exact hcurrent
      . exact hcurrent
    . exact List.suffix_refl _
  cases hpure
  split at hlast <;> cases hlast <;> exact hsuffix

theorem PolicyVars.runningScheduled_of_scheduleRunningAndSwapped
    (h : vars.scheduleRunningAndSwapped enableChunking instants = .ok vars')
    : ∃ running,
        scheduleRunning vars.scheduler vars.remainingRunning vars.budget enableChunking
            instants.running = .ok running
          ∧ vars'.runningScheduled = running.outputs
          ∧ vars'.remainingRunning = running.runningQueue := by
  simp only [PolicyVars.scheduleRunningAndSwapped, Except.bind_eq_ok] at h
  rcases h with ⟨running, hrunning, hrest⟩
  refine ⟨running, hrunning, ?_⟩
  split at hrest
  . rcases Except.bind_eq_ok.mp hrest with ⟨swapped, -, hpure⟩
    cases hpure
    exact ⟨rfl, rfl⟩
  . cases hrest
    exact ⟨rfl, rfl⟩

/--
The waiting queue after a call: what was preempted, then what is left of the queue before.
-/
theorem waiting_of_schedulePolicy
    (h : scheduler.schedulePolicy instants = .ok (outputs, scheduler'))
    : ∃ before preempted remaining,
        scheduler.beforeRunning instants = .ok before
          ∧ scheduler'.waiting = preempted ++ remaining
          ∧ remaining <:+ scheduler.waiting
          ∧ (preempted = []
              ∨ before.prefills.sequenceGroups = []
                ∧ ∃ running,
                    (runningLoop scheduler.schedulerConfig.enableChunkedPrefill).run
                        (before.runningStart instants) = .ok running
                      ∧ preempted = running.outputs.preempted) := by
  unfold schedulePolicy at h
  unfold beforeRunning
  split at h
  . next hchunked =>
    rcases scheduleChunkedPrefill_eq_ok h with ⟨vars, running, hpasses, -, -, rfl, -⟩
    simp only [chunkedPasses, Except.bind_eq_ok] at hpasses
    rcases hpasses with ⟨passed, hrunning, hprefills⟩
    have hkeeps := PolicyVars.keeps_of_schedulePrefills hprefills
    have hkeeps' := PolicyVars.keeps_of_scheduleRunningAndSwapped hrunning
    rcases PolicyVars.runningScheduled_of_scheduleRunningAndSwapped hrunning
      with ⟨running', hloop, hscheduled, -⟩
    refine ⟨_, _, _, if_pos hchunked, rfl, ?_, .inr ⟨rfl, running', ?_, ?_⟩⟩
    . have hsuffix := PolicyVars.suffix_of_schedulePrefills hprefills
      rw [hkeeps'.2] at hsuffix
      exact hsuffix
    . rw [hchunked]
      exact hloop
    . rw [hkeeps.1, hscheduled]
  . next hdefault =>
    rcases scheduleDefault_eq_ok h with ⟨vars, running, hpasses, -, -, -, -, rfl, -⟩
    rcases defaultPasses_eq_ok hpasses with ⟨before, hprefills, hrest⟩
    have hbefore : (if scheduler.swapped.isEmpty = true then
          (PolicyVars.start scheduler (scheduler.includeRunning scheduler.newBudget)
            ).schedulePrefills false instants
        else .ok (PolicyVars.start scheduler (scheduler.includeRunning scheduler.newBudget)))
        = .ok before
          ∧ before.remainingWaiting <:+ scheduler.waiting
          ∧ before.runningScheduled.preempted = [] := by
      rcases hprefills with ⟨hempty, hprefills⟩ | ⟨hempty, rfl⟩
      . rw [if_pos hempty]
        refine ⟨hprefills, PolicyVars.suffix_of_schedulePrefills hprefills, ?_⟩
        rw [(PolicyVars.keeps_of_schedulePrefills hprefills).1]
        rfl
      . rw [if_neg (by simp [hempty])]
        exact ⟨rfl, List.suffix_refl _, rfl⟩
    refine ⟨before, _, _, by rw [if_neg hdefault]; exact hbefore.1, rfl, ?_⟩
    rcases hrest with ⟨hnone, hrest⟩ | ⟨-, rfl⟩
    . rcases PolicyVars.runningScheduled_of_scheduleRunningAndSwapped hrest
        with ⟨running', hloop, hscheduled, -⟩
      refine ⟨?_, .inr ⟨by simpa using hnone, running', ?_, ?_⟩⟩
      . rw [(PolicyVars.keeps_of_scheduleRunningAndSwapped hrest).2]
        exact hbefore.2.1
      . rw [Bool.not_eq_true] at hdefault
        rw [hdefault]
        exact hloop
      . rw [hscheduled]
    . exact ⟨hbefore.2.1, .inl hbefore.2.2⟩

theorem passed_of_scheduleRunningAndSwapped
    (h : vars.scheduleRunningAndSwapped scheduler.schedulerConfig.enableChunkedPrefill instants
      = .ok vars')
    (hprefills : vars.prefills.sequenceGroups = [])
    (hswappedIn : vars.swappedIn = SchedulerSwappedInOutputs.createEmpty)
    : scheduler.Passed instants vars vars'.runningScheduled vars'.swappedIn := by
  simp only [PolicyVars.scheduleRunningAndSwapped, Except.bind_eq_ok] at h
  rcases h with ⟨running, hrunning, hrest⟩
  split at hrest
  . next hnone =>
    rcases Except.bind_eq_ok.mp hrest with ⟨swapped, hswapped, hpure⟩
    cases hpure
    simp only [Nat.add_eq_zero_iff, List.length_eq_zero_iff] at hnone
    exact .swaps running swapped hprefills hrunning hnone.1 hnone.2 hswapped
  . next hsome =>
    cases hrest
    rw [hswappedIn]
    simp only [Nat.add_eq_zero_iff, List.length_eq_zero_iff, not_and_or] at hsome
    exact .preempts running hprefills hrunning hsome

theorem passed_of_chunkedPasses
    (hchunked : scheduler.schedulerConfig.enableChunkedPrefill = true)
    (h : scheduler.chunkedPasses instants = .ok vars)
    : ∃ before,
        scheduler.beforeRunning instants = .ok before
          ∧ scheduler.Passed instants before vars.runningScheduled vars.swappedIn := by
  simp only [chunkedPasses, Except.bind_eq_ok] at h
  rcases h with ⟨passed, hrunning, hprefills⟩
  have hkeeps := PolicyVars.keeps_of_schedulePrefills hprefills
  rw [← hchunked] at hrunning
  have hpassed := passed_of_scheduleRunningAndSwapped hrunning rfl rfl
  rw [← hkeeps.1, ← hkeeps.2.1] at hpassed
  exact ⟨_, if_pos hchunked, hpassed⟩

theorem passed_of_defaultPasses
    (hdefault : scheduler.schedulerConfig.enableChunkedPrefill = false)
    (h : scheduler.defaultPasses instants = .ok vars)
    : ∃ before,
        scheduler.beforeRunning instants = .ok before
          ∧ scheduler.Passed instants before vars.runningScheduled vars.swappedIn := by
  rcases defaultPasses_eq_ok h with ⟨before, hprefills, hrest⟩
  have hbefore : (if scheduler.swapped.isEmpty = true then
        (PolicyVars.start scheduler (scheduler.includeRunning scheduler.newBudget)
          ).schedulePrefills false instants
      else .ok (PolicyVars.start scheduler (scheduler.includeRunning scheduler.newBudget)))
      = .ok before
        ∧ before.runningScheduled = SchedulerRunningOutputs.createEmpty
        ∧ before.swappedIn = SchedulerSwappedInOutputs.createEmpty := by
    rcases hprefills with ⟨hempty, hprefills⟩ | ⟨hempty, rfl⟩
    . have hkeeps := PolicyVars.keeps_of_schedulePrefills hprefills
      rw [if_pos hempty]
      exact ⟨hprefills, hkeeps.1, hkeeps.2.1⟩
    . rw [if_neg (by simp [hempty])]
      exact ⟨rfl, rfl, rfl⟩
  refine ⟨before, by rw [beforeRunning, if_neg (by simp [hdefault])]; exact hbefore.1, ?_⟩
  rcases hrest with ⟨hnone, hrest⟩ | ⟨hsome, rfl⟩
  . rw [← hdefault] at hrest
    exact passed_of_scheduleRunningAndSwapped hrest (by simpa using hnone) hbefore.2.2
  . rw [hbefore.2.1, hbefore.2.2]
    exact .prefills (by simpa using hsome)

/--
The mappings that a call of `schedule` returns are those of its passes. The default policy returns
when these have scheduled no group in its prefill phase.
-/
theorem passed_of_schedulePolicy
    (h : scheduler.schedulePolicy instants = .ok (outputs, scheduler'))
    : ∃ before running swappedIn,
        scheduler.beforeRunning instants = .ok before
          ∧ scheduler.Passed instants before running swappedIn
          ∧ outputs.blocksToSwapIn = swappedIn.blocksToSwapIn
          ∧ outputs.blocksToSwapOut = running.blocksToSwapOut
          ∧ outputs.blocksToCopy = swappedIn.blocksToCopy ∪ running.blocksToCopy
          ∧ (scheduler.schedulerConfig.enableChunkedPrefill = false →
              running.prefillSeqGroups = [] ∧ swappedIn.prefillSeqGroups = []) := by
  unfold schedulePolicy at h
  split at h
  . next hchunked =>
    rcases scheduleChunkedPrefill_eq_ok h with ⟨vars, queue, hpasses, -, -, -, rfl⟩
    rcases passed_of_chunkedPasses hchunked hpasses with ⟨before, hbefore, hpassed⟩
    exact ⟨_, _, _, hbefore, hpassed, rfl, rfl, rfl,
      fun hdefault => absurd hchunked (by simp [hdefault])⟩
  . next hdefault =>
    rw [Bool.not_eq_true] at hdefault
    rcases scheduleDefault_eq_ok h with ⟨vars, queue, hpasses, -, hrunning, hswapped, -, -, rfl⟩
    rcases passed_of_defaultPasses hdefault hpasses with ⟨before, hbefore, hpassed⟩
    exact ⟨before, _, _, hbefore, hpassed, rfl, rfl, rfl, fun _ => ⟨hrunning, hswapped⟩⟩

end Scheduler

end AtomaInfer
