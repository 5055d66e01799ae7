import AtomaInfer.Scheduler.Progress

/-!
A call of `schedule` that gets stuck fails, so it returns just when it does not get stuck.
-/

namespace AtomaInfer

namespace Scheduler

open Config

theorem canSwapOut_of_swapOut {scheduler : Scheduler} {group : SequenceGroup} {blocks : BlockMapping}
    {result : BlockMapping × Scheduler} (h : scheduler.swapOut group blocks = .ok result)
    : scheduler.memory.blockManager.canSwapOut group scheduler.memory.sequences = true := by
  by_contra hcan
  unfold swapOut at h
  rw [if_pos (by simpa using hcan)] at h
  cases h

theorem RunningVars.CannotSwapOut.step_ne_ok {vars : RunningVars} {enableChunking : Bool}
    (h : vars.CannotSwapOut) (result : RunningVars ⊕ RunningVars)
    : vars.step enableChunking ≠ .ok result := by
  rcases h with ⟨group, numRunningTokens, hcurrent, hcan, hne, hswap⟩
  have hpreempt (budget : SchedulingBudget) (vars' : RunningVars)
      : preempt { vars with budget, current := some (group, numRunningTokens) }
          (vars.runningQueue.getLast?.getD group) ≠ .ok vars' := by
    intro hok
    rcases preempt_eq_ok hok with ⟨hone, -⟩ | ⟨-, blocks, scheduler, hok, -⟩
    . exact hne hone
    . have hroom := canSwapOut_of_swapOut hok
      exact Bool.false_ne_true (hswap.symm.trans hroom)
  intro hstep
  unfold step at hstep
  simp only [hcurrent, hcan, Bool.not_false, if_true, Except.bind_eq_ok] at hstep
  rcases hstep with ⟨budget, -, budget', -, hstep⟩
  split at hstep
  . next victim hvictim =>
    rcases Except.bind_eq_ok.mp hstep with ⟨vars', hok, -⟩
    rw [hvictim, Option.getD_some] at hpreempt
    exact hpreempt budget' vars' hok
  . next hnone =>
    rcases Except.bind_eq_ok.mp hstep with ⟨vars', hok, -⟩
    rw [hnone, Option.getD_none] at hpreempt
    exact hpreempt budget' vars' hok

/--
Without tokens the budget does not accept a group, not even to say that there is no room.
-/
theorem PrefillVars.Counted.step_ne_ok {refs : List SequenceRef} {base : Config}
    {limits : SchedulerConfig} {extra : Multiset SequenceGroup} {vars : PrefillVars}
    {now : Nat → Nat} (h : vars.Counted true refs base limits extra) (hspent : vars.Exhausted now)
    (result : PrefillVars ⊕ PrefillVars) : vars.step true now ≠ .ok result := by
  rcases hspent with ⟨group, waitingQueue, hqueue, hdelay, hcan, hspent⟩
  rcases h.exists_of_front hqueue with ⟨seq, hsingle, -, -, -, hwidth⟩
  have htokens := h.getNumTokens_eq_ok now hqueue hsingle
  unfold numTokensOf at htokens
  rw [if_pos rfl, Nat.sub_eq_zero_of_le hspent, Nat.min_zero] at htokens
  intro hstep
  unfold step at hstep
  split at hstep
  . next hnil =>
    rw [hqueue] at hnil
    cases hnil
  . next group' waitingQueue' hqueue' =>
    cases hqueue.symm.trans hqueue'
    dsimp only at hstep
    rw [if_pos hdelay] at hstep
    change (vars.enter now).consider true group waitingQueue = _ at hstep
    simp only [consider, htokens, Except.bind_eq_ok] at hstep
    rcases hstep with ⟨_, hzero, _, -, hstep⟩
    cases hzero
    have hwidth' := group.one_le_width
    rw [if_neg (by omega), memory_enter, hcan] at hstep
    simp only [admitNext, canSchedule, memory_enter, hwidth,
      if_neg (show ¬ group.width = 0 by omega), Except.bind_eq_ok] at hstep
    rcases hstep with ⟨canSchedule, hbudget, -⟩
    unfold SchedulingBudget.canSchedule at hbudget
    rw [if_pos (.inr rfl)] at hbudget
    cases hbudget

section Converse

variable {scheduler : Scheduler} {instants : Instants} {refs : List SequenceRef}
variable {outputs : SchedulerOutputs} {scheduler' : Scheduler}

/--
When a call returns, the loop over the running groups has returned.
-/
theorem run_of_reachesRunning
    (h : scheduler.schedulePolicy instants = .ok (outputs, scheduler')) {before : PolicyVars}
    (hbefore : scheduler.beforeRunning instants = .ok before)
    (hnil : before.prefills.sequenceGroups = [])
    : ∃ running,
        (runningLoop scheduler.schedulerConfig.enableChunkedPrefill).run
            (before.runningStart instants) = .ok running
          ∧ (scheduler.schedulerConfig.enableChunkedPrefill = false →
              running.outputs.prefillSeqGroups = []) := by
  rcases passed_of_schedulePolicy h with ⟨before', running, _, hbefore', hpassed, -, -, -, hstage⟩
  cases hbefore.symm.trans hbefore'
  cases hpassed with
  | prefills hprefills => exact absurd hnil hprefills
  | preempts running _ hrun => exact ⟨running, hrun, fun hdefault => (hstage hdefault).1⟩
  | swaps running swapped _ hrun => exact ⟨running, hrun, fun hdefault => (hstage hdefault).1⟩

theorem not_cannotSwapOut_of_schedulePolicy
    (h : scheduler.schedulePolicy instants = .ok (outputs, scheduler')) {vars : RunningVars}
    (hreach : scheduler.ReachesRunning instants vars) : ¬ vars.CannotSwapOut := by
  intro hroom
  rcases hreach with ⟨before, hbefore, hnil, hreach⟩
  rcases run_of_reachesRunning h hbefore hnil with ⟨running, hrun, -⟩
  exact Loop.run_ne_ok _ hreach hroom.step_ne_ok running hrun

theorem not_schedulesPrefill_of_schedulePolicy
    (h : scheduler.schedulePolicy instants = .ok (outputs, scheduler'))
    (hdefault : scheduler.schedulerConfig.enableChunkedPrefill = false) {vars : RunningVars}
    (hreach : scheduler.ReachesRunning instants vars) : ¬ vars.SchedulesPrefill := by
  intro hprefill
  rcases hreach with ⟨before, hbefore, hnil, hreach⟩
  rcases run_of_reachesRunning h hbefore hnil with ⟨running, hrun, hstage⟩
  exact (scheduleRunning_prefillSeqGroups hrun).mpr ⟨vars, hreach, hprefill⟩ (hstage hdefault)

/--
When a call returns, it has not got stuck.
-/
theorem Ready.not_stuck (hready : scheduler.Ready refs)
    (h : scheduler.schedulePolicy instants = .ok (outputs, scheduler'))
    : ¬ scheduler.Stuck instants := by
  intro hstuck
  cases hstuck with
  | swapOut vars hreach hroom => exact not_cannotSwapOut_of_schedulePolicy h hreach hroom
  | running vars hdefault hreach hprefill =>
    exact not_schedulesPrefill_of_schedulePolicy h hdefault hreach hprefill
  | swapped vars hdefault hreach hprefill =>
    rcases hreach with ⟨before, running, hbefore, hnil, hrun, hpreempted, hswappedOut, hreach⟩
    rcases hready.counted_runningStart hbefore hnil with ⟨hstart, hrunning, hswapped⟩
    rcases PolicyVars.mappings_of_empty hrunning hswapped with ⟨hin, -, -⟩
    rcases hstart.exists_run hin
      (fun vars hreach => not_cannotSwapOut_of_schedulePolicy h ⟨before, hbefore, hnil, hreach⟩)
      (fun hdefault vars hreach =>
        not_schedulesPrefill_of_schedulePolicy h hdefault ⟨before, hbefore, hnil, hreach⟩)
      with ⟨running', hrun', hcounted, hcurrent, hqueue⟩
    cases hrun.symm.trans hrun'
    have hswap := PolicyVars.counted_swappedStart instants hcounted hready.limits hrunning
      hswapped hcurrent hqueue hpreempted hswappedOut
    have hout := PolicyVars.blocksToSwapOut_eq hcounted hrunning hswappedOut
    rcases passed_of_schedulePolicy h
      with ⟨before', outputs', swappedIn, hbefore', hpassed, -, -, -, hstage⟩
    cases hbefore.symm.trans hbefore'
    cases hpassed with
    | prefills hprefills => exact hprefills hnil
    | preempts running' _ hrun' hpreempts =>
      cases hrun.symm.trans hrun'
      rcases hpreempts with hsome | hsome
      . exact hsome hpreempted
      . exact hsome hswappedOut
    | swaps running' final _ hrun' _ _ hfinal =>
      cases hrun.symm.trans hrun'
      rw [← hdefault] at hprefill
      exact (hswap.run_prefillSeqGroups hout hfinal).mpr (.inr ⟨vars, hreach, hprefill⟩)
        (hstage hdefault).2
  | tokens vars hchunked hreach hspent =>
    rcases hreach with ⟨passed, hpassed, hreach⟩
    have hbefore : scheduler.beforeRunning instants = _ := beforeRunning_of_chunked hchunked
    rcases hready.counted_runningStart hbefore rfl with ⟨hstart, hrunning, hswapped⟩
    rw [hchunked] at hstart
    have hroom (vars : RunningVars) (hreach : (runningLoop true).Reaches
        ((PolicyVars.start scheduler scheduler.newBudget).runningStart instants) vars)
        : ¬ vars.CannotSwapOut :=
      not_cannotSwapOut_of_schedulePolicy h ⟨_, hbefore, rfl, hchunked ▸ hreach⟩
    rcases PolicyVars.exists_scheduleRunningAndSwapped hstart hready.limits hrunning hswapped hroom
      (fun henable => (by cases henable)) (fun henable => (by cases henable))
      with ⟨passed', hpassed', -, hwithin⟩
    cases hpassed.symm.trans hpassed'
    have hkeeps := PolicyVars.keeps_of_scheduleRunningAndSwapped hpassed
    have hcounted := (prefillLoop true instants.prefills).invariant_of_reaches
      (fun hcurrent hstep => hcurrent.next (PrefillVars.next_of_step hstep)) hreach
      ((hwithin rfl).counted_prefillStart hkeeps.1)
    unfold schedulePolicy at h
    rw [if_pos hchunked] at h
    rcases scheduleChunkedPrefill_eq_ok h with ⟨policy, queue, hpasses, -⟩
    rcases Except.bind_eq_ok.mp hpasses with ⟨passed', hpassed', hprefills⟩
    cases hpassed.symm.trans hpassed'
    simp only [PolicyVars.schedulePrefills, Scheduler.schedulePrefills, Except.bind_eq_ok]
      at hprefills
    rcases hprefills with ⟨prefills, ⟨last, hrun, -⟩, -⟩
    exact Loop.run_ne_ok _ hreach (hcounted.step_ne_ok hspent) last hrun

/--
A call returns just when it does not get stuck.
-/
theorem Ready.exists_schedule_iff (h : scheduler.Ready refs)
    : (∃ metadata outputs scheduler',
          scheduler.schedule instants = .ok (metadata, outputs, scheduler'))
        ↔ ¬ scheduler.Stuck instants := by
  constructor
  . rintro ⟨metadata, outputs, scheduler', hok⟩
    rcases schedule_eq_ok hok with ⟨passed, hpolicy, -⟩
    exact h.not_stuck hpolicy
  . intro hstuck
    rcases h.exists_schedule hstuck with ⟨metadata, outputs, scheduler', hok, -⟩
    exact ⟨metadata, outputs, scheduler', hok⟩

end Converse

end Scheduler

end AtomaInfer
