import AtomaInfer.Scheduler.Totality

/-!
When a call of `schedule` does not get stuck: every running group decodes, and none may run more
than one sequence.
-/

namespace AtomaInfer

namespace Scheduler

open Config

section Decodes

variable {c c' : Config} {enableChunking : Bool} {refs : List SequenceRef}

/--
The groups that run or are swapped out are in their decode phase.
-/
def Config.Decodes (c : Config) : Prop :=
  ∀ group ∈ c.running + c.swapped, group.isPrefill c.memory.sequences = false

theorem Config.Move.decodes (h : Move enableChunking c c') (hok : c.OK enableChunking refs)
    (hdecodes : c.Decodes) : c'.Decodes := by
  intro group hmem
  have hkeep (hsub : c'.running + c'.swapped ≤ c.running + c.swapped)
      (hsame : c'.recomputed = c.recomputed) : group.isPrefill c'.memory.sequences = false := by
    have hold := hdecodes group (Multiset.mem_of_le hsub hmem)
    unfold SequenceGroup.isPrefill Sequence.isPrefill at hold ⊢
    split at hold
    . next seq hhead => rwa [h.sequenceData_eq_of_recomputed hsame seq]
    . exact hold
  cases h with
  | recompute taken seq running memory hrunning hgroup heffect =>
    have hheld : c.held = taken ::ₘ
        (c.waiting + running + c.swapped + c.scheduled.map (·.scheduledGroup) + c.ignored
          + c.infeasible) := by
      simp only [held, hrunning, Multiset.add_cons, Multiset.cons_add]
    have hrest : group ∈ c.waiting + running + c.swapped + c.scheduled.map (·.scheduledGroup)
        + c.ignored + c.infeasible := by
      simp only [Multiset.mem_add] at hmem ⊢
      tauto
    have hnotMem := hok.notMem_of_held hheld hgroup group hrest
    have hold : group ∈ c.running + c.swapped := by
      rw [hrunning, Multiset.cons_add]
      exact Multiset.mem_cons_of_mem hmem
    rw [Staged.isPrefill_congr (sequences_eq_of_touches heffect.toTouches hnotMem)]
    exact hdecodes group hold
  | swapOut taken seq running numbers memory hrunning =>
    refine hkeep ?_ rfl
    dsimp only
    rw [hrunning, Multiset.add_cons, Multiset.cons_add]
  | append taken seq running numTokens copies memory hrunning =>
    refine hkeep ?_ rfl
    dsimp only
    rw [hrunning, Multiset.cons_add]
    exact Multiset.le_cons_self _ _
  | swapIn taken seq swapped numTokens numbers copies between memory hswapped =>
    refine hkeep ?_ rfl
    dsimp only
    rw [hswapped, Multiset.add_cons]
    exact Multiset.le_cons_self _ _
  | reject taken seq swapped memory hswapped =>
    refine hkeep ?_ rfl
    dsimp only
    rw [hswapped, Multiset.add_cons]
    exact Multiset.le_cons_self _ _
  | admitNext => exact hkeep le_rfl rfl
  | ignore => exact hkeep le_rfl rfl

theorem Config.Moves.decodes (h : Moves enableChunking c c') (hok : c.OK enableChunking refs)
    (hdecodes : c.Decodes) : c'.Decodes := by
  induction h with
  | refl => exact hdecodes
  | tail hmoves hmove ih => exact hmove.decodes (Moves.ok hmoves hok) ih

end Decodes

section Reaches

variable {scheduler : Scheduler} {instants : Instants} {refs : List SequenceRef}

theorem moves_of_beforeRunning {before : PolicyVars}
    (hok : scheduler.config.OK scheduler.schedulerConfig.enableChunkedPrefill refs)
    (h : scheduler.beforeRunning instants = .ok before)
    : Moves scheduler.schedulerConfig.enableChunkedPrefill scheduler.config before.config
        ∧ before.runningScheduled = SchedulerRunningOutputs.createEmpty
        ∧ before.swappedIn = SchedulerSwappedInOutputs.createEmpty := by
  unfold beforeRunning at h
  split at h
  . cases h
    rw [PolicyVars.config_start]
    exact ⟨.refl, rfl, rfl⟩
  . next hdefault =>
    rw [Bool.not_eq_true] at hdefault
    have hstart := PolicyVars.config_start scheduler (scheduler.includeRunning scheduler.newBudget)
    rw [hdefault] at hok ⊢
    dsimp only at h
    split at h
    . have hkeeps := PolicyVars.keeps_of_schedulePrefills h
      have hmoves := (PolicyVars.schedulePrefills_moves h (hstart ▸ hok) rfl).1
      rw [hstart] at hmoves
      exact ⟨hmoves, hkeeps.1, hkeeps.2.1⟩
    . cases h
      rw [hstart]
      exact ⟨.refl, rfl, rfl⟩

theorem PolicyVars.mappings_of_empty {vars : PolicyVars}
    (hrunning : vars.runningScheduled = SchedulerRunningOutputs.createEmpty)
    (hswapped : vars.swappedIn = SchedulerSwappedInOutputs.createEmpty)
    : vars.config.blocksToSwapIn = ∅
        ∧ vars.config.blocksToSwapOut = ∅
        ∧ vars.config.blocksToCopy = ∅ := by
  simp [config, hrunning, hswapped, SchedulerRunningOutputs.createEmpty,
    SchedulerSwappedInOutputs.createEmpty]

/--
Up to each iteration of `schedule_running`, a call of `schedule` makes moves.
-/
theorem moves_of_reachesRunning {vars : RunningVars}
    (hok : scheduler.config.OK scheduler.schedulerConfig.enableChunkedPrefill refs)
    (h : scheduler.ReachesRunning instants vars)
    : ∃ base,
        Moves scheduler.schedulerConfig.enableChunkedPrefill scheduler.config (vars.config base)
          ∧ vars.Inv scheduler.schedulerConfig.enableChunkedPrefill refs base := by
  rcases h with ⟨before, hbefore, -, hreach⟩
  rcases moves_of_beforeRunning hok hbefore with ⟨hfirst, hrunning, hswapped⟩
  rcases PolicyVars.mappings_of_empty hrunning hswapped with ⟨hin, hout, hcopy⟩
  rcases RunningVars.moves_of_reaches hreach (hfirst.ok hok) rfl rfl hin hout hcopy
    with ⟨hmoves, hinv⟩
  exact ⟨before.config, Relation.ReflTransGen.trans hfirst hmoves, hinv⟩

/--
Up to each iteration of `schedule_swapped`, a call of `schedule` makes moves.
-/
theorem moves_of_reachesSwappedIn {vars : SwappedVars}
    (hok : scheduler.config.OK scheduler.schedulerConfig.enableChunkedPrefill refs)
    (h : scheduler.ReachesSwappedIn instants vars)
    : ∃ base,
        Moves scheduler.schedulerConfig.enableChunkedPrefill scheduler.config (vars.config base) := by
  rcases h with ⟨before, running, hbefore, -, hrun, hpreempted, hswappedOut, hreach⟩
  rcases moves_of_beforeRunning hok hbefore with ⟨hfirst, hrunning, hswapped⟩
  rcases PolicyVars.mappings_of_empty hrunning hswapped with ⟨hin, hout, hcopy⟩
  rcases scheduleRunning_moves hrun (hfirst.ok hok) rfl rfl hin hout hcopy
    with ⟨hmoves, hinv, hcurrent⟩
  have hqueue : (running.config before.config).swapped = before.remainingSwapped := by
    simp [RunningVars.config, PolicyVars.config, hrunning, hswappedOut,
      SchedulerRunningOutputs.createEmpty]
  rcases SwappedVars.moves_of_reaches hreach hinv.ok rfl hqueue hin
    ((hinv.schedulesOut hswappedOut).trans hout) with ⟨hmoves', -⟩
  exact ⟨running.config before.config,
    Relation.ReflTransGen.trans hfirst (Relation.ReflTransGen.trans hmoves hmoves')⟩

end Reaches

section Stuck

variable {scheduler : Scheduler} {instants : Instants} {refs : List SequenceRef}

theorem Ready.ok_policy (h : scheduler.Ready refs)
    : scheduler.config.OK scheduler.schedulerConfig.enableChunkedPrefill refs :=
  h.ok.of_scheduled_eq_zero rfl _

/--
A group that may run one sequence only is never swapped out.
-/
theorem Ready.not_cannotSwapOut (h : scheduler.Ready refs)
    (hwidth : ∀ group ∈ scheduler.config.held, group.width = 1) {vars : RunningVars}
    (hreach : scheduler.ReachesRunning instants vars) : ¬ vars.CannotSwapOut := by
  rintro ⟨group, numRunningTokens, hcurrent, -, hne, -⟩
  rcases moves_of_reachesRunning h.ok_policy hreach with ⟨base, hmoves, hinv⟩
  have hmem : vars.runningQueue.getLast?.getD group ∈ (vars.config base).running := by
    rw [RunningVars.config_running_of_current base hcurrent]
    cases hlast : vars.runningQueue.getLast? with
    | none => exact Multiset.mem_cons_self _ _
    | some victim => exact Multiset.mem_cons_of_mem (List.mem_of_getLast? hlast)
  have hheld : vars.runningQueue.getLast?.getD group ∈ scheduler.config.held := by
    rw [← hmoves.held_eq]
    simp only [held, Multiset.mem_add]
    tauto
  have hmax := hinv.ok.getMaxNumRunningSeqs_of_running hmem
  rw [hwidth _ hheld] at hmax
  exact hne hmax

/--
The default policy does not get stuck when all that runs decodes, and nothing has to be swapped out.
-/
theorem Ready.not_stuck_default (h : scheduler.Ready refs)
    (hdefault : scheduler.schedulerConfig.enableChunkedPrefill = false)
    (hwidth : ∀ group ∈ scheduler.config.held, group.width = 1)
    (hdecodes : scheduler.config.Decodes) : ¬ scheduler.Stuck instants := by
  intro hstuck
  cases hstuck with
  | swapOut vars hreach hroom => exact h.not_cannotSwapOut hwidth hreach hroom
  | running vars _ hreach hprefill =>
    rcases hprefill with ⟨group, numRunningTokens, hcurrent, -, hprefill⟩
    rcases moves_of_reachesRunning h.ok_policy hreach with ⟨base, hmoves, -⟩
    have hmem : group ∈ (vars.config base).running := by
      rw [RunningVars.config_running_of_current base hcurrent]
      exact Multiset.mem_cons_self _ _
    have hfalse := hmoves.decodes h.ok_policy hdecodes group (Multiset.mem_add.mpr (.inl hmem))
    exact Bool.false_ne_true (hfalse.symm.trans hprefill)
  | swapped vars _ hreach hprefill =>
    rcases hprefill with ⟨group, swappedQueue, numNewTokens, hqueue, -, -, -, hprefill⟩
    rcases moves_of_reachesSwappedIn h.ok_policy hreach with ⟨base, hmoves⟩
    have hmem : group ∈ (vars.config base).swapped := by
      rw [SwappedVars.config_swapped_of_queue base hqueue]
      exact Multiset.mem_cons_self _ _
    have hfalse := hmoves.decodes h.ok_policy hdecodes group (Multiset.mem_add.mpr (.inr hmem))
    exact Bool.false_ne_true (hfalse.symm.trans hprefill)
  | tokens vars hchunked => simp [hdefault] at hchunked

/--
The chunked policy does not get stuck when its budget lasts and nothing has to be swapped out.
-/
theorem Ready.not_stuck_chunked (h : scheduler.Ready refs)
    (hchunked : scheduler.schedulerConfig.enableChunkedPrefill = true)
    (hwidth : ∀ group ∈ scheduler.config.held, group.width = 1)
    (hroom : ∀ vars, scheduler.ReachesWaiting instants vars → ¬ vars.Exhausted instants.prefills)
    : ¬ scheduler.Stuck instants := by
  intro hstuck
  cases hstuck with
  | swapOut vars hreach hroom' => exact h.not_cannotSwapOut hwidth hreach hroom'
  | running vars hdefault => simp [hchunked] at hdefault
  | swapped vars hdefault => simp [hchunked] at hdefault
  | tokens vars _ hreach hspent => exact hroom vars hreach hspent

end Stuck

end Scheduler

end AtomaInfer
