import AtomaInfer.Scheduler.Budget
import AtomaInfer.Scheduler.Copies

/-!
Groups that run a single sequence are preempted by recomputation, so blocks are swapped only for the
other groups.
-/

namespace AtomaInfer

namespace Scheduler

/--
No group may run more than one sequence.
-/
def Config.Narrow (c : Config) : Prop :=
  ∀ group ∈ c.held, group.width = 1

namespace RunningVars

variable {base : Config} {vars vars' : RunningVars} {enableChunking : Bool}
variable {refs : List SequenceRef} {group : SequenceGroup}

theorem swappedOut_of_preempt (h : vars.preempt group = .ok vars')
    (hone : group.getMaxNumRunningSeqs vars.scheduler.memory.sequences = 1)
    : vars'.outputs.swappedOut = vars.outputs.swappedOut := by
  rcases preempt_eq_ok h with ⟨-, scheduler, -, rfl⟩ | ⟨hne, -⟩
  . rfl
  . exact absurd hone hne

theorem Next.swappedOut_eq_nil (h : Next enableChunking vars vars')
    (hok : (vars.config base).OK enableChunking refs) (hnarrow : (vars.config base).Narrow)
    (hnil : vars.outputs.swappedOut = []) : vars'.outputs.swappedOut = [] := by
  have hone : ∀ group ∈ (vars.config base).running,
      group.getMaxNumRunningSeqs vars.scheduler.memory.sequences = 1 := by
    intro group hgroup
    have hwidth := hok.getMaxNumRunningSeqs_of_running hgroup
    rw [hnarrow group (by simp [Config.held, hgroup])] at hwidth
    exact hwidth
  cases h with
  | take => exact hnil
  | preemptVictim group victim runningQueue numRunningTokens budget budget' vars'' hcurrent hcan _ _
      hqueue hpreempt =>
    have hvictim : victim ∈ (vars.config base).running := by simp [RunningVars.config, hqueue]
    have hsame := swappedOut_of_preempt hpreempt (hone victim hvictim)
    exact hsame.trans hnil
  | preemptSelf group numRunningTokens budget budget' vars'' hcurrent hcan _ _ hqueue hpreempt =>
    have hself : group ∈ (vars.config base).running := by simp [RunningVars.config, hcurrent]
    have hsame := swappedOut_of_preempt hpreempt (hone group hself)
    exact hsame.trans hnil
  | schedule group numRunningTokens vars'' hcurrent hcan hschedule =>
    rcases schedule_eq_ok hschedule with ⟨blocksToCopy, scheduler, -, rfl⟩
    exact (preempted_addScheduled _ _ _ _).2.trans hnil

end RunningVars

section Loops

variable {scheduler : Scheduler} {runningQueue : List SequenceGroup} {budget : SchedulingBudget}
variable {enableChunking : Bool} {now : Nat} {c : Config} {refs : List SequenceRef}

theorem Config.Narrow.of_moves {c' : Config} (h : c.Narrow) (hmoves : Moves enableChunking c c')
    : c'.Narrow := by
  intro group hgroup
  rw [hmoves.held_eq] at hgroup
  exact h group hgroup

/--
`schedule_running` swaps no group out.
-/
theorem RunningVars.swappedOut_of_reaches {vars : RunningVars}
    (h : (runningLoop enableChunking).Reaches (start scheduler runningQueue budget now) vars)
    (hok : c.OK enableChunking refs) (hmemory : c.memory = scheduler.memory)
    (hrunning : c.running = runningQueue) (hin : c.blocksToSwapIn = ∅)
    (hout : c.blocksToSwapOut = ∅) (hcopy : c.blocksToCopy = ∅) (hnarrow : c.Narrow)
    : vars.outputs.swappedOut = [] := by
  induction h with
  | refl => rfl
  | tail hreach hstep ih =>
    rcases RunningVars.moves_of_reaches hreach hok hmemory hrunning hin hout hcopy
      with ⟨hmoves, hinv⟩
    exact (next_of_step hstep).swappedOut_eq_nil hinv.ok (hnarrow.of_moves hmoves) ih

/--
Without a swapped group `schedule_swapped` does nothing.
-/
theorem SwappedVars.eq_start_of_reaches {vars : SwappedVars}
    (h : (swappedLoop enableChunking).Reaches (start scheduler [] budget now) vars)
    : vars = start scheduler [] budget now := by
  induction h with
  | refl => rfl
  | tail _ hstep ih =>
    subst ih
    have hnext : SwappedVars.Next enableChunking (start scheduler [] budget now) _ :=
      next_of_step hstep
    cases hnext with
    | ignore _ _ hqueue => cases hqueue
    | schedule _ _ _ _ hqueue => cases hqueue

end Loops

namespace PolicyVars

variable {vars vars' : PolicyVars} {enableChunking : Bool} {instants : Instants}
variable {refs : List SequenceRef}

/--
Nothing is swapped.
-/
structure Spares (vars : PolicyVars) : Prop where
  remainingSwapped : vars.remainingSwapped = []
  swappedOut : vars.runningScheduled.swappedOut = []
  blocksToSwapIn : vars.swappedIn.blocksToSwapIn = ∅
  blocksToSwapOut : vars.runningScheduled.blocksToSwapOut = ∅

theorem Spares.schedulePrefills (h : vars.Spares)
    (hprefills : vars.schedulePrefills enableChunking instants = .ok vars') : vars'.Spares := by
  rcases keeps_of_schedulePrefills hprefills with ⟨hrunning, hswappedIn, -, hswapped⟩
  constructor
  . rw [hswapped, h.remainingSwapped]
  . rw [hrunning, h.swappedOut]
  . rw [hswappedIn, h.blocksToSwapIn]
  . rw [hrunning, h.blocksToSwapOut]

theorem Spares.scheduleRunningAndSwapped (h : vars.Spares)
    (hrest : vars.scheduleRunningAndSwapped enableChunking instants = .ok vars')
    (hok : vars.config.OK enableChunking refs) (hnarrow : vars.config.Narrow)
    (hrunning : vars.runningScheduled = SchedulerRunningOutputs.createEmpty)
    (hswappedIn : vars.swappedIn = SchedulerSwappedInOutputs.createEmpty) : vars'.Spares := by
  simp only [PolicyVars.scheduleRunningAndSwapped, Except.bind_eq_ok] at hrest
  rcases hrest with ⟨running, hrun, hrest⟩
  have hcopy : vars.config.blocksToCopy = ∅ := by
    simp [config, hrunning, hswappedIn, SchedulerRunningOutputs.createEmpty,
      SchedulerSwappedInOutputs.createEmpty]
  have hreach := RunningVars.reaches_of_run hrun
  have hswappedOut := RunningVars.swappedOut_of_reaches hreach hok rfl rfl h.blocksToSwapIn
    h.blocksToSwapOut hcopy hnarrow
  have hout := (RunningVars.moves_of_reaches hreach hok rfl rfl h.blocksToSwapIn h.blocksToSwapOut
    hcopy).2.schedulesOut hswappedOut
  split at hrest
  . rcases Except.bind_eq_ok.mp hrest with ⟨swapped, hswap, hpure⟩
    cases hpure
    rw [h.remainingSwapped] at hswap
    have hsame := SwappedVars.eq_start_of_reaches (SwappedVars.reaches_of_run hswap)
    subst hsame
    exact ⟨rfl, hswappedOut, rfl, hout.trans h.blocksToSwapOut⟩
  . cases hrest
    exact ⟨h.remainingSwapped, hswappedOut, h.blocksToSwapIn, hout.trans h.blocksToSwapOut⟩

end PolicyVars

variable {scheduler scheduler' : Scheduler} {instants : Instants} {outputs : SchedulerOutputs}
variable {refs : List SequenceRef}

theorem spares_start (hswapped : scheduler.swapped = []) (budget : SchedulingBudget)
    : (PolicyVars.start scheduler budget).Spares :=
  ⟨hswapped, rfl, rfl, rfl⟩

/--
A call of `schedule` swaps nothing when no group may run more than one sequence.
-/
theorem spares_of_schedulePolicy
    (h : scheduler.schedulePolicy instants = .ok (outputs, scheduler'))
    (hok : scheduler.config.OK scheduler.schedulerConfig.enableChunkedPrefill refs)
    (hnarrow : scheduler.config.Narrow) (hswapped : scheduler.swapped = [])
    : scheduler'.swapped = []
        ∧ outputs.blocksToSwapIn = ∅
        ∧ outputs.blocksToSwapOut = ∅ := by
  unfold schedulePolicy at h
  split at h
  . next hchunked =>
    rw [hchunked] at hok
    rcases scheduleChunkedPrefill_eq_ok h with ⟨vars, running, hpasses, -, -, rfl, rfl⟩
    simp only [chunkedPasses, Except.bind_eq_ok] at hpasses
    rcases hpasses with ⟨passed, hrunning, hprefills⟩
    have hstart := PolicyVars.config_start scheduler scheduler.newBudget
    have hspares := ((spares_start hswapped _).scheduleRunningAndSwapped hrunning (hstart ▸ hok)
      (hstart ▸ hnarrow) rfl rfl).schedulePrefills hprefills
    refine ⟨?_, hspares.blocksToSwapIn, hspares.blocksToSwapOut⟩
    simp [PolicyVars.writeQueues, hspares.remainingSwapped, hspares.swappedOut]
  . next hdefault =>
    rw [Bool.not_eq_true] at hdefault
    rw [hdefault] at hok
    rcases scheduleDefault_eq_ok h with ⟨vars, running, hpasses, -, -, -, -, rfl, rfl⟩
    rcases defaultPasses_eq_ok hpasses with ⟨before, ⟨-, hprefills⟩ | ⟨habsurd, -⟩, hrest⟩
    . have hstart := PolicyVars.config_start scheduler
        (scheduler.includeRunning scheduler.newBudget)
      have hspares := (spares_start hswapped _).schedulePrefills hprefills
      rcases PolicyVars.schedulePrefills_moves hprefills (hstart ▸ hok) rfl with ⟨hmoves, -⟩
      rcases PolicyVars.keeps_of_schedulePrefills hprefills with ⟨hrunning, hswappedIn, -⟩
      rw [hstart] at hmoves
      have hvars : vars.Spares := by
        rcases hrest with ⟨-, hrest⟩ | ⟨-, rfl⟩
        . exact hspares.scheduleRunningAndSwapped hrest (hmoves.ok hok) (hnarrow.of_moves hmoves)
            hrunning hswappedIn
        . exact hspares
      refine ⟨?_, hvars.blocksToSwapIn, hvars.blocksToSwapOut⟩
      simp [PolicyVars.writeQueues, hvars.remainingSwapped, hvars.swappedOut]
    . rw [hswapped] at habsurd
      cases habsurd

end Scheduler

end AtomaInfer
