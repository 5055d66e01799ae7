import AtomaInfer.Scheduler.Tables
import AtomaInfer.Scheduler.Totality

/-!
The groups that a call of `schedule` puts into no queue.
-/

namespace AtomaInfer

namespace Scheduler

namespace PrefillVars

variable {vars : PrefillVars} {enableChunking : Bool} {now : Nat → Nat} {group : SequenceGroup}
variable {waitingQueue : List SequenceGroup}

/--
The loop ignores `group` when it considers it: the group has more tokens to compute than a prompt may
have, or it needs more blocks than the GPU has.
-/
def Rejects (enableChunking : Bool) (group : SequenceGroup) (vars : PrefillVars) : Prop :=
  ∃ numNewTokens,
    vars.scheduler.getNumTokens group .waiting enableChunking vars.budget = .ok numNewTokens
      ∧ (vars.scheduler.getPromptLimit < numNewTokens
        ∨ vars.scheduler.memory.blockManager.canAllocate group vars.scheduler.memory.sequences
            = .never)

/--
The loop over the waiting queue ignores the first group.
-/
def Ignores (enableChunking : Bool) (now : Nat → Nat) (vars : PrefillVars) : Prop :=
  ∃ group waitingQueue,
    vars.waitingQueue = group :: waitingQueue
      ∧ (vars.scheduler.passedDelay (now vars.iteration)).1 = true
      ∧ (vars.enter now).Rejects enableChunking group

instance (enableChunking : Bool) (group : SequenceGroup) (vars : PrefillVars)
    : Decidable (vars.Rejects enableChunking group) :=
  decidable_of_iff
    (∃ numNewTokens ∈ (vars.scheduler.getNumTokens group .waiting enableChunking vars.budget).toOption,
      vars.scheduler.getPromptLimit < numNewTokens
        ∨ vars.scheduler.memory.blockManager.canAllocate group vars.scheduler.memory.sequences
            = .never) (by
    unfold Rejects
    cases vars.scheduler.getNumTokens group .waiting enableChunking vars.budget with
    | error e => simp [Except.toOption]
    | ok numNewTokens => simp [Except.toOption])

instance (enableChunking : Bool) (now : Nat → Nat) (vars : PrefillVars)
    : Decidable (vars.Ignores enableChunking now) :=
  decidable_of_iff
    (∃ group ∈ vars.waitingQueue.head?,
      (vars.scheduler.passedDelay (now vars.iteration)).1 = true
        ∧ (vars.enter now).Rejects enableChunking group) (by
    unfold Ignores
    cases vars.waitingQueue with
    | nil => simp
    | cons group waitingQueue => simp)

/--
The groups that are ignored after an iteration, whether or not there is a next one.
-/
def ignoredAfter (result : PrefillVars ⊕ PrefillVars) : List SequenceGroup :=
  (result.elim id id).outputs.ignoredSequenceGroups

theorem ignoredAfter_of_consider {result : PrefillVars ⊕ PrefillVars}
    (h : vars.consider enableChunking group waitingQueue = .ok result)
    : ignoredAfter result ≠ []
        ↔ vars.outputs.ignoredSequenceGroups ≠ [] ∨ vars.Rejects enableChunking group := by
  simp only [consider, Except.bind_eq_ok] at h
  rcases h with ⟨numNewTokens, htokens, _, hcheck, h⟩
  have hrejects : vars.Rejects enableChunking group
      ↔ vars.scheduler.getPromptLimit < numNewTokens
        ∨ vars.scheduler.memory.blockManager.canAllocate group vars.scheduler.memory.sequences
            = .never := by
    simp [Rejects, htokens]
  rw [hrejects]
  split at h
  . next hlimit =>
    cases h
    simp [ignoredAfter, ignore, hlimit]
  . next hlimit =>
    split at h
    . next hcan =>
      cases h
      simp [ignoredAfter, hlimit, hcan]
    . next hcan =>
      cases h
      simp [ignoredAfter, ignore, hcan]
    all_goals
      next hcan =>
      have hsame : ignoredAfter result = vars.outputs.ignoredSequenceGroups := by
        cases result with
        | inl vars' =>
          rcases admitNext_eq_inl h with ⟨vars'', -, hschedule, rfl⟩
          rcases schedule_eq_ok hschedule with ⟨scheduler, -, rfl⟩
          rfl
        | inr vars' =>
          simp only [admitNext, Except.bind_eq_ok] at h
          rcases h with ⟨canSchedule, -, h⟩
          split at h
          . rcases Except.bind_eq_ok.mp h with ⟨_, -, h⟩
            cases h
          . cases h
            rfl
      simp [hsame, hlimit, hcan]

theorem ignoredAfter_of_step {result : PrefillVars ⊕ PrefillVars}
    (h : vars.step enableChunking now = .ok result)
    : ignoredAfter result ≠ []
        ↔ vars.outputs.ignoredSequenceGroups ≠ [] ∨ vars.Ignores enableChunking now := by
  unfold step at h
  split at h
  . next hqueue =>
    cases h
    simp [ignoredAfter, Ignores, hqueue]
  . next group waitingQueue hqueue =>
    dsimp only at h
    split at h
    . next hdelay =>
      change (vars.enter now).consider enableChunking group waitingQueue = _ at h
      rw [ignoredAfter_of_consider h]
      have hsame : (vars.enter now).outputs = vars.outputs := rfl
      simp [Ignores, hqueue, hdelay, hsame]
    . next hdelay =>
      cases h
      simp [ignoredAfter, Ignores, hqueue, hdelay]

end PrefillVars

section Policies

variable (scheduler : Scheduler) (instants : Instants)

/--
A call of `schedule` comes to an iteration of `schedule_prefills` with the variables `vars`. The
default policy does not call it when groups are swapped out.
-/
def ReachesPrefill (vars : PrefillVars) : Prop :=
  if scheduler.schedulerConfig.enableChunkedPrefill then
    scheduler.ReachesWaiting instants vars
  else
    scheduler.swapped = []
      ∧ (prefillLoop false instants.prefills).Reaches
          (PrefillVars.start scheduler scheduler.waiting
            (scheduler.includeRunning scheduler.newBudget)) vars

/--
A call of `schedule` comes to no group that it forgets, and ignores none.
-/
structure KeepsRequests : Prop extends scheduler.KeepsTables instants where
  prefills : ∀ vars, scheduler.ReachesPrefill instants vars →
    ¬ vars.Ignores scheduler.schedulerConfig.enableChunkedPrefill instants.prefills

variable {scheduler instants} {scheduler' : Scheduler} {outputs : SchedulerOutputs}
variable {vars vars' : PolicyVars} {refs : List SequenceRef} {enableChunking : Bool}

theorem schedulePrefills_ignored {waitingQueue : List SequenceGroup} {budget : SchedulingBudget}
    {now : Nat → Nat} {vars : PrefillVars}
    (h : scheduler.schedulePrefills waitingQueue budget enableChunking now = .ok vars)
    : vars.outputs.ignoredSequenceGroups ≠ []
        ↔ ∃ vars', (prefillLoop enableChunking now).Reaches
              (PrefillVars.start scheduler waitingQueue budget) vars'
            ∧ vars'.Ignores enableChunking now := by
  rcases Except.bind_eq_ok.mp h with ⟨last, hrun, hlast⟩
  have hsame : vars.outputs = last.outputs := by
    split at hlast <;> cases hlast <;> rfl
  have hflag := (prefillLoop enableChunking now).run_flag
    (F := fun vars => vars.outputs.ignoredSequenceGroups ≠ [])
    (B := PrefillVars.Ignores enableChunking now)
    (G := fun vars => vars.outputs.ignoredSequenceGroups ≠ [])
    PrefillVars.ignoredAfter_of_step PrefillVars.ignoredAfter_of_step hrun
  rw [hsame]
  simpa [PrefillVars.start, SchedulerPrefillOutputs.createEmpty] using hflag

theorem PolicyVars.ignored_of_schedulePrefills
    (h : vars.schedulePrefills enableChunking instants = .ok vars')
    : vars'.prefills.ignoredSequenceGroups ≠ []
        ↔ ∃ prefills, (prefillLoop enableChunking instants.prefills).Reaches
              (PrefillVars.start vars.scheduler vars.remainingWaiting vars.budget) prefills
            ∧ prefills.Ignores enableChunking instants.prefills := by
  rcases Except.bind_eq_ok.mp h with ⟨prefills, hprefills, hpure⟩
  cases hpure
  exact schedulePrefills_ignored hprefills

theorem ignored_of_chunkedPasses (hchunked : scheduler.schedulerConfig.enableChunkedPrefill = true)
    (h : scheduler.chunkedPasses instants = .ok vars)
    : vars.prefills.ignoredSequenceGroups ≠ []
        ↔ ∃ prefills, scheduler.ReachesPrefill instants prefills
            ∧ prefills.Ignores true instants.prefills := by
  rcases Except.bind_eq_ok.mp h with ⟨passed, hpassed, hprefills⟩
  rw [PolicyVars.ignored_of_schedulePrefills hprefills]
  simp only [ReachesPrefill, hchunked, if_true]
  constructor
  . rintro ⟨prefills, hreach, hignores⟩
    exact ⟨prefills, ⟨passed, hpassed, hreach⟩, hignores⟩
  . rintro ⟨prefills, ⟨passed', hpassed', hreach⟩, hignores⟩
    cases hpassed.symm.trans hpassed'
    exact ⟨prefills, hreach, hignores⟩

theorem ignored_of_defaultPasses (hdefault : scheduler.schedulerConfig.enableChunkedPrefill = false)
    (h : scheduler.defaultPasses instants = .ok vars)
    : vars.prefills.ignoredSequenceGroups ≠ []
        ↔ ∃ prefills, scheduler.ReachesPrefill instants prefills
            ∧ prefills.Ignores false instants.prefills := by
  rcases defaultPasses_eq_ok h with ⟨before, hbefore, hrest⟩
  have hsame : vars.prefills = before.prefills := by
    rcases hrest with ⟨-, hrest⟩ | ⟨-, rfl⟩
    . exact (PolicyVars.keeps_of_scheduleRunningAndSwapped hrest).1
    . rfl
  simp only [ReachesPrefill, hdefault, Bool.false_eq_true, if_false]
  rw [hsame]
  rcases hbefore with ⟨hempty, hprefills⟩ | ⟨hempty, rfl⟩
  . rw [PolicyVars.ignored_of_schedulePrefills hprefills]
    have hswapped : scheduler.swapped = [] := List.isEmpty_iff.mp hempty
    simp only [hswapped, true_and]
    rfl
  . have hswapped : scheduler.swapped ≠ [] := by
      rintro hnil
      simp [hnil] at hempty
    simp [hswapped, PolicyVars.start, SchedulerPrefillOutputs.createEmpty]

/--
A call of `schedule` leaves every group in a queue just when it comes to none that it forgets or
ignores.
-/
theorem held_eq_iff_keepsRequests
    (h : scheduler.schedulePolicy instants = .ok (outputs, scheduler'))
    (hok : scheduler.config.OK scheduler.schedulerConfig.enableChunkedPrefill refs)
    : scheduler'.config.held = scheduler.config.held ↔ scheduler.KeepsRequests instants := by
  have hsettled : ∀ {vars : PolicyVars} {lost : Multiset SequenceGroup},
      Config.Moves scheduler.schedulerConfig.enableChunkedPrefill scheduler.config vars.config →
      vars.config.Settles lost outputs scheduler' →
      (scheduler'.config.held = scheduler.config.held
        ↔ lost = 0 ∧ vars.prefills.ignoredSequenceGroups = []
          ∧ vars.swappedIn.infeasibleSeqGroups = []) := by
    intro vars lost hmoves hsettles
    have hheld := hsettles.held_eq
    rw [hmoves.held_eq] at hheld
    rw [hheld, left_eq_add,
      add_eq_zero_iff_of_nonneg (Multiset.zero_le _) (Multiset.zero_le _),
      add_eq_zero_iff_of_nonneg (Multiset.zero_le _) (Multiset.zero_le _), and_assoc]
    simp [PolicyVars.config]
  have hkeeps : scheduler.KeepsRequests instants
      ↔ (scheduler.schedulerConfig.enableChunkedPrefill = true →
          ¬ ∃ vars, scheduler.ReachesRunning instants vars ∧ vars.SchedulesPrefill)
        ∧ (¬ ∃ vars, scheduler.ReachesPrefill instants vars
            ∧ vars.Ignores scheduler.schedulerConfig.enableChunkedPrefill instants.prefills)
        ∧ ¬ ∃ vars, scheduler.ReachesSwappedIn instants vars ∧ vars.MeetsInfeasible := by
    push Not
    exact ⟨fun h => ⟨h.running, h.prefills, h.swapped⟩, fun h => ⟨⟨h.1, h.2.2⟩, h.2.1⟩⟩
  rw [hkeeps]
  unfold schedulePolicy at h
  split at h
  . next hchunked =>
    rw [hchunked] at hok hsettled ⊢
    rcases scheduleChunkedPrefill_moves h hok with ⟨vars, hpasses, hmoves, hsettles⟩
    rcases passed_of_chunkedPasses hchunked hpasses with ⟨before, hbefore, hpassed⟩
    rw [hsettled hmoves hsettles, ← ignored_of_chunkedPasses hchunked hpasses,
      ← hpassed.prefillSeqGroups_ne_nil hbefore, ← hpassed.infeasibleSeqGroups_ne_nil hbefore]
    simp [groupsOf]
  . next hdefault =>
    rw [Bool.not_eq_true] at hdefault
    rw [hdefault] at hok hsettled ⊢
    rcases scheduleDefault_moves h hok with ⟨vars, hpasses, hmoves, hsettles⟩
    rcases passed_of_defaultPasses hdefault hpasses with ⟨before, hbefore, hpassed⟩
    rw [hsettled hmoves hsettles, ← ignored_of_defaultPasses hdefault hpasses,
      ← hpassed.infeasibleSeqGroups_ne_nil hbefore]
    simp

/--
Without swapped groups the default policy may only ignore a group.
-/
theorem keepsRequests_of_default
    (hdefault : scheduler.schedulerConfig.enableChunkedPrefill = false)
    (hswapped : scheduler.swapped = [])
    (h : ∀ vars ∈ (prefillLoop false instants.prefills).states (PrefillVars.start scheduler
      scheduler.waiting (scheduler.includeRunning scheduler.newBudget)),
      ¬ vars.Ignores false instants.prefills)
    : scheduler.KeepsRequests instants := by
  refine ⟨⟨fun hchunked => absurd hchunked (by simp [hdefault]), ?_⟩, ?_⟩
  . rintro vars ⟨before, running, hbefore, -, -, -, -, hreach⟩
    have hnone : before.remainingSwapped = [] := by
      unfold beforeRunning at hbefore
      rw [if_neg (by simp [hdefault]), if_pos (by simp [hswapped])] at hbefore
      rw [(PolicyVars.keeps_of_schedulePrefills hbefore).2.2.2]
      exact hswapped
    have hempty : vars.swappedQueue = [] := by
      induction hreach with
      | refl => simp [PolicyVars.swappedStart, SwappedVars.start, FcfsPolicy.sortByPriority, hnone]
      | tail _ hstep ih =>
        cases SwappedVars.next_of_step hstep with
        | ignore _ _ hnext => exact absurd (ih.symm.trans hnext) (by simp)
        | schedule _ _ _ _ hnext => exact absurd (ih.symm.trans hnext) (by simp)
    rintro ⟨group, swappedQueue, hqueue, -⟩
    rw [hempty] at hqueue
    cases hqueue
  . intro vars hreach
    unfold ReachesPrefill at hreach
    rw [if_neg (by simp [hdefault])] at hreach
    rw [hdefault]
    exact h vars (Loop.mem_states_of_reaches _ hreach.2)

end Policies

end Scheduler

end AtomaInfer
