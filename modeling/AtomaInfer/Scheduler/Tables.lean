import AtomaInfer.Scheduler.Passes
import AtomaInfer.Scheduler.Run

/-!
The sequences that have a block table are those of the groups that run or are swapped out, as long
as the scheduler forgets no group that has one.
-/

namespace AtomaInfer

/--
The block tables are those of sequences of `groups`.
-/
def Memory.TablesIn (memory : Memory) (groups : Multiset SequenceGroup) : Prop :=
  ∀ sequenceId blockTable, memory.blockManager.blockTables.lookup sequenceId = some blockTable →
    ∃ group ∈ groups, ∃ seq ∈ group.sequences, seq.sequenceId = sequenceId

namespace Memory.TablesIn

variable {memory memory' : Memory} {groups groups' : Multiset SequenceGroup}
variable {group : SequenceGroup} {seq : SequenceRef}

theorem of_eq (h : memory.TablesIn groups)
    (heq : memory'.blockManager.blockTables = memory.blockManager.blockTables)
    (hle : groups ≤ groups') : memory'.TablesIn groups' := by
  intro sequenceId blockTable hlookup
  rw [heq] at hlookup
  rcases h sequenceId blockTable hlookup with ⟨other, hother, hseq⟩
  exact ⟨other, Multiset.mem_of_le hle hother, hseq⟩

/--
The table of `seq` may be new, and the group of `seq` is one of `groups'`.
-/
theorem of_touches (h : memory.TablesIn groups) (group : SequenceGroup)
    (htouches : Memory.Touches seq memory memory') (hle : groups ≤ groups') (hgroup : group ∈ groups')
    (hseq : seq ∈ group.sequences)
    : memory'.TablesIn groups' := by
  intro sequenceId blockTable hlookup
  by_cases hid : sequenceId = seq.sequenceId
  . exact ⟨group, hgroup, seq, hseq, hid.symm⟩
  . rw [htouches.lookup_of_ne sequenceId hid] at hlookup
    rcases h sequenceId blockTable hlookup with ⟨other, hother, hseq⟩
    exact ⟨other, Multiset.mem_of_le hle hother, hseq⟩

/--
The group of `seq` may go when `seq` has no table.
-/
theorem of_table_eq_none (h : memory.TablesIn (group ::ₘ groups))
    (htouches : Memory.Touches seq memory memory') (hgroup : group.sequences = [seq])
    (hnone : memory'.table seq = none) : memory'.TablesIn groups := by
  intro sequenceId blockTable hlookup
  have hne : sequenceId ≠ seq.sequenceId := by
    rintro rfl
    cases hnone.symm.trans hlookup
  rw [htouches.lookup_of_ne sequenceId hne] at hlookup
  rcases h sequenceId blockTable hlookup with ⟨other, hother, seq', hseq', hid⟩
  rcases Multiset.mem_cons.mp hother with rfl | hother
  . rw [hgroup, List.mem_singleton] at hseq'
    rw [← hid, hseq'] at hne
    exact absurd rfl hne
  . exact ⟨other, hother, seq', hseq', hid⟩

end Memory.TablesIn

namespace Scheduler

namespace Config

variable {c c' : Config} {enableChunking : Bool}

/--
The groups whose sequences may have a table.
-/
def tabled (c : Config) : Multiset SequenceGroup :=
  c.running + c.swapped + c.scheduled.map (·.scheduledGroup) + c.infeasible

theorem Move.tablesIn (h : Move enableChunking c c') (htables : c.memory.TablesIn c.tabled)
    : c'.memory.TablesIn c'.tabled := by
  cases h with
  | recompute group seq running memory hrunning hgroup heffect =>
    refine Memory.TablesIn.of_table_eq_none ?_ heffect.toTouches hgroup heffect.table_eq
    simpa only [tabled, hrunning, Multiset.cons_add] using htables
  | swapOut group seq running numbers memory hrunning hgroup heffect =>
    refine htables.of_touches group heffect.toTouches (le_of_eq ?_) ?_ (by simp [hgroup])
    . simp only [tabled, hrunning, Multiset.cons_add, Multiset.add_cons]
    . simp [tabled]
  | append group seq running numTokens copies memory hrunning hgroup hchunk heffect =>
    refine htables.of_touches group heffect.toTouches (le_of_eq ?_) ?_ (by simp [hgroup])
    . simp only [tabled, hrunning, Multiset.cons_add, Multiset.add_cons, Multiset.map_cons]
    . simp [tabled]
  | swapIn group seq swapped numTokens numbers copies between memory hswapped hgroup hchunk heffect
      happends =>
    refine htables.of_touches group (heffect.toTouches.trans_appends happends) (le_of_eq ?_) ?_
      (by simp [hgroup])
    . simp only [tabled, hswapped, Multiset.cons_add, Multiset.add_cons, Multiset.map_cons]
    . simp [tabled]
  | reject group seq swapped memory hswapped hgroup heffect =>
    refine htables.of_eq (congrArg BlockSpaceManager.blockTables heffect.blockManager_eq)
      (le_of_eq ?_)
    simp only [tabled, hswapped, Multiset.cons_add, Multiset.add_cons]
  | admitNext group seq waiting numTokens memory hwaiting hgroup hchunk heffect =>
    refine htables.of_touches group heffect.toTouches ?_ ?_ (by simp [hgroup])
    . simp only [tabled, Multiset.cons_add, Multiset.add_cons, Multiset.map_cons]
      exact Multiset.le_cons_self _ _
    . simp [tabled]
  | ignore group seq waiting memory hwaiting hgroup heffect =>
    exact htables.of_eq (congrArg BlockSpaceManager.blockTables heffect.blockManager_eq) le_rfl

theorem Moves.tablesIn (h : Moves enableChunking c c') (htables : c.memory.TablesIn c.tabled)
    : c'.memory.TablesIn c'.tabled := by
  induction h with
  | refl => exact htables
  | tail _ hmove ih => exact hmove.tablesIn ih

end Config

section Policies

/--
A call of `schedule` comes to no group that has a table and that it forgets: a group in its prefill
phase which `schedule_running` has room for, when prompts may be split, or a group that can never be
swapped in.
-/
structure KeepsTables (scheduler : Scheduler) (instants : Instants) : Prop where
  running : scheduler.schedulerConfig.enableChunkedPrefill = true →
    ∀ vars, scheduler.ReachesRunning instants vars → ¬ vars.SchedulesPrefill
  swapped : ∀ vars, scheduler.ReachesSwappedIn instants vars → ¬ vars.MeetsInfeasible

variable {scheduler scheduler' : Scheduler} {instants : Instants} {outputs : SchedulerOutputs}
variable {before : PolicyVars} {running : SchedulerRunningOutputs}
variable {swappedIn : SchedulerSwappedInOutputs} {refs : List SequenceRef}

theorem Passed.prefillSeqGroups_ne_nil (h : scheduler.Passed instants before running swappedIn)
    (hbefore : scheduler.beforeRunning instants = .ok before)
    : running.prefillSeqGroups ≠ []
        ↔ ∃ vars, scheduler.ReachesRunning instants vars ∧ vars.SchedulesPrefill := by
  have hcalled : ∀ vars, before.prefills.sequenceGroups = [] →
      (runningLoop scheduler.schedulerConfig.enableChunkedPrefill).run
        (before.runningStart instants) = .ok vars →
      (vars.outputs.prefillSeqGroups ≠ []
        ↔ ∃ vars, scheduler.ReachesRunning instants vars ∧ vars.SchedulesPrefill) := by
    intro vars hprefills hrun
    rw [scheduleRunning_prefillSeqGroups hrun]
    constructor
    . rintro ⟨vars', hreach, hschedules⟩
      exact ⟨vars', ⟨before, hbefore, hprefills, hreach⟩, hschedules⟩
    . rintro ⟨vars', ⟨before', hbefore', -, hreach⟩, hschedules⟩
      cases hbefore.symm.trans hbefore'
      exact ⟨vars', hreach, hschedules⟩
  cases h with
  | prefills hprefills =>
    refine ⟨fun hne => absurd rfl hne, ?_⟩
    rintro ⟨vars, ⟨before', hbefore', hnone, -⟩, -⟩
    cases hbefore.symm.trans hbefore'
    exact absurd hnone hprefills
  | preempts running hprefills hrun hpreempts => exact hcalled running hprefills hrun
  | swaps running swapped hprefills hrun => exact hcalled running hprefills hrun

theorem Passed.infeasibleSeqGroups_ne_nil (h : scheduler.Passed instants before running swappedIn)
    (hbefore : scheduler.beforeRunning instants = .ok before)
    : swappedIn.infeasibleSeqGroups ≠ []
        ↔ ∃ vars, scheduler.ReachesSwappedIn instants vars ∧ vars.MeetsInfeasible := by
  cases h with
  | prefills hprefills =>
    refine ⟨fun hne => absurd rfl hne, ?_⟩
    rintro ⟨vars, ⟨before', _, hbefore', hnone, -⟩, -⟩
    cases hbefore.symm.trans hbefore'
    exact absurd hnone hprefills
  | preempts running hprefills hrun hpreempts =>
    refine ⟨fun hne => absurd rfl hne, ?_⟩
    rintro ⟨vars, ⟨before', running', hbefore', -, hrun', hpreempted, hswappedOut, -⟩, -⟩
    cases hbefore.symm.trans hbefore'
    cases hrun.symm.trans hrun'
    rcases hpreempts with hne | hne
    . exact absurd hpreempted hne
    . exact absurd hswappedOut hne
  | swaps running swapped hprefills hrun hpreempted hswappedOut hswapped =>
    rw [scheduleSwapped_infeasibleSeqGroups hswapped]
    constructor
    . rintro ⟨vars, hreach, hmeets⟩
      exact ⟨vars, ⟨before, running, hbefore, hprefills, hrun, hpreempted, hswappedOut, hreach⟩,
        hmeets⟩
    . rintro ⟨vars, ⟨before', running', hbefore', -, hrun', -, -, hreach⟩, hmeets⟩
      cases hbefore.symm.trans hbefore'
      cases hrun.symm.trans hrun'
      exact ⟨vars, hreach, hmeets⟩

theorem KeepsTables.infeasibleSeqGroups_eq_nil (hkeeps : scheduler.KeepsTables instants)
    (h : scheduler.Passed instants before running swappedIn)
    (hbefore : scheduler.beforeRunning instants = .ok before)
    : swappedIn.infeasibleSeqGroups = [] := by
  by_contra hne
  rcases (h.infeasibleSeqGroups_ne_nil hbefore).mp hne with ⟨vars, hreach, hmeets⟩
  exact hkeeps.swapped vars hreach hmeets

theorem KeepsTables.tablesIn (hkeeps : scheduler.KeepsTables instants)
    (h : scheduler.schedulePolicy instants = .ok (outputs, scheduler'))
    (hok : scheduler.config.OK scheduler.schedulerConfig.enableChunkedPrefill refs)
    (htables : scheduler.memory.TablesIn (scheduler.running + scheduler.swapped))
    : scheduler'.memory.TablesIn (scheduler'.running + scheduler'.swapped) := by
  have hstart : scheduler.config.memory.TablesIn scheduler.config.tabled := by
    simpa [Scheduler.config, Config.tabled] using htables
  have hsettled : ∀ vars : PolicyVars,
      Config.Moves scheduler.schedulerConfig.enableChunkedPrefill scheduler.config vars.config →
      vars.config.Settles 0 outputs scheduler' → vars.swappedIn.infeasibleSeqGroups = [] →
      scheduler'.memory.TablesIn (scheduler'.running + scheduler'.swapped) := by
    intro vars hmoves hsettles hnil
    have hzero : vars.config.infeasible = 0 := congrArg Multiset.ofList hnil
    have htables := hmoves.tablesIn hstart
    have hrunning := hsettles.running_add
    rw [add_zero] at hrunning
    rw [hsettles.memory_eq, hrunning, hsettles.swapped_eq]
    rw [Config.tabled, hzero, add_zero, add_right_comm] at htables
    exact htables
  unfold schedulePolicy at h
  split at h
  . next hchunked =>
    rw [hchunked] at hok hsettled
    rcases scheduleChunkedPrefill_moves h hok with ⟨vars, hpasses, hmoves, hsettles⟩
    rcases passed_of_chunkedPasses hchunked hpasses with ⟨before, hbefore, hpassed⟩
    have hprefills : vars.runningScheduled.prefillSeqGroups = [] := by
      by_contra hne
      rcases (hpassed.prefillSeqGroups_ne_nil hbefore).mp hne with ⟨vars', hreach, hschedules⟩
      exact hkeeps.running hchunked vars' hreach hschedules
    rw [hprefills] at hsettles
    exact hsettled vars hmoves hsettles (hkeeps.infeasibleSeqGroups_eq_nil hpassed hbefore)
  . next hdefault =>
    rw [Bool.not_eq_true] at hdefault
    rw [hdefault] at hok hsettled
    rcases scheduleDefault_moves h hok with ⟨vars, hpasses, hmoves, hsettles⟩
    rcases passed_of_defaultPasses hdefault hpasses with ⟨before, hbefore, hpassed⟩
    exact hsettled vars hmoves hsettles (hkeeps.infeasibleSeqGroups_eq_nil hpassed hbefore)

end Policies

end Scheduler

end AtomaInfer
