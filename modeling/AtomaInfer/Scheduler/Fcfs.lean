import AtomaInfer.Scheduler.Passes

/-!
The order of the waiting queue over runs of the scheduler. Groups are added in the order of their
arrival, and `schedule_prefills` takes them from the front without sorting them.
-/

namespace AtomaInfer

namespace Scheduler

namespace RunningVars

/--
The iteration preempts `group` by recomputation: the last one of the queue, or the current one when
no other is left.
-/
def PreemptsByRecompute (vars : RunningVars) (group : SequenceGroup) : Prop :=
  ∃ current numRunningTokens,
    vars.current = some (current, numRunningTokens)
      ∧ vars.scheduler.canAppendSlots current = false
      ∧ vars.runningQueue.getLastD current = group
      ∧ group.getMaxNumRunningSeqs vars.scheduler.memory.sequences = 1

variable {vars vars' : RunningVars} {enableChunking : Bool}

theorem preempted_preempt {group : SequenceGroup} (h : vars.preempt group = .ok vars')
    : vars'.outputs.preempted = vars.outputs.preempted
        ∨ group.getMaxNumRunningSeqs vars.scheduler.memory.sequences = 1
          ∧ vars'.outputs.preempted = vars.outputs.preempted ++ [group] := by
  rcases preempt_eq_ok h with ⟨hone, scheduler, -, rfl⟩ | ⟨-, blocksToSwapOut, scheduler, -, rfl⟩
  . exact .inr ⟨hone, rfl⟩
  . exact .inl rfl

theorem Next.preempted (h : Next enableChunking vars vars')
    : vars'.outputs.preempted = vars.outputs.preempted
        ∨ ∃ group,
            vars.PreemptsByRecompute group
              ∧ vars'.outputs.preempted = vars.outputs.preempted ++ [group] := by
  cases h with
  | take => exact .inl rfl
  | preemptVictim group victim runningQueue numTokens budget budget' vars' hcurrent hcan hbudget
      hbudget' hqueue hpreempt =>
    rcases preempted_preempt hpreempt with hsame | ⟨hone, hpushed⟩
    . exact .inl hsame
    . refine .inr ⟨victim, ⟨group, numTokens, hcurrent, hcan, ?_, hone⟩, hpushed⟩
      rw [hqueue, List.getLastD_concat]
  | preemptSelf group numTokens budget budget' vars' hcurrent hcan hbudget hbudget' hqueue
      hpreempt =>
    rcases preempted_preempt hpreempt with hsame | ⟨hone, hpushed⟩
    . exact .inl hsame
    . refine .inr ⟨group, ⟨group, numTokens, hcurrent, hcan, ?_, hone⟩, hpushed⟩
      rw [hqueue]
      rfl
  | schedule group numTokens vars' hcurrent hcan hschedule =>
    rcases schedule_eq_ok hschedule with ⟨blocksToCopy, scheduler, -, rfl⟩
    exact .inl (preempted_addScheduled _ _ _ _).1

end RunningVars

def SortedByArrival (groups : List SequenceGroup) : Prop :=
  groups.Pairwise fun group group' => group.arrivalTime ≤ group'.arrivalTime

/--
Each group that a call of `schedule` preempts by recomputation arrived no earlier than those that the
call has preempted so before, and no later than those in the waiting queue.
-/
def PreemptsInOrder (scheduler : Scheduler) (instants : Instants) : Prop :=
  ∀ vars group, scheduler.ReachesRunning instants vars → vars.PreemptsByRecompute group →
    (∀ other ∈ vars.outputs.preempted, other.arrivalTime ≤ group.arrivalTime)
      ∧ ∀ other ∈ scheduler.waiting, group.arrivalTime ≤ other.arrivalTime

variable {scheduler scheduler' : Scheduler} {instants : Instants} {outputs : SchedulerOutputs}

theorem PreemptsInOrder.preempted (h : scheduler.PreemptsInOrder instants) {before : PolicyVars}
    {running : RunningVars} (hbefore : scheduler.beforeRunning instants = .ok before)
    (hnone : before.prefills.sequenceGroups = [])
    (hrun : (runningLoop scheduler.schedulerConfig.enableChunkedPrefill).run
      (before.runningStart instants) = .ok running)
    : SortedByArrival running.outputs.preempted
        ∧ ∀ group ∈ running.outputs.preempted, ∀ other ∈ scheduler.waiting,
            group.arrivalTime ≤ other.arrivalTime := by
  rcases (runningLoop _).exists_last_of_run_eq_ok hrun with ⟨last, hreach, hlast⟩
  rw [(RunningVars.of_step_eq_inr hlast).1]
  clear hlast
  -- induction on the iterations: each of them preempts at most one group more
  induction hreach with
  | refl => exact ⟨List.Pairwise.nil, fun group hgroup => (nomatch hgroup)⟩
  | tail hreach hstep ih =>
    rcases (RunningVars.next_of_step hstep).preempted with hsame | ⟨group, hpreempts, hpushed⟩
    . rw [hsame]
      exact ih
    . rcases h _ group ⟨before, hbefore, hnone, hreach⟩ hpreempts with ⟨hearlier, hwaiting⟩
      rw [hpushed]
      constructor
      . refine List.pairwise_append.mpr ⟨ih.1, List.pairwise_singleton _ _, ?_⟩
        intro other hother group' hgroup'
        rw [List.mem_singleton.mp hgroup']
        exact hearlier other hother
      . intro group' hgroup'
        rcases List.mem_append.mp hgroup' with hgroup' | hgroup'
        . exact ih.2 group' hgroup'
        . rw [List.mem_singleton.mp hgroup']
          exact hwaiting

theorem PreemptsInOrder.waiting (h : scheduler.PreemptsInOrder instants)
    {metadata : List SequenceGroupMetadata}
    (hschedule : scheduler.schedule instants = .ok (metadata, outputs, scheduler'))
    (hsorted : SortedByArrival scheduler.waiting) : SortedByArrival scheduler'.waiting := by
  rcases schedule_eq_ok hschedule with ⟨passed, hpolicy, ⟨manager, rfl, -⟩, -⟩
  rcases waiting_of_schedulePolicy hpolicy
    with ⟨before, preempted, remaining, hbefore, hwaiting, hsuffix, hpreempted⟩
  change SortedByArrival passed.waiting
  rw [hwaiting]
  have hremaining : SortedByArrival remaining := List.Pairwise.sublist hsuffix.sublist hsorted
  rcases hpreempted with rfl | ⟨hnone, running, hrun, rfl⟩
  . exact hremaining
  . rcases h.preempted hbefore hnone hrun with ⟨hpreempted, hearlier⟩
    refine List.pairwise_append.mpr ⟨hpreempted, hremaining, ?_⟩
    intro group hgroup other hother
    exact hearlier group hgroup other (hsuffix.subset hother)

/--
A scheduler and the time of the last arrival.
-/
structure Fcfs where
  scheduler : Scheduler
  latest : Nat

namespace Fcfs

/--
`add_sequence_group` with a group that arrives after the others, `schedule`, or the work of the
engine after a batch, which writes to the sequences and removes the finished groups. `schedule` is
called when `condition` holds.
-/
inductive Step (condition : Scheduler → Instants → Prop) (state : Fcfs) : Fcfs → Prop where
  | add (group : SequenceGroup) (sequences : SequenceHeap)
      (harrival : state.latest ≤ group.arrivalTime)
    : Step condition state {
        scheduler :=
          { state.scheduler with memory.sequences := sequences }.addSequenceGroup group
        latest := group.arrivalTime }
  | schedule (instants : Instants) (metadata : List SequenceGroupMetadata)
      (outputs : SchedulerOutputs) (scheduler : Scheduler)
      (hcondition : condition state.scheduler instants)
      (hschedule : state.scheduler.schedule instants = .ok (metadata, outputs, scheduler))
    : Step condition state { state with scheduler }
  | update (sequences : SequenceHeap)
    : Step condition state {
        state with
        scheduler :=
          { state.scheduler with memory.sequences := sequences }.removeFinishedSequences }

def Steps (condition : Scheduler → Instants → Prop) : Fcfs → Fcfs → Prop :=
  Relation.ReflTransGen (Step condition)

structure Inv (state : Fcfs) : Prop where
  sorted : SortedByArrival state.scheduler.waiting
  le_latest : ∀ group ∈ state.scheduler.groups, group.arrivalTime ≤ state.latest

variable {state state' : Fcfs}

theorem Inv.step (hinv : state.Inv) (h : Step PreemptsInOrder state state') : state'.Inv := by
  cases h with
  | add group sequences harrival =>
    have hle : ∀ other ∈ state.scheduler.groups, other.arrivalTime ≤ group.arrivalTime :=
      fun other hother => (hinv.le_latest other hother).trans harrival
    constructor
    . refine List.pairwise_append.mpr ⟨hinv.sorted, List.pairwise_singleton _ _, ?_⟩
      intro other hother group' hgroup'
      rw [List.mem_singleton.mp hgroup']
      exact hle other (by simp [groups, hother])
    . intro other hother
      simp only [groups, addSequenceGroup, List.mem_append, List.mem_singleton] at hother
      rcases hother with ((hother | rfl) | hother) | hother
      . exact hle other (by simp [groups, hother])
      . exact le_refl _
      . exact hle other (by simp [groups, hother])
      . exact hle other (by simp [groups, hother])
  | schedule instants metadata outputs scheduler hcondition hschedule =>
    constructor
    . exact hcondition.waiting hschedule hinv.sorted
    . intro group hgroup
      exact hinv.le_latest group ((groups_subperm_of_schedule hschedule).subset hgroup)
  | update sequences =>
    constructor
    . exact hinv.sorted
    . intro group hgroup
      have hremoved := groups_removeFinishedSequences
        { state.scheduler with memory.sequences := sequences }
      exact hinv.le_latest group (hremoved.subset hgroup)

/--
The waiting queue stays sorted by arrival as long as the calls of `schedule` preempt in order.
-/
theorem sortedByArrival_of_preemptsInOrder (config : SchedulerConfig)
    (blockSize numCpuBlocks numGpuBlocks : Nat) (slidingWindow : Option Nat)
    (sequences : SequenceHeap) (now : Nat) (state : Fcfs)
    (h : Steps PreemptsInOrder
      ⟨Scheduler.new config blockSize numCpuBlocks numGpuBlocks slidingWindow sequences now, 0⟩ state)
    : SortedByArrival state.scheduler.waiting := by
  have hinv : state.Inv := by
    induction h with
    | refl => exact ⟨List.Pairwise.nil, fun group hgroup => (nomatch hgroup)⟩
    | tail _ hstep ih => exact ih.step hstep
  exact hinv.sorted

section Runs

/--
A sequence of one prompt token that has got a second token.
-/
def decodingSequence : Sequence :=
  {
    waitingSequence [5, 6] with
    sequenceData := {
      SequenceData.new [5] [6] with
      numComputedTokens := 1
      stage := .decode
    }
    sequenceStatus := .running
  }

/--
`groups` arrive, are scheduled and get their first tokens, and `schedule` is called again.
-/
def runGroups (config : SchedulerConfig) (numGpuBlocks : Nat) (groups : List SequenceGroup)
    (instants : Instants) : Except SchedulerError (Scheduler × Scheduler × Scheduler) := do
  let scheduler := groups.foldl addSequenceGroup
    (Scheduler.new config 1 0 numGpuBlocks none (fun _ => waitingSequence [5]) 0)
  let (_, _, scheduled) ← scheduler.schedule instants
  let updated :=
    { scheduled with memory.sequences := fun _ => decodingSequence }.removeFinishedSequences
  let (_, _, rescheduled) ← updated.schedule instants
  return (scheduler, scheduled, rescheduled)

theorem steps_add (condition : Scheduler → Instants → Prop) (groups : List SequenceGroup)
    (hsorted : SortedByArrival groups)
    : ∀ state : Fcfs, (∀ group ∈ groups, state.latest ≤ group.arrivalTime) →
        ∃ latest, Steps condition state ⟨groups.foldl addSequenceGroup state.scheduler, latest⟩ := by
  induction groups with
  | nil => exact fun state _ => ⟨state.latest, .refl⟩
  | cons group groups ih =>
    intro state hlatest
    rcases List.pairwise_cons.mp hsorted with ⟨hfirst, hrest⟩
    have hadd : Step condition state ⟨state.scheduler.addSequenceGroup group, group.arrivalTime⟩ :=
      .add group state.scheduler.memory.sequences (hlatest group List.mem_cons_self)
    rcases ih hrest ⟨state.scheduler.addSequenceGroup group, group.arrivalTime⟩ hfirst
      with ⟨latest, hsteps⟩
    exact ⟨latest, .head hadd hsteps⟩

/--
Four groups with one block each need a second one. The first takes the block of the last, the second
that of the third, and the two come back in the wrong order.
-/
theorem sortedByArrival_fails_two_victims
    : ∃ (config : SchedulerConfig) (state : Fcfs),
        Steps (fun _ _ => True) ⟨Scheduler.new config 1 0 4 none (fun _ => waitingSequence [5]) 0, 0⟩
            state
          ∧ state.scheduler.waiting = [singleGroup "d" 3 3, singleGroup "c" 2 2]
          ∧ ¬ SortedByArrival state.scheduler.waiting := by
  let config : SchedulerConfig := ⟨4, 4, 4, 0, false⟩
  let groups := [singleGroup "a" 0 0, singleGroup "b" 1 1, singleGroup "c" 2 2, singleGroup "d" 3 3]
  let instants : Instants := ⟨4, 4, fun _ => 4, 4⟩
  have hrun : (runGroups config 4 groups instants).toOption.any
      (fun result => result.2.2.waiting = [singleGroup "d" 3 3, singleGroup "c" 2 2]) = true := by
    decide +kernel
  rcases Except.exists_eq_ok_of_any hrun with ⟨result, hok, hwaiting⟩
  rw [decide_eq_true_eq] at hwaiting
  simp only [runGroups, Except.bind_eq_ok] at hok
  rcases hok with ⟨⟨metadata, outputs, scheduled⟩, hfirst, ⟨metadata', outputs', rescheduled⟩,
    hsecond, hpure⟩
  cases hpure
  rcases steps_add (fun _ _ => True) groups (by unfold SortedByArrival; decide)
    ⟨Scheduler.new config 1 0 4 none (fun _ => waitingSequence [5]) 0, 0⟩ (by simp)
    with ⟨latest, hadd⟩
  refine ⟨config, ⟨rescheduled, latest⟩, ?_, hwaiting, ?_⟩
  . exact ((hadd.tail (.schedule instants metadata outputs scheduled trivial hfirst)).tail
      (.update fun _ => decodingSequence)).tail
        (.schedule instants metadata' outputs' rescheduled trivial hsecond)
  . rw [hwaiting]
    unfold SortedByArrival
    decide

/--
The first of two groups is scheduled. The second stays in the queue, and a third one joins it.
-/
theorem sortedByArrival_of_preemptsInOrder_two_waiting
    : ∃ state : Fcfs,
        state.scheduler.waiting = [singleGroup "b" 1 1, singleGroup "c" 2 2]
          ∧ SortedByArrival state.scheduler.waiting := by
  let config : SchedulerConfig := ⟨4, 1, 4, 0, false⟩
  let initial := Scheduler.new config 1 0 4 none (fun _ => waitingSequence [5]) 0
  let groups := [singleGroup "a" 0 0, singleGroup "b" 1 1]
  let instants : Instants := ⟨4, 4, fun _ => 4, 4⟩
  let added := groups.foldl addSequenceGroup initial
  have hrun : (added.schedule instants).toOption.any
      (fun result => result.2.2.waiting = [singleGroup "b" 1 1]) = true := by
    decide +kernel
  rcases Except.exists_eq_ok_of_any hrun with ⟨⟨metadata, outputs, scheduled⟩, hok, hwaiting⟩
  rw [decide_eq_true_eq] at hwaiting
  have horder : added.PreemptsInOrder instants := by
    rintro vars group ⟨before, hbefore, hnone, -⟩ -
    have hprefills : (added.beforeRunning instants).toOption.any
        (fun before => before.prefills.sequenceGroups ≠ []) = true := by
      decide +kernel
    rw [hbefore] at hprefills
    simp [Except.toOption, hnone] at hprefills
  have hadd : Steps PreemptsInOrder ⟨initial, 0⟩ ⟨added, 1⟩ :=
    (Relation.ReflTransGen.single (.add (singleGroup "a" 0 0) initial.memory.sequences (le_refl _))
      ).tail (.add (singleGroup "b" 1 1) initial.memory.sequences (by decide))
  have hlate : 1 ≤ (singleGroup "c" 2 2).arrivalTime := by decide
  have hsteps : Steps PreemptsInOrder ⟨initial, 0⟩
      ⟨scheduled.addSequenceGroup (singleGroup "c" 2 2), 2⟩ :=
    (hadd.tail (.schedule instants metadata outputs scheduled horder hok)).tail
      (.add (singleGroup "c" 2 2) scheduled.memory.sequences hlate)
  have hqueue : (scheduled.addSequenceGroup (singleGroup "c" 2 2)).waiting
      = [singleGroup "b" 1 1, singleGroup "c" 2 2] := by
    unfold addSequenceGroup
    rw [hwaiting]
    rfl
  exact ⟨_, hqueue, sortedByArrival_of_preemptsInOrder config 1 0 4 none _ 0 _ hsteps⟩

end Runs

end Fcfs

end Scheduler

end AtomaInfer
