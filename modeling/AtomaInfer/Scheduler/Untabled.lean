import AtomaInfer.BlockManager.Ring
import AtomaInfer.Scheduler.Ignored
import AtomaInfer.Scheduler.Sharing

/-!
A call of `schedule` touches the block tables of the queued groups only, and a group that waits has
none, as long as the identifiers of the sequences in the queues are distinct.
-/

namespace AtomaInfer

namespace BlockSpaceManager

open EStateM

variable {manager manager' manager'' : BlockSpaceManager} {group : SequenceGroup}
variable {groups groups' : List SequenceGroup} {sequenceId : Nat}

/--
No sequence of the group has a block table.
-/
def Untabled (manager : BlockSpaceManager) (group : SequenceGroup) : Prop :=
  ∀ sequenceId ∈ group.sequenceIds, manager.blockTables.lookup sequenceId = none

/--
Of the block tables only those of the sequences of `groups` differ.
-/
def TouchesOnly (groups : List SequenceGroup) (manager manager' : BlockSpaceManager) : Prop :=
  ∀ sequenceId, (∀ group ∈ groups, sequenceId ∉ group.sequenceIds) →
    manager'.blockTables.lookup sequenceId = manager.blockTables.lookup sequenceId

namespace TouchesOnly

theorem refl (groups : List SequenceGroup) (manager : BlockSpaceManager)
    : TouchesOnly groups manager manager :=
  fun _ _ => rfl

theorem trans (h : TouchesOnly groups manager manager') (h' : TouchesOnly groups manager' manager'')
    : TouchesOnly groups manager manager'' :=
  fun sequenceId hnotMem => (h' sequenceId hnotMem).trans (h sequenceId hnotMem)

theorem mono (h : TouchesOnly groups manager manager') (hsubset : groups ⊆ groups')
    : TouchesOnly groups' manager manager' :=
  fun sequenceId hnotMem => h sequenceId fun group hgroup => hnotMem group (hsubset hgroup)

theorem of_table (h : ∀ id, id ≠ sequenceId →
      manager'.blockTables.lookup id = manager.blockTables.lookup id)
    (hmem : sequenceId ∈ group.sequenceIds) : TouchesOnly [group] manager manager' := by
  intro id hnotMem
  apply h
  rintro rfl
  exact hnotMem group (List.mem_singleton_self _) hmem

theorem untabled (h : TouchesOnly groups manager manager') (huntabled : manager.Untabled group)
    (happart : ∀ other ∈ groups, group.sequenceIds.Disjoint other.sequenceIds)
    : manager'.Untabled group := by
  intro sequenceId hmem
  rw [h sequenceId fun other hother => happart other hother hmem]
  exact huntabled sequenceId hmem

end TouchesOnly

theorem touchesOnly_of_allocate {heap : SequenceHeap} {u : Unit}
    (h : (allocate group heap).run manager = .ok u manager')
    : TouchesOnly [group] manager manager' := by
  intro sequenceId hnotMem
  apply (draws_of_allocate h).2
  intro hmem
  rcases List.mem_map.mp hmem with ⟨seq, hseq, rfl⟩
  exact hnotMem group (List.mem_singleton_self _)
    (SequenceGroup.mem_sequenceIds (SequenceGroup.mem_getSeqs.mp hseq).1)

theorem touchesOnly_of_free {u : Unit} (h : (free sequenceId).run manager = .ok u manager')
    (hmem : sequenceId ∈ group.sequenceIds) : TouchesOnly [group] manager manager' :=
  .of_table (fun id hne => by rw [(of_free h).lookup_eq, if_neg hne]) hmem

theorem touchesOnly_of_swapTable {source target : BlockDevice} {mapping mapping' : SwapMapping}
    (h : (swapTable source target mapping sequenceId).run manager = .ok mapping' manager')
    (hmem : sequenceId ∈ group.sequenceIds) : TouchesOnly [group] manager manager' := by
  cases hlookup : manager.blockTables.lookup sequenceId with
  | none =>
    simp only [swapTable, bind_run_eq_ok] at h
    rcases h with ⟨_, _, hget, h⟩
    cases hget
    rw [hlookup] at h
    cases h
    exact .refl _ _
  | some blockTable =>
    rcases of_swapTable h hlookup with ⟨blockTable', hreplaces, -⟩
    exact .of_table (fun id hne => by rw [hreplaces.lookup_eq, if_neg hne]) hmem

end BlockSpaceManager

namespace Scheduler

open BlockSpaceManager (TouchesOnly)

section Primitives

variable {scheduler scheduler' : Scheduler} {group : SequenceGroup} {seq : SequenceRef}

theorem touchesOnly_of_appendSlots {blocksToCopy blocksToCopy' : BlockMapping}
    (h : scheduler.appendSlots group blocksToCopy = .ok (blocksToCopy', scheduler'))
    : TouchesOnly [group] scheduler.memory.blockManager scheduler'.memory.blockManager := by
  refine Except.foldlM_invariant
    (I := fun acc : BlockMapping × Scheduler =>
      TouchesOnly [group] scheduler.memory.blockManager acc.2.memory.blockManager)
    ?_ h (.refl _ _)
  rintro ⟨copies, current⟩ ⟨copies', current'⟩ seq hmem hcurrent hseq
  rcases Except.bind_eq_ok.mp hseq with ⟨⟨cow, next⟩, happend, hseq⟩
  rcases onBlockManager_eq_ok happend with ⟨blockManager, hrun, rfl⟩
  have hid : seq.sequenceId ∈ group.sequenceIds :=
    SequenceGroup.mem_sequenceIds (SequenceGroup.mem_getSeqs.mp hmem).1
  have hnext := hcurrent.trans (.of_table (BlockSpaceManager.draws_of_appendSlots hrun).2 hid)
  dsimp only at hseq
  split at hseq <;> cases hseq <;> exact hnext

/--
A group with one sequence has no table after it was preempted by recomputation.
-/
theorem untabled_of_preemptByRecompute (hgroup : group.sequences = [seq])
    (h : scheduler.preemptByRecompute group = .ok scheduler')
    : TouchesOnly [group] scheduler.memory.blockManager scheduler'.memory.blockManager
        ∧ scheduler'.memory.blockManager.Untabled group := by
  rcases preemptByRecompute_eq_ok h with ⟨seq', blockManager, hseqs, hfree, rfl⟩
  have hmem : seq' ∈ group.sequences :=
    (SequenceGroup.mem_getSeqs.mp (by rw [hseqs]; exact List.mem_singleton_self _)).1
  refine ⟨BlockSpaceManager.touchesOnly_of_free hfree (SequenceGroup.mem_sequenceIds hmem), ?_⟩
  intro sequenceId hid
  rw [hgroup, List.mem_singleton] at hmem
  rw [SequenceGroup.sequenceIds, hgroup, List.map_singleton, List.mem_singleton] at hid
  change blockManager.blockTables.lookup sequenceId = none
  rw [(BlockSpaceManager.of_free hfree).lookup_eq, if_pos (by rw [hid, hmem])]

theorem touchesOnly_of_swap {source target : BlockDevice} {before : SequenceStatus}
    {setStatus : Nat → Memory.MemoryM Unit}
    (hstatus : ∀ {sequenceId memory u memory'},
      (setStatus sequenceId).run memory = .ok u memory' →
        memory'.blockManager = memory.blockManager)
    {memory memory' : Memory} {mapping : BlockMapping}
    (h : (Memory.swap group source target before setStatus).run memory = .ok mapping memory')
    : TouchesOnly [group] memory.blockManager memory'.blockManager := by
  simp only [Memory.swap, EStateM.bind_run_eq_ok] at h
  rcases h with ⟨_, _, hget, swapped, _, hfold, hpure⟩
  cases hget
  cases hpure
  have hinv := EStateM.foldlM_run_invariant
    (I := fun rest _ (current : Memory) =>
      TouchesOnly [group] memory.blockManager current.blockManager
        ∧ ∀ sequenceId ∈ rest, sequenceId ∈ group.sequenceIds)
    (by
      intro sequenceId rest mapping mapping' current next hI hstep
      rw [EStateM.bind_run_eq_ok] at hstep
      rcases hstep with ⟨_, between, htable, hstep⟩
      rw [EStateM.bind_run_eq_ok] at hstep
      rcases hstep with ⟨_, _, hset, hpure⟩
      cases hpure
      rcases onBlockManager_run_eq_ok htable with ⟨blockManager, hrun, rfl⟩
      rw [hstatus hset]
      exact ⟨hI.1.trans (BlockSpaceManager.touchesOnly_of_swapTable hrun
        (hI.2 sequenceId List.mem_cons_self)), fun id hid => hI.2 id (List.mem_cons_of_mem _ hid)⟩)
    hfold ⟨.refl _ _, fun sequenceId hid => by
      rcases List.mem_map.mp hid with ⟨seq, hseq, rfl⟩
      exact SequenceGroup.mem_sequenceIds (SequenceGroup.mem_getSeqs.mp hseq).1⟩
  exact hinv.1

theorem touchesOnly_of_swapOut {blocks blocks' : BlockMapping}
    (h : scheduler.swapOut group blocks = .ok (blocks', scheduler'))
    : TouchesOnly [group] scheduler.memory.blockManager scheduler'.memory.blockManager := by
  simp only [swapOut] at h
  split at h
  . cases h
  . rcases Except.bind_eq_ok.mp h with ⟨⟨mapping, next⟩, honMemory, hpure⟩
    rcases onMemory_eq_ok honMemory with ⟨memory, hrun, rfl⟩
    cases hpure
    change TouchesOnly [group] scheduler.memory.blockManager memory.blockManager
    refine touchesOnly_of_swap ?_ hrun
    intro sequenceId memory u memory' hset
    split at hset
    . cases hset
    . cases hset
      rfl

theorem touchesOnly_of_swapIn {blocks blocks' : BlockMapping}
    (h : scheduler.swapIn group blocks = .ok (blocks', scheduler'))
    : TouchesOnly [group] scheduler.memory.blockManager scheduler'.memory.blockManager := by
  rcases Except.bind_eq_ok.mp h with ⟨⟨mapping, next⟩, honMemory, hpure⟩
  rcases onMemory_eq_ok honMemory with ⟨memory, hrun, rfl⟩
  cases hpure
  change TouchesOnly [group] scheduler.memory.blockManager memory.blockManager
  refine touchesOnly_of_swap ?_ hrun
  intro sequenceId memory u memory' hset
  cases hset
  rfl

theorem touchesOnly_of_allocateAndSetRunning
    (h : scheduler.allocateAndSetRunning group = .ok scheduler')
    : TouchesOnly [group] scheduler.memory.blockManager scheduler'.memory.blockManager := by
  rcases Except.bind_eq_ok.mp h with ⟨⟨_, next⟩, honMemory, hpure⟩
  rcases onBlockManager_eq_ok honMemory with ⟨blockManager, hrun, rfl⟩
  cases hpure
  exact BlockSpaceManager.touchesOnly_of_allocate hrun

end Primitives

/--
Each group has one sequence, and no two groups share an identifier.
-/
structure Distinct (groups : List SequenceGroup) : Prop where
  single : ∀ group ∈ groups, ∃ seq, group.sequences = [seq]
  disjoint : groups.Pairwise fun group group' => group.sequenceIds.Disjoint group'.sequenceIds

section Distinct

variable {groups groups' : List SequenceGroup} {group group' : SequenceGroup}

theorem Distinct.of_subperm (h : Distinct groups) (hsubperm : groups'.Subperm groups)
    : Distinct groups' := by
  refine ⟨fun group hgroup => h.single group (hsubperm.subset hgroup), ?_⟩
  rcases hsubperm with ⟨middle, hperm, hsublist⟩
  exact (hperm.pairwise_iff fun hdisjoint => hdisjoint.symm).mp (h.disjoint.sublist hsublist)

theorem Distinct.disjoint_of_mem (h : Distinct (groups ++ groups')) (hgroup : group ∈ groups)
    (hgroup' : group' ∈ groups') : group.sequenceIds.Disjoint group'.sequenceIds :=
  (List.pairwise_append.mp h.disjoint).2.2 group hgroup group' hgroup'

end Distinct

namespace RunningVars

variable {enableChunking : Bool} {vars vars' : RunningVars} {group : SequenceGroup}

theorem untabled_of_preempt (hsingle : ∃ seq, group.sequences = [seq])
    (h : vars.preempt group = .ok vars')
    : TouchesOnly [group] vars.scheduler.memory.blockManager vars'.scheduler.memory.blockManager
        ∧ (vars'.outputs.preempted = vars.outputs.preempted
          ∨ vars'.outputs.preempted = vars.outputs.preempted ++ [group]
            ∧ vars'.scheduler.memory.blockManager.Untabled group) := by
  rcases hsingle with ⟨seq, hgroup⟩
  rcases preempt_eq_ok h with ⟨-, scheduler, hrecompute, rfl⟩ | ⟨-, blocks, scheduler, hswap, rfl⟩
  . rcases untabled_of_preemptByRecompute hgroup hrecompute with ⟨htouches, huntabled⟩
    exact ⟨htouches, .inr ⟨rfl, huntabled⟩⟩
  . have htouches := touchesOnly_of_swapOut hswap
    exact ⟨htouches, .inl rfl⟩

theorem mem_groups_of_pending (h : group ∈ vars.pending) : group ∈ vars.groups := by
  rcases List.mem_append.mp h with h | h
  . simp [groups, h]
  . simp [groups, h]

theorem disjoint_of_mem_preempted (hdistinct : Distinct vars.groups) (hgroup : group ∈ vars.pending)
    {other : SequenceGroup} (hother : other ∈ vars.outputs.preempted)
    : other.sequenceIds.Disjoint group.sequenceIds := by
  have hpairwise := (List.pairwise_append.mp (List.pairwise_append.mp hdistinct.disjoint).1).2.2
  refine (hpairwise group ?_ other hother).symm
  simp only [List.mem_append]
  rcases List.mem_append.mp hgroup with hcurrent | hqueue
  . exact .inl (.inl (.inr hcurrent))
  . exact .inl (.inl (.inl hqueue))

/--
An iteration touches one group. It may be among the preempted ones afterwards, and then has no
table.
-/
theorem Next.untabled (h : Next enableChunking vars vars') (hdistinct : Distinct vars.groups)
    : ∃ group ∈ vars.pending,
        TouchesOnly [group] vars.scheduler.memory.blockManager vars'.scheduler.memory.blockManager
          ∧ (vars'.outputs.preempted = vars.outputs.preempted
            ∨ vars'.outputs.preempted = vars.outputs.preempted ++ [group]
              ∧ vars'.scheduler.memory.blockManager.Untabled group) := by
  have hsingle : ∀ group ∈ vars.pending, ∃ seq, group.sequences = [seq] :=
    fun group hgroup => hdistinct.single group (mem_groups_of_pending hgroup)
  cases h with
  | take group runningQueue numRunningTokens hcurrent hqueue =>
    exact ⟨group, by simp [pending, hqueue], .refl _ _, .inl rfl⟩
  | preemptVictim group victim runningQueue numRunningTokens budget budget' vars'' hcurrent _ _ _
      hqueue hpreempt =>
    have hmem : victim ∈ vars.pending := by simp [pending, hqueue]
    have hvictim := untabled_of_preempt (hsingle victim hmem) hpreempt
    exact ⟨victim, hmem, hvictim⟩
  | preemptSelf group numRunningTokens budget budget' vars'' hcurrent _ _ _ hqueue hpreempt =>
    have hmem := mem_pending_of_current hcurrent
    have hself := untabled_of_preempt (hsingle group hmem) hpreempt
    exact ⟨group, hmem, hself⟩
  | schedule group numRunningTokens vars'' hcurrent _ hschedule =>
    refine ⟨group, mem_pending_of_current hcurrent, ?_⟩
    rcases schedule_eq_ok hschedule with ⟨blocksToCopy, scheduler, happend, rfl⟩
    exact ⟨touchesOnly_of_appendSlots happend, .inl (preempted_addScheduled _ _ _ _).1⟩

/--
What holds at each iteration of the loop over `runningQueue`.
-/
structure LeavesUntabled (manager : BlockSpaceManager) (runningQueue : List SequenceGroup)
    (vars : RunningVars) : Prop where
  groups_perm : vars.groups.Perm runningQueue
  touchesOnly : TouchesOnly runningQueue manager vars.scheduler.memory.blockManager
  untabled : ∀ group ∈ vars.outputs.preempted, vars.scheduler.memory.blockManager.Untabled group

theorem LeavesUntabled.next {manager : BlockSpaceManager} {runningQueue : List SequenceGroup}
    (hleaves : vars.LeavesUntabled manager runningQueue) (hdistinct : Distinct runningQueue)
    (h : Next enableChunking vars vars') : vars'.LeavesUntabled manager runningQueue := by
  have hdistinct := hdistinct.of_subperm hleaves.groups_perm.subperm
  rcases h.untabled hdistinct with ⟨group, hgroup, htouches, hpreempted⟩
  have hmem := hleaves.groups_perm.subset (mem_groups_of_pending hgroup)
  have hkeeps : ∀ other ∈ vars.outputs.preempted,
      vars'.scheduler.memory.blockManager.Untabled other := fun other hother =>
    htouches.untabled (hleaves.untabled other hother) (by
      simpa using disjoint_of_mem_preempted hdistinct hgroup hother)
  refine ⟨h.groups_perm.trans hleaves.groups_perm,
    hleaves.touchesOnly.trans (htouches.mono (List.cons_subset.mpr ⟨hmem, List.nil_subset _⟩)), ?_⟩
  intro other hother
  rcases hpreempted with hsame | ⟨hadd, huntabled⟩
  . exact hkeeps other (hsame ▸ hother)
  . rw [hadd, List.mem_append, List.mem_singleton] at hother
    rcases hother with hother | rfl
    . exact hkeeps other hother
    . exact huntabled

end RunningVars

section Passes

variable {scheduler : Scheduler} {queue : List SequenceGroup} {budget : SchedulingBudget}
variable {enableChunking : Bool}

/--
The groups that were preempted by recomputation have no table.
-/
theorem scheduleRunning_untabled {now : Nat} {vars : RunningVars}
    (h : scheduler.scheduleRunning queue budget enableChunking now = .ok vars)
    (hdistinct : Distinct queue) : vars.LeavesUntabled scheduler.memory.blockManager queue := by
  refine (runningLoop enableChunking).run_invariant
    (I := RunningVars.LeavesUntabled scheduler.memory.blockManager queue)
    (Q := RunningVars.LeavesUntabled scheduler.memory.blockManager queue) ?_ ?_ ?_ h
  . intro vars vars' hvars hstep
    exact hvars.next hdistinct (RunningVars.next_of_step hstep)
  . intro vars vars' hvars hstep
    rwa [(RunningVars.of_step_eq_inr hstep).1]
  . refine ⟨?_, .refl _ _, nofun⟩
    simpa [RunningVars.groups, RunningVars.start, SchedulerRunningOutputs.createEmpty] using
      FcfsPolicy.sortByPriority_perm now queue

theorem SwappedVars.Next.touchesOnly {vars vars' : SwappedVars} (h : Next enableChunking vars vars')
    : TouchesOnly vars.groups vars.scheduler.memory.blockManager
        vars'.scheduler.memory.blockManager := by
  cases h with
  | ignore group swappedQueue hqueue hcan => exact .refl _ _
  | schedule group swappedQueue numNewTokens vars'' hqueue hcan htokens hbudget hschedule =>
    have hmem : group ∈ vars.groups := by simp [groups, hqueue]
    rcases schedule_eq_ok hschedule with ⟨_, _, scheduler, scheduler', hswap, happend, rfl⟩
    have htouches := (touchesOnly_of_swapIn hswap).trans (touchesOnly_of_appendSlots happend)
    exact htouches.mono (List.cons_subset.mpr ⟨hmem, List.nil_subset _⟩)

theorem scheduleSwapped_touchesOnly {now : Nat} {vars : SwappedVars}
    (h : scheduler.scheduleSwapped queue budget enableChunking now = .ok vars)
    : TouchesOnly queue scheduler.memory.blockManager vars.scheduler.memory.blockManager := by
  have hinv := (swappedLoop enableChunking).run_invariant
    (I := fun vars => vars.groups.Perm queue
      ∧ TouchesOnly queue scheduler.memory.blockManager vars.scheduler.memory.blockManager)
    (Q := fun vars => vars.groups.Perm queue
      ∧ TouchesOnly queue scheduler.memory.blockManager vars.scheduler.memory.blockManager)
    (by
      intro vars vars' hvars hstep
      have hnext := SwappedVars.next_of_step hstep
      exact ⟨hnext.groups_perm.trans hvars.1,
        hvars.2.trans (hnext.touchesOnly.mono hvars.1.subset)⟩)
    (by
      intro vars vars' hvars hstep
      rwa [(SwappedVars.of_step_eq_inr hstep).1])
    ⟨by simpa [SwappedVars.groups, SwappedVars.start, SchedulerSwappedInOutputs.createEmpty] using
      FcfsPolicy.sortByPriority_perm now queue, .refl _ _⟩ h
  exact hinv.2

end Passes

namespace PrefillVars

variable {enableChunking : Bool} {now : Nat → Nat} {vars vars' : PrefillVars}
variable {manager : BlockSpaceManager} {queue : List SequenceGroup}

/--
What holds at each iteration of the loop over `queue`.
-/
structure LeavesUntabled (manager : BlockSpaceManager) (queue : List SequenceGroup)
    (vars : PrefillVars) : Prop where
  groups_perm : vars.groups.Perm queue
  touchesOnly : TouchesOnly queue manager vars.scheduler.memory.blockManager
  untabled : ∀ group ∈ vars.waitingQueue, vars.scheduler.memory.blockManager.Untabled group

theorem Next.exists_touchesOnly (h : Next enableChunking now vars vars')
    : ∃ group,
        vars.waitingQueue = group :: vars'.waitingQueue
          ∧ TouchesOnly [group] vars.scheduler.memory.blockManager
              vars'.scheduler.memory.blockManager := by
  have henter := congrArg Memory.blockManager (vars.memory_enter now)
  cases h with
  | ignoreTooLong group waitingQueue numNewTokens hqueue =>
    refine ⟨group, hqueue, ?_⟩
    change TouchesOnly [group] _ (vars.enter now).scheduler.memory.blockManager
    rw [henter]
    exact .refl _ _
  | ignoreNever group waitingQueue numNewTokens hqueue =>
    refine ⟨group, hqueue, ?_⟩
    change TouchesOnly [group] _ (vars.enter now).scheduler.memory.blockManager
    rw [henter]
    exact .refl _ _
  | schedule group waitingQueue numNewTokens vars'' hqueue _ _ _ _ _ hschedule =>
    rcases schedule_eq_ok hschedule with ⟨scheduler, hallocate, rfl⟩
    refine ⟨group, hqueue, ?_⟩
    rw [← henter]
    exact touchesOnly_of_allocateAndSetRunning hallocate

theorem LeavesUntabled.next (hleaves : vars.LeavesUntabled manager queue)
    (hdistinct : Distinct queue) (h : Next enableChunking now vars vars')
    : vars'.LeavesUntabled manager queue := by
  have hdistinct := hdistinct.of_subperm hleaves.groups_perm.subperm
  rcases h.exists_touchesOnly with ⟨group, hqueue, htouches⟩
  have hgroups : group ∈ vars.groups := by simp [groups, hqueue]
  refine ⟨h.groups_perm.trans hleaves.groups_perm, hleaves.touchesOnly.trans
    (htouches.mono (List.cons_subset.mpr
      ⟨hleaves.groups_perm.subset hgroups, List.nil_subset _⟩)), ?_⟩
  intro other hother
  refine htouches.untabled
    (hleaves.untabled other (by rw [hqueue]; exact List.mem_cons_of_mem _ hother)) ?_
  -- both are in the queue before the iteration
  have hpairwise := hdistinct.disjoint
  unfold groups at hpairwise
  rw [List.append_assoc, hqueue, List.cons_append, List.pairwise_cons] at hpairwise
  simpa using (hpairwise.1 other (List.mem_append_left _ hother)).symm

theorem leavesUntabled_of_reaches {scheduler : Scheduler} {budget : SchedulingBudget}
    (h : (prefillLoop enableChunking now).Reaches (PrefillVars.start scheduler queue budget) vars)
    (hdistinct : Distinct queue)
    (huntabled : ∀ group ∈ queue, scheduler.memory.blockManager.Untabled group)
    : vars.LeavesUntabled scheduler.memory.blockManager queue := by
  refine (prefillLoop enableChunking now).invariant_of_reaches
    (I := LeavesUntabled scheduler.memory.blockManager queue) ?_ h ⟨?_, .refl _ _, huntabled⟩
  . intro vars vars' hvars hstep
    exact hvars.next hdistinct (next_of_step hstep)
  . simp [groups, PrefillVars.start, SchedulerPrefillOutputs.createEmpty]

end PrefillVars

theorem schedulePrefills_untabled {scheduler : Scheduler} {queue : List SequenceGroup}
    {budget : SchedulingBudget} {enableChunking : Bool} {now : Nat → Nat} {vars : PrefillVars}
    (h : scheduler.schedulePrefills queue budget enableChunking now = .ok vars)
    (hdistinct : Distinct queue)
    (huntabled : ∀ group ∈ queue, scheduler.memory.blockManager.Untabled group)
    : vars.LeavesUntabled scheduler.memory.blockManager queue := by
  rcases Except.bind_eq_ok.mp h with ⟨last, hrun, hlast⟩
  have hleaves : last.LeavesUntabled scheduler.memory.blockManager queue := by
    rcases Loop.exists_last_of_run_eq_ok _ hrun with ⟨vars', hreach, hdone⟩
    have hleaves := PrefillVars.leavesUntabled_of_reaches hreach hdistinct huntabled
    have hmemory : last.scheduler.memory = vars'.scheduler.memory
        ∧ last.groups = vars'.groups ∧ last.waitingQueue = vars'.waitingQueue := by
      rcases PrefillVars.of_step_eq_inr hdone with rfl | rfl | rfl
      . exact ⟨rfl, rfl, rfl⟩
      . exact ⟨vars'.memory_enter now, rfl, rfl⟩
      . exact ⟨vars'.memory_enter now, rfl, rfl⟩
    rcases hleaves with ⟨hperm, htouches, huntabled⟩
    rw [← hmemory.1] at htouches huntabled
    rw [← hmemory.2.1] at hperm
    rw [← hmemory.2.2] at huntabled
    exact ⟨hperm, htouches, huntabled⟩
  split at hlast <;> cases hlast
  all_goals exact ⟨hleaves.groups_perm, hleaves.touchesOnly, hleaves.untabled⟩

section Policies

variable {scheduler scheduler' : Scheduler} {instants : Instants} {outputs : SchedulerOutputs}
variable {vars vars' : PolicyVars} {enableChunking : Bool}

/--
What holds between the passes of a policy.
-/
structure PolicyVars.LeavesUntabled (scheduler : Scheduler) (vars : PolicyVars) : Prop where
  groups_perm : vars.groups.Perm scheduler.groups
  touchesOnly : TouchesOnly scheduler.groups scheduler.memory.blockManager
    vars.scheduler.memory.blockManager
  untabled : ∀ group ∈ vars.runningScheduled.preempted ++ vars.remainingWaiting,
    vars.scheduler.memory.blockManager.Untabled group

theorem PolicyVars.leavesUntabled_start
    (h : ∀ group ∈ scheduler.waiting, scheduler.memory.blockManager.Untabled group)
    (budget : SchedulingBudget) : (PolicyVars.start scheduler budget).LeavesUntabled scheduler :=
  ⟨by rw [PolicyVars.groups_start], .refl _ _, h⟩

theorem PolicyVars.LeavesUntabled.distinct (h : vars.LeavesUntabled scheduler)
    (hdistinct : Distinct scheduler.groups) : Distinct vars.groups :=
  hdistinct.of_subperm h.groups_perm.subperm

theorem PolicyVars.LeavesUntabled.schedulePrefills (h : vars.LeavesUntabled scheduler)
    (hdistinct : Distinct scheduler.groups)
    (hprefills : vars.prefills = SchedulerPrefillOutputs.createEmpty)
    (hrun : vars.schedulePrefills enableChunking instants = .ok vars')
    : vars'.LeavesUntabled scheduler := by
  have hgroups := (PolicyVars.schedulePrefills_groups_perm hrun hprefills).trans h.groups_perm
  have hsuffix := PolicyVars.suffix_of_schedulePrefills hrun
  rcases Except.bind_eq_ok.mp hrun with ⟨prefills, hloop, hpure⟩
  cases hpure
  have hwaiting : vars.remainingWaiting.Subperm vars.groups := by
    unfold PolicyVars.groups
    simp only [List.append_assoc]
    exact (List.sublist_append_left _ _).subperm
  have hleaves := schedulePrefills_untabled hloop ((h.distinct hdistinct).of_subperm hwaiting)
    fun group hgroup => h.untabled group (List.mem_append_right _ hgroup)
  refine ⟨hgroups, h.touchesOnly.trans (hleaves.touchesOnly.mono
    (List.Subset.trans hwaiting.subset h.groups_perm.subset)), ?_⟩
  intro group hgroup
  rcases List.mem_append.mp hgroup with hgroup | hgroup
  . refine hleaves.touchesOnly.untabled (h.untabled group (List.mem_append_left _ hgroup)) ?_
    intro other hother
    refine ((h.distinct hdistinct).of_subperm ?_).disjoint_of_mem hgroup hother
    rw [List.subperm_iff_count]
    intro a
    simp only [PolicyVars.groups, List.count_append]
    omega
  . exact hleaves.untabled group hgroup

theorem PolicyVars.LeavesUntabled.scheduleRunningAndSwapped (h : vars.LeavesUntabled scheduler)
    (hdistinct : Distinct scheduler.groups)
    (hrunning : vars.runningScheduled = SchedulerRunningOutputs.createEmpty)
    (hswapped : vars.swappedIn = SchedulerSwappedInOutputs.createEmpty)
    (hrun : vars.scheduleRunningAndSwapped enableChunking instants = .ok vars')
    : vars'.LeavesUntabled scheduler := by
  have hgroups := (PolicyVars.scheduleRunningAndSwapped_groups_perm hrun hrunning hswapped).trans
    h.groups_perm
  have hqueues : (vars.remainingWaiting
      ++ (vars.remainingRunning ++ vars.remainingSwapped)).Subperm vars.groups := by
    rw [List.subperm_iff_count]
    intro a
    simp only [PolicyVars.groups, List.count_append]
    omega
  have hdistinct' := (h.distinct hdistinct).of_subperm hqueues
  have hsubset := List.Subset.trans hqueues.subset h.groups_perm.subset
  rcases Except.bind_eq_ok.mp hrun with ⟨running, hloop, hrest⟩
  have hleaves := scheduleRunning_untabled hloop (hdistinct'.of_subperm (by
    rw [← List.append_assoc]
    exact ((List.sublist_append_right _ _).trans (List.sublist_append_left _ _)).subperm))
  -- the two passes touch none of the waiting groups
  have hwaiting : ∀ manager, TouchesOnly (vars.remainingRunning ++ vars.remainingSwapped)
      vars.scheduler.memory.blockManager manager →
      ∀ group ∈ vars.remainingWaiting, manager.Untabled group := by
    intro manager htouches group hgroup
    refine htouches.untabled
      (h.untabled group (List.mem_append_right _ hgroup)) fun other hother => ?_
    exact hdistinct'.disjoint_of_mem hgroup hother
  have hfirst := hleaves.touchesOnly.mono (List.subset_append_left _ vars.remainingSwapped)
  split at hrest
  . next hnone =>
    rcases Except.bind_eq_ok.mp hrest with ⟨swapped, hswap, hpure⟩
    cases hpure
    have htouches := hfirst.trans ((scheduleSwapped_touchesOnly hswap).mono
      (List.subset_append_right vars.remainingRunning _))
    refine ⟨hgroups, h.touchesOnly.trans (htouches.mono fun group hgroup =>
      hsubset (List.mem_append_right _ hgroup)), ?_⟩
    intro group hgroup
    have hpreempted : running.outputs.preempted = [] := List.length_eq_zero_iff.mp (by omega)
    dsimp only at hgroup
    rw [hpreempted, List.nil_append] at hgroup
    exact hwaiting _ htouches group hgroup
  . cases hrest
    refine ⟨hgroups, h.touchesOnly.trans (hfirst.mono fun group hgroup =>
      hsubset (List.mem_append_right _ hgroup)), ?_⟩
    intro group hgroup
    rcases List.mem_append.mp hgroup with hgroup | hgroup
    . exact hleaves.untabled group hgroup
    . exact hwaiting _ hfirst group hgroup

theorem leavesUntabled_of_defaultPasses
    (hwaiting : ∀ group ∈ scheduler.waiting, scheduler.memory.blockManager.Untabled group)
    (hdistinct : Distinct scheduler.groups) (h : scheduler.defaultPasses instants = .ok vars)
    : vars.LeavesUntabled scheduler := by
  rcases defaultPasses_eq_ok h with ⟨before, hbefore, hrest⟩
  have hstart := PolicyVars.leavesUntabled_start hwaiting
    (scheduler.includeRunning scheduler.newBudget)
  have hleaves : before.LeavesUntabled scheduler
      ∧ before.runningScheduled = SchedulerRunningOutputs.createEmpty
      ∧ before.swappedIn = SchedulerSwappedInOutputs.createEmpty := by
    rcases hbefore with ⟨-, hprefills⟩ | ⟨-, rfl⟩
    . have hkeeps := PolicyVars.keeps_of_schedulePrefills hprefills
      exact ⟨hstart.schedulePrefills hdistinct rfl hprefills, hkeeps.1, hkeeps.2.1⟩
    . exact ⟨hstart, rfl, rfl⟩
  rcases hrest with ⟨-, hrest⟩ | ⟨-, rfl⟩
  . exact hleaves.1.scheduleRunningAndSwapped hdistinct hleaves.2.1 hleaves.2.2 hrest
  . exact hleaves.1

theorem leavesUntabled_of_chunkedPasses
    (hwaiting : ∀ group ∈ scheduler.waiting, scheduler.memory.blockManager.Untabled group)
    (hdistinct : Distinct scheduler.groups) (h : scheduler.chunkedPasses instants = .ok vars)
    : vars.LeavesUntabled scheduler := by
  rcases Except.bind_eq_ok.mp h with ⟨passed, hrunning, hprefills⟩
  have hstart := PolicyVars.leavesUntabled_start hwaiting scheduler.newBudget
  have hpassed := hstart.scheduleRunningAndSwapped hdistinct rfl rfl hrunning
  exact hpassed.schedulePrefills hdistinct
    (PolicyVars.keeps_of_scheduleRunningAndSwapped hrunning).1 hprefills

/--
When the groups that wait have no table before a call of `schedule`, they have none after it, and
the tables of sequences that are in no queue are the same.
-/
theorem untabled_of_schedule {metadata : List SequenceGroupMetadata}
    (hwaiting : ∀ group ∈ scheduler.waiting, scheduler.memory.blockManager.Untabled group)
    (hdistinct : Distinct scheduler.groups)
    (h : scheduler.schedule instants = .ok (metadata, outputs, scheduler'))
    : TouchesOnly scheduler.groups scheduler.memory.blockManager scheduler'.memory.blockManager
        ∧ ∀ group ∈ scheduler'.waiting, scheduler'.memory.blockManager.Untabled group := by
  rcases schedule_eq_ok h with ⟨passed, hpolicy, hsame, -⟩
  have hpassed : TouchesOnly scheduler.groups scheduler.memory.blockManager
        passed.memory.blockManager
      ∧ ∀ group ∈ passed.waiting, passed.memory.blockManager.Untabled group := by
    unfold schedulePolicy at hpolicy
    split at hpolicy
    . rcases scheduleChunkedPrefill_eq_ok hpolicy with ⟨vars, running, hpasses, -, -, rfl, -⟩
      have hleaves := leavesUntabled_of_chunkedPasses hwaiting hdistinct hpasses
      exact ⟨hleaves.touchesOnly, hleaves.untabled⟩
    . rcases scheduleDefault_eq_ok hpolicy with ⟨vars, running, hpasses, -, -, -, -, rfl, -⟩
      have hleaves := leavesUntabled_of_defaultPasses hwaiting hdistinct hpasses
      exact ⟨hleaves.touchesOnly, hleaves.untabled⟩
  have hqueue : scheduler'.waiting = passed.waiting := by
    rcases hsame with ⟨manager, rfl, -⟩
    rfl
  rw [hqueue]
  refine ⟨fun sequenceId hnotMem => ?_, fun group hgroup sequenceId hmem => ?_⟩
  . rw [hsame.lookup, hpassed.1 sequenceId hnotMem]
  . rw [hsame.lookup, hpassed.2 group hgroup sequenceId hmem]

/--
The groups that the call has yet to consider as prompts have no table either.
-/
theorem untabled_of_reachesPrefill {prefills : PrefillVars}
    (hwaiting : ∀ group ∈ scheduler.waiting, scheduler.memory.blockManager.Untabled group)
    (hdistinct : Distinct scheduler.groups) (h : scheduler.ReachesPrefill instants prefills)
    : TouchesOnly scheduler.groups scheduler.memory.blockManager
          prefills.scheduler.memory.blockManager
        ∧ prefills.waitingQueue ⊆ scheduler.waiting
        ∧ ∀ group ∈ prefills.waitingQueue,
            prefills.scheduler.memory.blockManager.Untabled group := by
  have hqueue : Distinct scheduler.waiting :=
    hdistinct.of_subperm
      ((List.sublist_append_left _ _).trans (List.sublist_append_left _ _)).subperm
  have hsubset : scheduler.waiting ⊆ scheduler.groups :=
    List.Subset.trans (List.subset_append_left _ _) (List.subset_append_left _ _)
  have hloop : ∀ (start : Scheduler) (budget : SchedulingBudget),
      TouchesOnly scheduler.groups scheduler.memory.blockManager start.memory.blockManager →
      (∀ group ∈ scheduler.waiting, start.memory.blockManager.Untabled group) →
      (prefillLoop scheduler.schedulerConfig.enableChunkedPrefill instants.prefills).Reaches
        (PrefillVars.start start scheduler.waiting budget) prefills →
      TouchesOnly scheduler.groups scheduler.memory.blockManager
          prefills.scheduler.memory.blockManager
        ∧ prefills.waitingQueue ⊆ scheduler.waiting
        ∧ ∀ group ∈ prefills.waitingQueue,
            prefills.scheduler.memory.blockManager.Untabled group := by
    intro start budget htouches huntabled hreach
    have hleaves := PrefillVars.leavesUntabled_of_reaches hreach hqueue huntabled
    refine ⟨htouches.trans (hleaves.touchesOnly.mono hsubset), ?_, hleaves.untabled⟩
    refine List.Subset.trans ?_ hleaves.groups_perm.subset
    unfold PrefillVars.groups
    rw [List.append_assoc]
    exact List.subset_append_left _ _
  unfold ReachesPrefill at h
  split at h
  . next hchunked =>
    rcases h with ⟨passed, hrunning, hreach⟩
    have hpassed := (PolicyVars.leavesUntabled_start hwaiting
      scheduler.newBudget).scheduleRunningAndSwapped hdistinct rfl rfl hrunning
    have hsame : passed.remainingWaiting = scheduler.waiting :=
      (PolicyVars.keeps_of_scheduleRunningAndSwapped hrunning).2
    rw [hsame, ← hchunked] at hreach
    refine hloop _ _ hpassed.touchesOnly (fun group hgroup => ?_) hreach
    exact hpassed.untabled group (List.mem_append_right _ (hsame.symm ▸ hgroup))
  . next hdefault =>
    rw [Bool.not_eq_true] at hdefault
    have hreach := h.2
    rw [← hdefault] at hreach
    exact hloop _ _ (.refl _ _) hwaiting hreach

end Policies

end Scheduler

end AtomaInfer
