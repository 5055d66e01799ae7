import AtomaInfer.BlockManager.SwapRun
import AtomaInfer.Scheduler.Turns

/-!
The mappings of the swaps that a call of `schedule` returns. Those of several groups are merged into
one map, but a call swaps in one direction only.
-/

namespace AtomaInfer

namespace Scheduler

open BlockSpaceManager

variable {groups pending pending' : List SequenceGroup} {group : SequenceGroup}
variable {memory memory' : Memory} {device : BlockDevice} {blocks numbers : BlockMapping}

/--
What has been merged while the groups of `pending` are still to come: the destinations are in tables
of other groups, and no two sources have the same.
-/
structure Merges (device : BlockDevice) (groups pending : List SequenceGroup) (memory : Memory)
    (blocks : BlockMapping) : Prop where
  grouped : memory.Grouped groups
  subperm : pending.Subperm groups
  settled : ∀ source target, blocks.lookup source = some target →
    memory.Settled pending ⟨device, target⟩
  injective : ∀ source source' target, blocks.lookup source = some target →
    blocks.lookup source' = some target → source = source'

namespace Merges

theorem start (hgrouped : memory.Grouped groups) (hsubperm : pending.Subperm groups)
    : Merges device groups pending memory ∅ := by
  refine ⟨hgrouped, hsubperm, ?_, ?_⟩
  . intro source target hlookup
    cases hlookup
  . intro source source' target hlookup
    cases hlookup

theorem mono (h : Merges device groups pending memory blocks) (hsubperm : pending'.Subperm pending)
    : Merges device groups pending' memory blocks := by
  refine ⟨h.grouped, hsubperm.trans h.subperm, ?_, h.injective⟩
  intro source target hlookup
  exact (h.settled source target hlookup).mono fun _ hgroup => hsubperm.subset hgroup

/--
An operation on one of the groups to come, that swaps nothing.
-/
theorem alters (h : Merges device groups pending memory blocks) (hgroup : group ∈ pending)
    (halters : Memory.Alters group memory memory') (hgrouped : memory'.Grouped groups)
    : Merges device groups pending memory' blocks := by
  refine ⟨hgrouped, h.subperm, ?_, h.injective⟩
  intro source target hlookup
  exact (h.settled source target hlookup).alters hgroup halters h.grouped
    fun _ hgroup => h.subperm.subset hgroup

/--
An operation on a group that has been dealt with, after which every block that was in a table is
still in one.
-/
theorem extends_owned (h : Merges device groups pending memory blocks)
    (hsubperm : (group :: pending).Subperm groups)
    (halters : Memory.Alters group memory memory') (hgrouped : memory'.Grouped groups)
    (howned : ∀ block ∈ memory.blockManager.owned, block ∈ memory'.blockManager.owned)
    : Merges device groups pending memory' blocks := by
  refine ⟨hgrouped, h.subperm, ?_, h.injective⟩
  intro source target hlookup
  have ⟨hown, hnot⟩ := h.settled source target hlookup
  refine ⟨howned _ hown, ?_⟩
  intro other hother hholds
  rw [halters.holds_iff_of_subperm h.grouped hsubperm hother] at hholds
  exact hnot other hother hholds

/--
The first group to come is swapped. Its blocks go to blocks that were free, so their numbers are not
among the destinations.
-/
theorem swapped (h : Merges device groups (group :: pending) memory blocks) {source : BlockDevice}
    {sequenceIds : List Nat} {mapping : SwapMapping}
    (hswapped : Memory.Swapped source device sequenceIds memory.blockManager memory'.blockManager
      numbers mapping)
    (halters : Memory.Alters group memory memory') (hgrouped : memory'.Grouped groups)
    : Merges device groups pending memory' (numbers ∪ blocks) := by
  have hcases : ∀ number target, (numbers ∪ blocks).lookup number = some target →
      numbers.lookup number = some target ∨ blocks.lookup number = some target := by
    intro number target hlookup
    rcases AList.mem_lookup_union.mp hlookup with hnew | ⟨-, hold⟩
    . exact .inl hnew
    . exact .inr hold
  have hnew : ∀ number target, numbers.lookup number = some target →
      (⟨device, target⟩ : SyncPhysicalTokenBlock) ∉ memory.blockManager.owned
        ∧ ⟨device, target⟩ ∈ memory'.blockManager.owned := by
    intro number target hlookup
    rw [hswapped.lookup_numbers] at hlookup
    rcases Option.map_eq_some_iff.mp hlookup with ⟨block, hsend, rfl⟩
    have hblock : (⟨device, block.blockNumber⟩ : SyncPhysicalTokenBlock) = block := by
      rw [← hswapped.valid.device_eq _ _ hsend]
    rw [hblock]
    exact ⟨hswapped.valid.notMem_before _ _ hsend, hswapped.valid.mem_own _ _ hsend⟩
  refine ⟨hgrouped, (List.sublist_cons_self _ _).subperm.trans h.subperm, ?_, ?_⟩
  . intro number target hlookup
    rcases hcases number target hlookup with hlookup | hlookup
    . refine ⟨(hnew number target hlookup).2, ?_⟩
      intro other hother hholds
      rw [halters.holds_iff_of_subperm h.grouped h.subperm hother] at hholds
      exact (hnew number target hlookup).1 hholds.mem_owned
    . exact ((h.alters List.mem_cons_self halters hgrouped).settled number target hlookup).mono
        fun _ => List.mem_cons_of_mem _
  . intro number number' target hlookup hlookup'
    rcases hcases number target hlookup with hlookup | hlookup
    . rcases hcases number' target hlookup' with hlookup' | hlookup'
      . exact hswapped.injective_numbers hlookup hlookup'
      . exact absurd (h.settled _ _ hlookup').1 (hnew _ _ hlookup).1
    . rcases hcases number' target hlookup' with hlookup' | hlookup'
      . exact absurd (h.settled _ _ hlookup).1 (hnew _ _ hlookup').1
      . exact h.injective number number' target hlookup hlookup'

end Merges

section Running

variable {enableChunking : Bool} {vars vars' : RunningVars}

theorem swaps_addScheduled (outputs : SchedulerRunningOutputs) (isPrefill : Bool) (tokens : Nat)
    : (outputs.addScheduled isPrefill group tokens).swappedOut = outputs.swappedOut
        ∧ (outputs.addScheduled isPrefill group tokens).blocksToSwapOut = outputs.blocksToSwapOut := by
  unfold SchedulerRunningOutputs.addScheduled
  split
  . exact ⟨rfl, rfl⟩
  . exact ⟨rfl, rfl⟩

theorem RunningVars.merges_preempt {vars vars' : RunningVars} (h : vars.preempt group = .ok vars')
    (hmerges : Merges .cpu groups (group :: pending) vars.scheduler.memory
      vars.outputs.blocksToSwapOut)
    : Merges .cpu groups pending vars'.scheduler.memory vars'.outputs.blocksToSwapOut := by
  have hgroup : group ∈ groups := hmerges.subperm.subset List.mem_cons_self
  have hcounted : vars.scheduler.countPreemption.memory.Grouped groups := hmerges.grouped
  rcases preempt_eq_ok h with ⟨-, scheduler, hrecompute, rfl⟩ | ⟨-, blocks, scheduler, hswap, rfl⟩
  . rcases grouped_of_preemptByRecompute hcounted hgroup hrecompute with ⟨hgrouped, halters⟩
    exact (hmerges.alters List.mem_cons_self halters hgrouped).mono
      (List.sublist_cons_self _ _).subperm
  . rcases grouped_of_swapOut hcounted hgroup hswap
      with ⟨hgrouped, halters, numbers, mapping, hswapped, rfl, -⟩
    exact hmerges.swapped hswapped halters hgrouped

theorem RunningVars.Next.merges (h : Next enableChunking vars vars')
    (hmerges : Merges .cpu groups vars.pending vars.scheduler.memory vars.outputs.blocksToSwapOut)
    : Merges .cpu groups vars'.pending vars'.scheduler.memory vars'.outputs.blocksToSwapOut := by
  have hsubperm := h.pending_sublist.subperm
  cases h with
  | take => exact hmerges.mono hsubperm
  | preemptVictim group victim runningQueue _ _ _ vars' hcurrent _ _ _ hqueue hpreempt =>
    have hperm : (victim :: ((vars.current.map (·.1)).toList ++ runningQueue)).Perm vars.pending := by
      unfold pending
      rw [hqueue, ← List.append_assoc]
      exact (List.perm_append_singleton _ _).symm
    have hafter := merges_preempt hpreempt (hmerges.mono hperm.subperm)
    exact hafter
  | preemptSelf group _ _ _ vars' hcurrent _ _ _ hqueue hpreempt =>
    have hpending : vars.pending = [group] := by simp [pending, hcurrent, hqueue]
    rw [hpending] at hmerges
    have hafter := merges_preempt hpreempt hmerges
    exact hafter
  | schedule group numRunningTokens vars' hcurrent _ hschedule =>
    have hgroup := mem_pending_of_current hcurrent
    rcases schedule_eq_ok hschedule with ⟨blocksToCopy, scheduler, happend, rfl⟩
    rcases grouped_of_appendSlots hmerges.grouped (hmerges.subperm.subset hgroup) happend
      with ⟨hgrouped, halters⟩
    have hafter := (hmerges.alters hgroup halters hgrouped).mono hsubperm
    change Merges .cpu groups _ scheduler.memory (vars.outputs.addScheduled _ _ _).blocksToSwapOut
    rw [(swaps_addScheduled ..).2]
    exact hafter

theorem RunningVars.merges_of_reaches (h : (runningLoop enableChunking).Reaches vars vars')
    (hmerges : Merges .cpu groups vars.pending vars.scheduler.memory vars.outputs.blocksToSwapOut)
    : Merges .cpu groups vars'.pending vars'.scheduler.memory vars'.outputs.blocksToSwapOut := by
  refine (runningLoop enableChunking).invariant_of_reaches
    (I := fun current => Merges .cpu groups current.pending current.scheduler.memory
      current.outputs.blocksToSwapOut) ?_ h hmerges
  intro current next hcurrent hstep
  exact (next_of_step hstep).merges hcurrent

theorem RunningVars.Next.swappedOut (h : Next enableChunking vars vars')
    (hempty : vars.outputs.swappedOut = [] → vars.outputs.blocksToSwapOut = ∅)
    : vars'.outputs.swappedOut = [] → vars'.outputs.blocksToSwapOut = ∅ := by
  have hpreempt : ∀ {vars vars' : RunningVars} {group : SequenceGroup},
      vars.preempt group = .ok vars' →
      (vars.outputs.swappedOut = [] → vars.outputs.blocksToSwapOut = ∅) →
        vars'.outputs.swappedOut = [] → vars'.outputs.blocksToSwapOut = ∅ := by
    intro vars vars' group hpreempt hempty
    rcases preempt_eq_ok hpreempt with ⟨-, scheduler, -, rfl⟩ | ⟨-, blocks, scheduler, -, rfl⟩
    . exact hempty
    . simp
  cases h with
  | take => exact hempty
  | preemptVictim _ _ _ _ _ _ _ _ _ _ _ _ hvictim =>
    have hafter := hpreempt hvictim hempty
    exact hafter
  | preemptSelf _ _ _ _ _ _ _ _ _ _ hself =>
    have hafter := hpreempt hself hempty
    exact hafter
  | schedule _ _ _ _ _ hschedule =>
    rcases schedule_eq_ok hschedule with ⟨blocksToCopy, scheduler, -, rfl⟩
    change (vars.outputs.addScheduled _ _ _).swappedOut = []
      → (vars.outputs.addScheduled _ _ _).blocksToSwapOut = ∅
    rw [(swaps_addScheduled ..).1, (swaps_addScheduled ..).2]
    exact hempty

/--
Without a group that is swapped out there is nothing to copy.
-/
theorem RunningVars.blocksToSwapOut_eq_empty (h : (runningLoop enableChunking).Reaches vars vars')
    (hempty : vars.outputs.blocksToSwapOut = ∅) (hswappedOut : vars'.outputs.swappedOut = [])
    : vars'.outputs.blocksToSwapOut = ∅ := by
  refine (runningLoop enableChunking).invariant_of_reaches
    (I := fun current => current.outputs.swappedOut = [] → current.outputs.blocksToSwapOut = ∅)
    ?_ h (fun _ => hempty) hswappedOut
  intro current next hcurrent hstep
  exact (next_of_step hstep).swappedOut hcurrent

end Running

section Swapped

variable {enableChunking : Bool} {vars vars' : SwappedVars}

theorem SwappedVars.Next.merges (h : Next enableChunking vars vars')
    (hmerges : Merges .gpu groups vars.swappedQueue vars.scheduler.memory vars.outputs.blocksToSwapIn)
    : Merges .gpu groups vars'.swappedQueue vars'.scheduler.memory vars'.outputs.blocksToSwapIn := by
  have hsubperm := h.queue_sublist.subperm
  cases h with
  | ignore group swappedQueue hqueue =>
    have hgroup : group ∈ vars.swappedQueue := by simp [hqueue]
    refine Merges.mono ?_ hsubperm
    exact hmerges.alters hgroup (Memory.Alters.setStatusWhere group vars.scheduler.memory _ _)
      (hmerges.grouped.ignore (hmerges.subperm.subset hgroup) _)
  | schedule group swappedQueue numNewTokens _ hqueue hcan _ _ hschedule =>
    rw [hqueue] at hmerges
    have hgroup : group ∈ groups := hmerges.subperm.subset List.mem_cons_self
    rcases schedule_eq_ok hschedule with ⟨_, _, scheduler, scheduler', hswap, happend, rfl⟩
    rcases grouped_of_swapIn hmerges.grouped hgroup hcan hswap
      with ⟨hgrouped, halters, numbers, mapping, hswapped, rfl⟩
    have hmerged := hmerges.swapped hswapped halters hgrouped
    rcases grouped_of_appendSlots hgrouped hgroup happend with ⟨hgrouped', halters'⟩
    rcases appendSlots_eq_foldl happend with ⟨pairs, manager, hrun, -, rfl⟩
    exact hmerged.extends_owned hmerges.subperm halters' hgrouped'
      fun block hown => owned_subset_of_appendSlotsOf (hgrouped.appendable hgroup) hrun hown

theorem SwappedVars.merges_of_reaches (h : (swappedLoop enableChunking).Reaches vars vars')
    (hmerges : Merges .gpu groups vars.swappedQueue vars.scheduler.memory vars.outputs.blocksToSwapIn)
    : Merges .gpu groups vars'.swappedQueue vars'.scheduler.memory vars'.outputs.blocksToSwapIn := by
  refine (swappedLoop enableChunking).invariant_of_reaches
    (I := fun current => Merges .gpu groups current.swappedQueue current.scheduler.memory
      current.outputs.blocksToSwapIn) ?_ h hmerges
  intro current next hcurrent hstep
  exact (next_of_step hstep).merges hcurrent

end Swapped

section Schedule

variable {scheduler scheduler' : Scheduler} {instants : Instants} {outputs : SchedulerOutputs}

/--
In one call blocks are swapped in one direction, and no two blocks go to the same one.
-/
theorem merges_of_schedulePolicy
    (hschedule : scheduler.schedulePolicy instants = .ok (outputs, scheduler'))
    (hgrouped : scheduler.memory.Grouped groups) (hsubperm : scheduler.groups.Subperm groups)
    : (outputs.blocksToSwapIn = ∅ ∨ outputs.blocksToSwapOut = ∅)
        ∧ (∃ pending memory, Merges .gpu groups pending memory outputs.blocksToSwapIn)
        ∧ ∃ pending memory, Merges .cpu groups pending memory outputs.blocksToSwapOut := by
  rcases passed_of_schedulePolicy hschedule with ⟨before, _, _, hbefore, hpassed, hin, hout, -⟩
  have hstart := (grouped_of_beforeRunning hbefore hgrouped hsubperm).1
  have hpending := pending_subperm_of_beforeRunning hbefore hgrouped hsubperm
  have hrunningStart : Merges .cpu groups (before.runningStart instants).pending
      before.scheduler.memory ∅ :=
    .start hstart ((List.sublist_append_left _ _).subperm.trans hpending)
  rw [hin, hout]
  cases hpassed with
  | prefills => exact ⟨.inl rfl, ⟨_, _, .start hstart hpending⟩, _, _, .start hstart hpending⟩
  | preempts running _ hrunning =>
    have hmerges := RunningVars.merges_of_reaches (RunningVars.reaches_of_run hrunning) hrunningStart
    exact ⟨.inl rfl, ⟨_, _, .start hstart hpending⟩, _, _, hmerges⟩
  | swaps running swapped _ hrunning _ hswappedOut hswapped =>
    have hreaches := RunningVars.reaches_of_run hrunning
    have hmerges := RunningVars.merges_of_reaches hreaches hrunningStart
    have hswappedStart : Merges .gpu groups (before.swappedStart instants running).swappedQueue
        running.scheduler.memory ∅ :=
      .start hmerges.grouped ((List.sublist_append_right _ _).subperm.trans hpending)
    have hmerges' := SwappedVars.merges_of_reaches (SwappedVars.reaches_of_run hswapped) hswappedStart
    exact ⟨.inr (RunningVars.blocksToSwapOut_eq_empty hreaches rfl hswappedOut), ⟨_, _, hmerges'⟩,
      _, _, hmerges⟩

end Schedule

/--
Swapping a group out and in again under the guards preserves the contents of its blocks and how they
are shared, whatever happens to the other groups before, in the same passes and in between. In a call
of `schedule` there are no swaps in both directions, and merging the mappings of several groups never
makes two sources share a destination.
-/
theorem swaps_preserve_contents
    : (∀ (blockSize numCpuBlocks numGpuBlocks : Nat) (state out waited state' : RunState)
          (group : SequenceGroup) (copies₁ order₁ copies₂ order₂ : Copies)
          (numbers₁ numbers₂ : AList fun _ : Nat => Nat) (γ : Type)
          (contents contents₁ : SyncPhysicalTokenBlock → γ),
        BlockSpaceManager.Reachable blockSize numCpuBlocks numGpuBlocks state → group ∈ state.groups →
        SwapPass .swapOut group state copies₁ out numbers₁ → Executes order₁ copies₁ →
        Relation.ReflTransGen (Waits group) (out, Copying.execute order₁ contents)
          (waited, contents₁) →
        SwapPass .swapIn group waited copies₂ state' numbers₂ → Executes order₂ copies₂ →
          (∀ sequenceId blockTable, state.RunningTable group sequenceId blockTable →
            ∃ blockTable',
              state'.manager.blockTables.lookup sequenceId = some blockTable'
                ∧ blockTable'.length = blockTable.length
                ∧ blockTable'.map (Copying.execute order₂ contents₁) = blockTable.map contents)
            ∧ (∀ id₁ table₁ table₁' id₂ table₂ table₂',
                state.RunningTable group id₁ table₁ → state.RunningTable group id₂ table₂ →
                state'.manager.blockTables.lookup id₁ = some table₁' →
                state'.manager.blockTables.lookup id₂ = some table₂' →
                ∀ i j, i < table₁.length → j < table₂.length →
                  (table₁'[i]? = table₂'[j]? ↔ table₁[i]? = table₂[j]?))
            ∧ (∀ number number' target, numbers₁.lookup number = some target →
                numbers₁.lookup number' = some target → number = number')
            ∧ ∀ number number' target, numbers₂.lookup number = some target →
                numbers₂.lookup number' = some target → number = number')
        ∧ ∀ (scheduler scheduler' : Scheduler) (instants : Instants)
            (metadata : List SequenceGroupMetadata) (outputs : SchedulerOutputs),
          scheduler.Reached → scheduler.schedule instants = .ok (metadata, outputs, scheduler') →
            (outputs.blocksToSwapIn = ∅ ∨ outputs.blocksToSwapOut = ∅)
              ∧ (∀ source source' target, outputs.blocksToSwapIn.lookup source = some target →
                  outputs.blocksToSwapIn.lookup source' = some target → source = source')
              ∧ ∀ source source' target, outputs.blocksToSwapOut.lookup source = some target →
                  outputs.blocksToSwapOut.lookup source' = some target → source = source' := by
  constructor
  . intro blockSize numCpuBlocks numGpuBlocks state out waited state' group copies₁ order₁ copies₂
      order₂ numbers₁ numbers₂ γ contents contents₁ hreach hgroup hout hexecutes₁ hwaits hin hexecutes₂
    exact contents_of_swap_passes (runInvariant_of_reachable hreach) hgroup hout hexecutes₁ hwaits hin
      hexecutes₂
  . intro scheduler scheduler' instants metadata outputs hreached hschedule
    rcases grouped_of_reached hreached with ⟨groups, hsubperm, hgrouped⟩
    rcases schedule_eq_ok hschedule with ⟨passed, hpolicy, -, -⟩
    rcases merges_of_schedulePolicy hpolicy hgrouped hsubperm
      with ⟨hempty, ⟨_, _, hin⟩, _, _, hout⟩
    exact ⟨hempty, hin.injective, hout.injective⟩

def beams : SequenceGroup :=
  beamGroup [⟨2, 2⟩, ⟨1, 1⟩, ⟨0, 0⟩]

def newcomer : SequenceGroup :=
  oneTokenGroup [⟨5, 5⟩]

/--
Three sequences share a block, and another group has just arrived.
-/
def joined : RunState :=
  { forkedTwice with groups := newcomer :: forkedTwice.groups }

/--
The other group gets a block.
-/
def handOver (state : RunState) : RunState :=
  {
    state with
    memory := {
      sequences := newcomer.setStatusWhere state.heap
        (fun seq => (state.heap seq).sequenceStatus = .waiting) .running
      blockManager := (BlockSpaceManager.allocate newcomer state.heap).finalState state.manager
    }
  }

def swappedOut : RunState :=
  { joined with memory := (Memory.swapOut beams).finalState joined.memory }

def freed : RunState :=
  {
    handOver swappedOut with
    memory := {
      (handOver swappedOut).memory with
      blockManager := (BlockSpaceManager.free 5).finalState (handOver swappedOut).manager
    }
  }

def swappedIn : RunState :=
  { freed with memory := (Memory.swapIn beams).finalState freed.memory }

/--
The three sequences are running.
-/
def onlyBeams : Scheduler :=
  { withRunning (handOver joined) with running := [beams] }

theorem reachable_joined : BlockSpaceManager.Reachable 4 4 4 joined := by
  rcases reachable_forkedTwice with ⟨heap, hrun⟩
  exact ⟨heap, hrun.tail (.arrive forkedTwice newcomer forkedTwice.heap (by decide) (by decide +kernel)
    fun _ _ => rfl)⟩

/--
The block that the three sequences leave is handed over to the other group in the same pass, and
written before they are swapped in again. In a call of `schedule` they are swapped out, because the
other group has left too few blocks.
-/
theorem swaps_preserve_contents_beams
    : (∃ contents contents₁ : SyncPhysicalTokenBlock → Nat, ∃ order,
        contents₁ ⟨.gpu, 3⟩ = 9
          ∧ (handOver swappedOut).manager.blockTables.lookup 5 = some [⟨.gpu, 3⟩]
          ∧ ∃ blockTable,
              swappedIn.manager.blockTables.lookup 0 = some blockTable
                ∧ blockTable.map (Copying.execute order contents₁) = [contents ⟨.gpu, 3⟩])
        ∧ ∃ instants metadata outputs scheduler',
            onlyBeams.schedule instants = .ok (metadata, outputs, scheduler')
              ∧ outputs.blocksToSwapOut.lookup 3 = some 3
              ∧ outputs.blocksToSwapIn = ∅ := by
  have hmem : beams ∈ joined.groups := by simp [joined, forkedTwice, forkInto, beams]
  have hne : beams ≠ newcomer := by simp [beams, newcomer, beamGroup, oneTokenGroup]
  have hother : newcomer ∈ joined.groups := List.mem_cons_self
  constructor
  . have hnone : ∀ sequenceId ∈ newcomer.getSequencesIds swappedOut.heap .waiting,
        swappedOut.manager.blockTables.lookup sequenceId = none := by
      decide +kernel
    have hcan : swappedOut.manager.canAllocate newcomer swappedOut.heap = .ok := by
      decide +kernel
    have hpass : Pass beams swappedOut [] (handOver swappedOut) :=
      .step .start (@Step.Avoids.allocate beams swappedOut newcomer hother hnone hcan hne)
    have hguard : SwapDirection.swapOut.Guard beams joined.memory := by
      change joined.manager.canSwapOut beams joined.heap = true
      decide +kernel
    have hinvariant := runInvariant_of_reachable reachable_joined
    rcases SwapPass.of_guard hinvariant hmem hguard hpass with ⟨numbers₁, hout⟩
    let order₁ := SwapDirection.swapOut.copies numbers₁ ++ []
    let contents : SyncPhysicalTokenBlock → Nat := (·.blockNumber)
    let contents₁ := Function.update (Copying.execute order₁ contents) ⟨.gpu, 3⟩ 9
    have hheld : ∀ block, (handOver swappedOut).manager.Holds beams block → block.device = .cpu := by
      have htables : ∀ sequenceId ∈ beams.sequenceIds,
          ((handOver swappedOut).manager.blockTables.lookup sequenceId).all
            (fun blockTable => blockTable.all (·.device = .cpu)) = true := by
        decide +kernel
      rintro block ⟨sequenceId, hid, blockTable, hlookup, hblock⟩
      have hall := htables sequenceId hid
      rw [hlookup] at hall
      exact of_decide_eq_true (List.all_eq_true.mp hall block hblock)
    have hwrite : Waits beams (handOver swappedOut, Copying.execute order₁ contents)
        (handOver swappedOut, contents₁) := by
      apply Waits.write
      intro block hholds
      apply Function.update_of_ne
      rintro rfl
      cases hheld _ hholds
    have hfree : Waits beams (handOver swappedOut, contents₁) (freed, contents₁) :=
      .step (@Step.Avoids.free beams (handOver swappedOut) 5 (by decide))
    have hwaits := (Relation.ReflTransGen.single hwrite).tail hfree
    have hinvariant₁ := (hout.moves contents ⟨.refl _, .inl rfl⟩ hinvariant hmem).1
    have hinvariant₂ := (Waits.spares_of_reflTransGen hwaits hinvariant₁ hmem).1
    have hguard' : SwapDirection.swapIn.Guard beams freed.memory := by
      change freed.manager.canSwapIn beams freed.heap = .ok
      decide +kernel
    rcases SwapPass.of_guard hinvariant₂ hmem hguard' .start with ⟨numbers₂, hin⟩
    have hround := (swaps_preserve_contents.1 4 4 4 joined (handOver swappedOut) freed swappedIn beams
      _ _ _ _ numbers₁ numbers₂ Nat contents contents₁ reachable_joined hmem hout
      ⟨.refl _, .inl rfl⟩ hwaits hin ⟨.refl _, .inl rfl⟩).1
    rcases hround 0 [⟨.gpu, 3⟩] ⟨⟨0, 0⟩, by decide, rfl, by decide +kernel, by decide +kernel⟩
      with ⟨blockTable, hlookup, -, hcontents⟩
    exact ⟨contents, contents₁, _, Function.update_self .., by decide +kernel, blockTable, hlookup,
      hcontents⟩
  . let instants : Instants := ⟨2, 2, fun _ => 2, 2⟩
    have hrun : (onlyBeams.schedule instants).toOption.any
        (fun result => result.2.1.blocksToSwapOut.lookup 3 = some 3) = true := by
      decide +kernel
    rcases Except.exists_eq_ok_of_any hrun with ⟨⟨metadata, outputs, scheduler'⟩, hok, hlookup⟩
    rw [decide_eq_true_eq] at hlookup
    have hreached : onlyBeams.Reached := by
      rcases reachable_joined with ⟨heap, hrun⟩
      have hreach : BlockSpaceManager.Reachable 4 4 4 (handOver joined) :=
        ⟨heap, hrun.tail (.allocate joined newcomer hother (by decide +kernel) (by decide +kernel))⟩
      exact reached_of_reachable hreach rfl (List.sublist_cons_self newcomer [beams]).subperm
    refine ⟨instants, metadata, outputs, scheduler', hok, hlookup, ?_⟩
    rcases (swaps_preserve_contents.2 _ _ _ _ _ hreached hok).1 with hempty | hempty
    . exact hempty
    . rw [hempty] at hlookup
      cases hlookup

end Scheduler

end AtomaInfer
