import AtomaInfer.Scheduler.Fcfs
import AtomaInfer.Scheduler.Turns

/-!
`schedule_running` takes the groups of the sorted queue from its front and preempts groups from its
back. What it schedules, what is left and what it preempts are the queue in this order.
-/

/--
`zs` is `xs` and `ys` put together, each of them in its order.
-/
inductive List.Interleaves {α : Type} : List α → List α → List α → Prop where
  | nil : Interleaves [] [] []
  | left {xs ys zs : List α} (a : α) (h : Interleaves xs ys zs) : Interleaves (xs ++ [a]) ys (zs ++ [a])
  | right {xs ys zs : List α} (a : α) (h : Interleaves xs ys zs)
    : Interleaves xs (ys ++ [a]) (zs ++ [a])

theorem List.perm_concat_append {α : Type} (as bs : List α) (a : α)
    : (as ++ [a] ++ bs).Perm (a :: (as ++ bs)) := by
  rw [List.append_assoc]
  exact List.perm_middle

namespace AtomaInfer

namespace BlockSpaceManager

open EStateM

variable {manager manager' : BlockSpaceManager} {sequenceId : Nat} {sequence : Sequence}
variable {block : SyncPhysicalTokenBlock}

/--
No other table holds the block.
-/
def Exclusive (manager : BlockSpaceManager) (sequenceId : Nat) (block : SyncPhysicalTokenBlock) : Prop :=
  ∀ id blockTable, manager.blockTables.lookup id = some blockTable → block ∈ blockTable →
    id = sequenceId

/--
There is a block for the last token of the sequence, and no other sequence sees what is written there.
-/
def HasSlot (manager : BlockSpaceManager) (sequenceId : Nat) (sequence : Sequence) : Prop :=
  1 ≤ sequence.getNumTotalLogicalTokenBlocks
    ∧ ∀ blockTable, manager.blockTables.lookup sequenceId = some blockTable →
        sequence.getNumTotalLogicalTokenBlocks ≤ blockTable.length
          ∧ ∀ last, blockTable.getLast? = some last → manager.Exclusive sequenceId last

theorem Accounted.exclusive_of_refCount (h : manager.Accounted) {blockTable : BlockTable}
    (hlookup : manager.blockTables.lookup sequenceId = some blockTable) (hblock : block ∈ blockTable)
    (hcount : manager.pool.refCount block = 1) : manager.Exclusive sequenceId block := by
  intro id table hsome hmem
  by_contra hne
  have hown := mem_owned_of_mem hlookup hblock
  have hothers : block ∈ manager.ownedByOthers sequenceId := by
    let manager' := { manager with blockTables := manager.blockTables.erase sequenceId }
    have hsome' : manager'.blockTables.lookup id = some table := by
      rwa [AList.lookup_erase_ne hne]
    exact mem_owned_of_mem hsome' hmem
  rw [h.balanced.refCount_eq block (h.balanced.mem_univ block hown), owned_eq hlookup,
    Multiset.count_add] at hcount
  have hfirst : 1 ≤ Multiset.count block (blockTable : Multiset SyncPhysicalTokenBlock) :=
    Multiset.one_le_count_iff_mem.mpr hblock
  have hsecond : 1 ≤ Multiset.count block (manager.ownedByOthers sequenceId) :=
    Multiset.one_le_count_iff_mem.mpr hothers
  omega

theorem exclusive_of_writesTable {blockTable : BlockTable} (hnew : block ∉ manager.owned)
    (hwrites : manager.WritesTable manager' sequenceId blockTable)
    : manager'.Exclusive sequenceId block := by
  intro id table hsome hmem
  by_contra hne
  rw [hwrites.2, if_neg hne] at hsome
  exact hnew (mem_owned_of_mem hsome hmem)

/--
A call of `append_slots` that succeeds leaves the table long enough.
-/
theorem length_of_appendSlots {cow : Option (Nat × Nat)} (h : manager.Accounted)
    (hgpu : ∀ blockTable, manager.blockTables.lookup sequenceId = some blockTable →
      ∀ block ∈ blockTable, block.device = .gpu)
    (hrun : (appendSlots sequenceId sequence).run manager = .ok cow manager')
    : 1 ≤ sequence.getNumTotalLogicalTokenBlocks
        ∧ ∀ blockTable, manager'.blockTables.lookup sequenceId = some blockTable →
            sequence.getNumTotalLogicalTokenBlocks ≤ blockTable.length := by
  have hpos : sequence.getNumTotalLogicalTokenBlocks ≠ 0 := by
    intro hzero
    unfold appendSlots at hrun
    simp only [hzero, if_true, run_bind] at hrun
    cases hrun
  refine ⟨by omega, ?_⟩
  intro blockTable' hlookup'
  have hle : ∀ blockTable, manager.blockTables.lookup sequenceId = some blockTable →
      sequence.getNumTotalLogicalTokenBlocks ≤ blockTable.length + 1 := by
    intro blockTable hlookup
    by_contra hbehind
    have hbehind : blockTable.length + 1 < sequence.getNumTotalLogicalTokenBlocks := by omega
    rcases appendSlots_run_of_behind hlookup hbehind with ⟨e, herror⟩
    rw [herror] at hrun
    cases hrun
  cases appended_of_run h hgpu hrun with
  | keep hmanager =>
    subst hmanager
    by_contra hshort
    have hle := hle blockTable' hlookup'
    -- a table that is too short has been extended
    rw [appendSlots_run_of_short hlookup' h.blockSlidingWindow_eq (by omega)] at hrun
    have hfree : 1 ≤ manager'.getNumFreeBlocks .gpu := by
      simp only [appendSlots.pushBlock, bind_run_eq_ok] at hrun
      rcases hrun with ⟨block, next, halloc, -⟩
      exact one_le_of_allocateBlock halloc
    rcases appendSlots.pushBlock_yields h hlookup' (hgpu blockTable' hlookup') hfree
      with ⟨_, _, hrun', block, -, -, -, hwrites, -⟩
    rw [hrun'] at hrun
    cases hrun
    have hlonger := hwrites.2 sequenceId
    rw [hlookup', if_pos rfl] at hlonger
    simp at hlonger
  | push blockTable block hlookup _ _ _ hwrites =>
    rw [hwrites.2, if_pos rfl] at hlookup'
    cases hlookup'
    have := hle blockTable hlookup
    rw [List.length_append, List.length_singleton]
    exact this
  | copy init last block _ hfull _ _ _ _ hwrites =>
    rw [hwrites.2, if_pos rfl] at hlookup'
    cases hlookup'
    rw [List.length_append, List.length_singleton]
    exact hfull

theorem hasSlot_of_appendSlots {cow : Option (Nat × Nat)} (h : manager.Accounted)
    (hgpu : ∀ blockTable, manager.blockTables.lookup sequenceId = some blockTable →
      ∀ block ∈ blockTable, block.device = .gpu)
    (hrun : (appendSlots sequenceId sequence).run manager = .ok cow manager')
    : manager'.HasSlot sequenceId sequence := by
  rcases length_of_appendSlots h hgpu hrun with ⟨hpos, hlength⟩
  refine ⟨hpos, fun blockTable hlookup => ⟨hlength blockTable hlookup, ?_⟩⟩
  intro last hlast
  have hlength := hlength blockTable hlookup
  have hconcat := List.dropLast_append_getLast? last hlast
  cases appended_of_run h hgpu hrun with
  | keep hmanager hcount =>
    subst hmanager
    apply h.exclusive_of_refCount hlookup (List.mem_of_getLast? hlast)
    apply hcount
    rw [← hconcat, List.length_append, List.length_singleton] at hlength
    exact ⟨blockTable.dropLast, hconcat.symm ▸ hlookup, hlength⟩
  | push old block _ _ _ hnew hwrites =>
    rw [hwrites.2, if_pos rfl] at hlookup
    cases hlookup
    rw [List.getLast?_concat] at hlast
    cases hlast
    exact exclusive_of_writesTable hnew hwrites
  | copy init old block _ _ _ _ _ hnew hwrites =>
    rw [hwrites.2, if_pos rfl] at hlookup
    cases hlookup
    rw [List.getLast?_concat] at hlast
    cases hlast
    exact exclusive_of_writesTable hnew hwrites

/--
A call for another sequence leaves the slot. It may take new blocks, but none that a table holds.
-/
theorem HasSlot.appended {id : Nat} {other : Sequence} {cow : Option (Nat × Nat)}
    (h : manager.HasSlot sequenceId sequence) (hne : sequenceId ≠ id)
    (happended : Appended manager manager' id other cow) : manager'.HasSlot sequenceId sequence := by
  refine ⟨h.1, ?_⟩
  intro blockTable hlookup
  rw [happended.lookup_of_ne hne] at hlookup
  refine ⟨(h.2 blockTable hlookup).1, ?_⟩
  intro last hlast holder table hsome hmem
  have hexclusive := (h.2 blockTable hlookup).2 last hlast
  by_cases hholder : holder = id
  . subst hholder
    have hown := mem_owned_of_mem hlookup (List.mem_of_getLast? hlast)
    cases happended with
    | keep hmanager =>
      subst hmanager
      exact hexclusive holder table hsome hmem
    | push old block hold _ _ hnew hwrites =>
      rw [hwrites.2, if_pos rfl] at hsome
      cases hsome
      rcases List.mem_append.mp hmem with hmem | hmem
      . exact hexclusive holder old hold hmem
      . exact absurd (List.mem_singleton.mp hmem ▸ hown) hnew
    | copy init old block hold _ _ _ _ hnew hwrites =>
      rw [hwrites.2, if_pos rfl] at hsome
      cases hsome
      rcases List.mem_append.mp hmem with hmem | hmem
      . exact hexclusive holder _ hold (List.mem_append_left _ hmem)
      . exact absurd (List.mem_singleton.mp hmem ▸ hown) hnew
  . rw [happended.lookup_of_ne hholder] at hsome
    exact hexclusive holder table hsome hmem

theorem hasSlot_of_appendSlotsOf {heap : SequenceHeap} {seqs : List SequenceRef}
    {pairs : List (Nat × Nat)} (h : manager.Appendable seqs)
    (hrun : (appendSlotsOf heap seqs).run manager = .ok pairs manager')
    : ∀ seq ∈ seqs, manager'.HasSlot seq.sequenceId (heap seq) := by
  have hkeeps : ∀ {seqs : List SequenceRef} {pairs : List (Nat × Nat)} {m : BlockSpaceManager},
      m.Appendable seqs → (appendSlotsOf heap seqs).run m = .ok pairs manager' →
        ∀ {seq : SequenceRef}, (∀ other ∈ seqs, seq.sequenceId ≠ other.sequenceId) →
          m.HasSlot seq.sequenceId (heap seq) → manager'.HasSlot seq.sequenceId (heap seq) := by
    intro seqs pairs m hm hrun seq hne hslot
    induction seqs generalizing m pairs with
    | nil =>
      cases hrun
      exact hslot
    | cons other seqs ih =>
      rcases appendSlotsOf_cons hm hrun with ⟨cow, next, cows, happended, hnext, hrest, -⟩
      exact ih hnext hrest (fun other hother => hne other (List.mem_cons_of_mem _ hother))
        (hslot.appended (hne other List.mem_cons_self) happended)
  induction seqs generalizing manager pairs with
  | nil => simp
  | cons seq seqs ih =>
    simp only [appendSlotsOf, bind_run_eq_ok] at hrun
    rcases hrun with ⟨cow, next, hfirst, cows, last, hrest, hpure⟩
    cases hpure
    have hgpu := h.device_eq seq List.mem_cons_self
    have hnext := h.of_appended (appended_of_run h.accounted hgpu hfirst)
    intro other hother
    rcases List.mem_cons.mp hother with rfl | hother
    . exact hkeeps hnext hrest (fun later hlater => (h.ne_of_mem hlater).symm)
        (hasSlot_of_appendSlots h.accounted hgpu hfirst)
    . exact ih hnext hrest other hother

end BlockSpaceManager

namespace Memory

variable {before memory memory' : Memory} {group : SequenceGroup} {seq : SequenceRef}

/--
What `schedule_running` does to a sequence: it appends a slot, frees the blocks or moves them to the
CPU. A sequence keeps its table unless its blocks are freed.
-/
inductive Outcome where
  | scheduled
  | recomputed
  | swappedOut

def Outcome.Holds (before memory : Memory) (seq : SequenceRef) : Outcome → Prop
  | .scheduled =>
    memory.blockManager.HasSlot seq.sequenceId (memory.sequences seq)
      ∧ (memory.blockManager.blockTables.lookup seq.sequenceId).isSome
          = (before.blockManager.blockTables.lookup seq.sequenceId).isSome
  | .recomputed =>
    (memory.sequences seq).sequenceStatus = .waiting
      ∧ memory.blockManager.blockTables.lookup seq.sequenceId = none
  | .swappedOut =>
    (memory.sequences seq).sequenceStatus = .swapped
      ∧ Option.Rel
          (fun blockTable blockTable' =>
            blockTable'.length = blockTable.length ∧ ∀ block ∈ blockTable', block.device = .cpu)
          (before.blockManager.blockTables.lookup seq.sequenceId)
          (memory.blockManager.blockTables.lookup seq.sequenceId)

/--
The sequence and its table are as they were.
-/
structure Same (before memory : Memory) (seq : SequenceRef) : Prop where
  sequences_eq : memory.sequences seq = before.sequences seq
  lookup_eq : memory.blockManager.blockTables.lookup seq.sequenceId
    = before.blockManager.blockTables.lookup seq.sequenceId

theorem Alters.same (h : Alters group memory memory') (hid : seq.sequenceId ∉ group.sequenceIds)
    : Same memory memory' seq :=
  ⟨h.sequences_eq seq fun hmem => hid (SequenceGroup.mem_sequenceIds hmem), h.lookup_eq _ hid⟩

theorem Same.trans (h : Same before memory seq) (h' : Same memory memory' seq)
    : Same before memory' seq :=
  ⟨h'.sequences_eq.trans h.sequences_eq, h'.lookup_eq.trans h.lookup_eq⟩

theorem Outcome.Holds.of_same {outcome : Outcome} (h : outcome.Holds memory memory' seq)
    (hsame : Same before memory seq) : outcome.Holds before memory' seq := by
  cases outcome with
  | scheduled =>
    unfold Outcome.Holds at *
    rwa [hsame.lookup_eq] at h
  | recomputed => exact h
  | swappedOut =>
    unfold Outcome.Holds at *
    rwa [hsame.lookup_eq] at h

/--
An operation on another group does not change it.
-/
theorem Outcome.Holds.alters {outcome : Outcome} (h : outcome.Holds before memory seq)
    (halters : Alters group memory memory') (hid : seq.sequenceId ∉ group.sequenceIds)
    : outcome.Holds before memory' seq := by
  have hsame := halters.same hid
  cases outcome with
  | scheduled =>
    unfold Outcome.Holds at *
    rcases h with ⟨⟨hpos, htable⟩, hkept⟩
    rw [hsame.sequences_eq, hsame.lookup_eq]
    refine ⟨⟨hpos, ?_⟩, hkept⟩
    intro blockTable hlookup
    rw [hsame.lookup_eq] at hlookup
    refine ⟨(htable blockTable hlookup).1, ?_⟩
    intro last hlast id table hsome hmem
    have hexclusive := (htable blockTable hlookup).2 last hlast
    by_cases hgroup : id ∈ group.sequenceIds
    . exfalso
      -- the group holds the block only if it held it before
      have hown := BlockSpaceManager.mem_owned_of_mem hlookup (List.mem_of_getLast? hlast)
      rcases halters.holds last ⟨id, hgroup, table, hsome, hmem⟩ hown
        with ⟨holder, hholder, table', hsome', hmem'⟩
      exact hid (hexclusive holder table' hsome' hmem' ▸ hholder)
    . rw [halters.lookup_eq id hgroup] at hsome
      exact hexclusive id table hsome hmem
  | recomputed =>
    unfold Outcome.Holds at *
    rwa [hsame.sequences_eq, hsame.lookup_eq]
  | swappedOut =>
    unfold Outcome.Holds at *
    rwa [hsame.sequences_eq, hsame.lookup_eq]

end Memory

namespace Scheduler

open Memory

variable {groups queue : List SequenceGroup} {group : SequenceGroup} {enableChunking : Bool}

section Outcomes

variable {scheduler scheduler' : Scheduler} {seq : SequenceRef}
variable (h : scheduler.memory.Grouped groups) (hgroup : group ∈ groups)
variable (hseq : seq ∈ group.sequences)
variable (hrunning : (scheduler.memory.sequences seq).sequenceStatus = .running)
include h hgroup hseq hrunning

theorem scheduled_of_appendSlots {blocksToCopy blocksToCopy' : BlockMapping}
    (happend : scheduler.appendSlots group blocksToCopy = .ok (blocksToCopy', scheduler'))
    : Outcome.scheduled.Holds scheduler.memory scheduler'.memory seq := by
  rcases appendSlots_eq_foldl happend with ⟨pairs, manager, hrun, -, rfl⟩
  have happendable := h.appendable hgroup
  exact ⟨BlockSpaceManager.hasSlot_of_appendSlotsOf happendable hrun seq
    (SequenceGroup.mem_getSeqs.mpr ⟨hseq, hrunning⟩),
    BlockSpaceManager.isSome_lookup_of_appendSlotsOf happendable hrun _⟩

omit h hgroup in
theorem recomputed_of_preemptByRecompute
    (hrecompute : scheduler.preemptByRecompute group = .ok scheduler')
    : Outcome.recomputed.Holds scheduler.memory scheduler'.memory seq := by
  rcases preemptByRecompute_eq_ok hrecompute with ⟨seq', manager, hseqs, hrun, rfl⟩
  have hmem : seq ∈ group.getSeqs scheduler.memory.sequences .running :=
    SequenceGroup.mem_getSeqs.mpr ⟨hseq, hrunning⟩
  rw [hseqs, List.mem_singleton] at hmem
  subst hmem
  constructor
  . dsimp only
    rw [Function.update_self]
    rfl
  . have hfreed := (BlockSpaceManager.of_free hrun).2 seq.sequenceId
    rwa [if_pos rfl] at hfreed

theorem swappedOut_of_swapOut {blocks blocks' : BlockMapping}
    (hswap : scheduler.swapOut group blocks = .ok (blocks', scheduler'))
    : Outcome.swappedOut.Holds scheduler.memory scheduler'.memory seq := by
  rcases grouped_of_swapOut h hgroup hswap
    with ⟨-, -, numbers, mapping, hswapped, -, hheap⟩
  have hmem : seq ∈ group.getSeqs scheduler.memory.sequences .running :=
    SequenceGroup.mem_getSeqs.mpr ⟨hseq, hrunning⟩
  constructor
  . rw [hheap, if_pos hmem]
    rfl
  . apply Option.Rel.imp _ (hswapped.lookup_of_mem seq.sequenceId (List.mem_map_of_mem hmem))
    intro blockTable blockTable' hsends
    refine ⟨hsends.length_eq.symm, ?_⟩
    intro block hblock
    rcases hsends.exists_of_mem_right hblock with ⟨block', -, hsend⟩
    exact hswapped.valid.device_eq _ _ hsend

end Outcomes

namespace RunningVars

variable {vars vars' : RunningVars} {outcome : Outcome}

/--
What has been done to the groups that are not pending.
-/
def outcomes (outputs : SchedulerRunningOutputs) : List (SequenceGroup × Outcome) :=
  (groupsOf outputs.decodeSeqGroups).map (·, .scheduled)
    ++ (groupsOf outputs.prefillSeqGroups).map (·, .scheduled)
    ++ outputs.preempted.map (·, .recomputed)
    ++ outputs.swappedOut.map (·, .swappedOut)

/--
One of the pending groups is dealt with.
-/
structure Settles (groups : List SequenceGroup) (vars vars' : RunningVars) (group : SequenceGroup)
    (outcome : Outcome) : Prop where
  pending_perm : vars.pending.Perm (group :: vars'.pending)
  outcomes_perm : (outcomes vars'.outputs).Perm ((group, outcome) :: outcomes vars.outputs)
  grouped : vars'.scheduler.memory.Grouped groups
  alters : Alters group vars.scheduler.memory vars'.scheduler.memory
  holds : ∀ seq ∈ group.sequences,
    (vars.scheduler.memory.sequences seq).sequenceStatus = .running →
      outcome.Holds vars.scheduler.memory vars'.scheduler.memory seq

theorem exists_outcome_of_preempt (h : vars.preempt group = .ok vars')
    (hgrouped : vars.scheduler.memory.Grouped groups) (hgroup : group ∈ groups)
    : ∃ outcome,
        (outcomes vars'.outputs).Perm ((group, outcome) :: outcomes vars.outputs)
          ∧ ∀ seq ∈ group.sequences,
              (vars.scheduler.memory.sequences seq).sequenceStatus = .running →
                outcome.Holds vars.scheduler.memory vars'.scheduler.memory seq := by
  have hcounted : vars.scheduler.countPreemption.memory.Grouped groups := hgrouped
  rcases preempt_eq_ok h with ⟨-, scheduler, hrecompute, rfl⟩ | ⟨-, blocks, scheduler, hswap, rfl⟩
  . refine ⟨.recomputed, ?_, ?_⟩
    . unfold outcomes
      rw [List.map_append, ← List.append_assoc]
      exact List.perm_concat_append _ _ _
    . intro seq hseq hrunning
      have hrunning : (vars.scheduler.countPreemption.memory.sequences seq).sequenceStatus = .running :=
        hrunning
      have hholds := recomputed_of_preemptByRecompute hseq hrunning hrecompute
      exact hholds
  . refine ⟨.swappedOut, ?_, ?_⟩
    . unfold outcomes
      rw [List.map_append, ← List.append_assoc]
      exact List.perm_append_singleton _ _
    . intro seq hseq hrunning
      have hholds := swappedOut_of_swapOut hcounted hgroup hseq hrunning hswap
      exact hholds

theorem outcomes_addScheduled (outputs : SchedulerRunningOutputs) (isPrefill : Bool) (numTokens : Nat)
    (blocksToCopy : BlockMapping)
    : (outcomes { outputs.addScheduled isPrefill group numTokens with blocksToCopy }).Perm
        ((group, .scheduled) :: outcomes outputs) := by
  unfold SchedulerRunningOutputs.addScheduled outcomes groupsOf
  split
  . simp only [List.map_append, ← List.append_assoc]
    exact (List.perm_concat_append _ _ _).append_right _
  . simp only [List.map_append]
    exact ((List.perm_concat_append _ _ _).append_right _).append_right _

theorem Next.settles (h : Next enableChunking vars vars')
    (hgrouped : vars.scheduler.memory.Grouped groups) (hpending : ∀ group ∈ vars.pending, group ∈ groups)
    : (vars'.pending = vars.pending ∧ vars'.outputs = vars.outputs
          ∧ vars'.scheduler = vars.scheduler)
        ∨ ∃ group outcome, Settles groups vars vars' group outcome := by
  cases h with
  | take group runningQueue numRunningTokens hcurrent hqueue =>
    left
    simp [pending, hcurrent, hqueue]
  | preemptVictim group victim runningQueue _ _ _ vars' hcurrent _ _ _ hqueue hpreempt =>
    right
    have hvictim : victim ∈ vars.pending := by simp [pending, hqueue]
    have hafter := grouped_of_preempt hpreempt hgrouped (hpending victim hvictim)
    rcases exists_outcome_of_preempt hpreempt hgrouped (hpending victim hvictim)
      with ⟨outcome, hperm, hholds⟩
    refine ⟨victim, outcome, ?_, hperm, hafter.1, hafter.2, hholds⟩
    unfold pending
    rw [hqueue, ← List.append_assoc]
    exact List.perm_append_singleton _ _
  | preemptSelf group _ _ _ vars' hcurrent _ _ _ hqueue hpreempt =>
    right
    have hgroup := mem_pending_of_current hcurrent
    have hafter := grouped_of_preempt hpreempt hgrouped (hpending group hgroup)
    rcases exists_outcome_of_preempt hpreempt hgrouped (hpending group hgroup)
      with ⟨outcome, hperm, hholds⟩
    refine ⟨group, outcome, ?_, hperm, hafter.1, hafter.2, hholds⟩
    simp [pending, hcurrent, hqueue]
  | schedule group numRunningTokens _ hcurrent _ hschedule =>
    right
    have hgroup := mem_pending_of_current hcurrent
    rcases schedule_eq_ok hschedule with ⟨blocksToCopy, scheduler, happend, rfl⟩
    have hafter := grouped_of_appendSlots hgrouped (hpending group hgroup) happend
    refine ⟨group, .scheduled, ?_, outcomes_addScheduled _ _ _ _, hafter.1, hafter.2, ?_⟩
    . simp [pending, hcurrent]
    . intro seq hseq hrunning
      exact scheduled_of_appendSlots hgrouped (hpending group hgroup) hseq hrunning happend

/--
What holds between two iterations: the pending groups are as they were `before`, and the others have
what has been done to them.
-/
structure Progress (groups : List SequenceGroup) (before : Memory) (vars : RunningVars) : Prop where
  grouped : vars.scheduler.memory.Grouped groups
  subset : ∀ group ∈ vars.pending, group ∈ groups
  nodup : (((outcomes vars.outputs).map (·.1) ++ vars.pending).flatMap (·.sequenceIds)).Nodup
  same : ∀ group ∈ vars.pending, ∀ seq ∈ group.sequences, Same before vars.scheduler.memory seq
  holds : ∀ group outcome, (group, outcome) ∈ outcomes vars.outputs → ∀ seq ∈ group.sequences,
    (before.sequences seq).sequenceStatus = .running →
      outcome.Holds before vars.scheduler.memory seq

theorem Progress.settles {before : Memory} (h : vars.Progress groups before)
    (hsettles : Settles groups vars vars' group outcome) : vars'.Progress groups before := by
  have hperm := hsettles.pending_perm
  have hgroup : group ∈ vars.pending := hperm.mem_iff.mpr List.mem_cons_self
  have hpending : ∀ other ∈ vars'.pending, other ∈ vars.pending := fun other hother =>
    hperm.mem_iff.mpr (List.mem_cons_of_mem _ hother)
  have hnodup := h.nodup
  have hall : ((outcomes vars.outputs).map (·.1) ++ vars.pending).Perm
      (group :: ((outcomes vars.outputs).map (·.1) ++ vars'.pending)) :=
    (hperm.append_left _).trans List.perm_middle
  rw [(hall.flatMap_right _).nodup_iff] at hnodup
  -- the other groups have other identifiers, so the operation leaves them alone
  have hdisjoint : ∀ other ∈ (outcomes vars.outputs).map (·.1) ++ vars'.pending,
      ∀ seq ∈ other.sequences, seq.sequenceId ∉ group.sequenceIds := by
    intro other hother seq hseq hid
    rw [List.flatMap_cons, List.nodup_append] at hnodup
    exact hnodup.2.2 _ hid _
      (List.mem_flatMap.mpr ⟨other, hother, SequenceGroup.mem_sequenceIds hseq⟩) rfl
  refine ⟨hsettles.grouped, fun other hother => h.subset other (hpending other hother), ?_, ?_, ?_⟩
  . have hlast := (hsettles.outcomes_perm.map (·.1)).append_right vars'.pending
    rw [(hlast.flatMap_right _).nodup_iff]
    exact hnodup
  . intro other hother seq hseq
    have hid := hdisjoint other (List.mem_append_right _ hother) seq hseq
    exact (h.same other (hpending other hother) seq hseq).trans (hsettles.alters.same hid)
  . intro other outcome' hother seq hseq hrunning
    rcases List.mem_cons.mp (hsettles.outcomes_perm.mem_iff.mp hother) with heq | hold
    . cases heq
      have hsame := h.same group hgroup seq hseq
      rw [← hsame.sequences_eq] at hrunning
      exact (hsettles.holds seq hseq hrunning).of_same hsame
    . have hmem : other ∈ (outcomes vars.outputs).map (·.1) := List.mem_map_of_mem hold
      exact (h.holds other outcome' hold seq hseq hrunning).alters hsettles.alters
        (hdisjoint other (List.mem_append_left _ hmem) seq hseq)

theorem Progress.next {before : Memory} (h : vars.Progress groups before)
    (hnext : Next enableChunking vars vars') : vars'.Progress groups before := by
  rcases hnext.settles h.grouped h.subset with ⟨hpending, houtputs, hscheduler⟩ | ⟨_, _, hsettles⟩
  . constructor
    . rw [hscheduler]
      exact h.grouped
    . rw [hpending]
      exact h.subset
    . rw [hpending, houtputs]
      exact h.nodup
    . rw [hpending, hscheduler]
      exact h.same
    . rw [houtputs, hscheduler]
      exact h.holds
  . exact h.settles hsettles

/--
`queue` is what has been scheduled, what is pending, and what has been preempted, the last one first.
-/
structure Partitions (queue : List SequenceGroup) (vars : RunningVars)
    (scheduled : List ScheduledSequenceGroup) (victims : List SequenceGroup) : Prop where
  scheduled_eq : List.Interleaves vars.outputs.decodeSeqGroups vars.outputs.prefillSeqGroups scheduled
  victims_eq : List.Interleaves vars.outputs.preempted vars.outputs.swappedOut victims
  queue_eq : queue = groupsOf scheduled ++ vars.pending ++ victims.reverse

theorem interleaves_of_preempt {scheduled : List ScheduledSequenceGroup} {victims : List SequenceGroup}
    (h : vars.preempt group = .ok vars')
    (hscheduled : List.Interleaves vars.outputs.decodeSeqGroups vars.outputs.prefillSeqGroups scheduled)
    (hvictims : List.Interleaves vars.outputs.preempted vars.outputs.swappedOut victims)
    : List.Interleaves vars'.outputs.decodeSeqGroups vars'.outputs.prefillSeqGroups scheduled
        ∧ List.Interleaves vars'.outputs.preempted vars'.outputs.swappedOut (victims ++ [group]) := by
  rcases preempt_eq_ok h with ⟨-, _, -, rfl⟩ | ⟨-, _, _, -, rfl⟩
  . exact ⟨hscheduled, hvictims.left group⟩
  . exact ⟨hscheduled, hvictims.right group⟩

theorem interleaves_addScheduled {outputs : SchedulerRunningOutputs}
    {scheduled : List ScheduledSequenceGroup} {victims : List SequenceGroup} (isPrefill : Bool)
    (group : SequenceGroup) (numTokens : Nat)
    (hscheduled : List.Interleaves outputs.decodeSeqGroups outputs.prefillSeqGroups scheduled)
    (hvictims : List.Interleaves outputs.preempted outputs.swappedOut victims)
    : ∃ last : ScheduledSequenceGroup,
        last.scheduledGroup = group
          ∧ List.Interleaves (outputs.addScheduled isPrefill group numTokens).decodeSeqGroups
              (outputs.addScheduled isPrefill group numTokens).prefillSeqGroups (scheduled ++ [last])
          ∧ List.Interleaves (outputs.addScheduled isPrefill group numTokens).preempted
              (outputs.addScheduled isPrefill group numTokens).swappedOut victims := by
  unfold SchedulerRunningOutputs.addScheduled
  split
  . exact ⟨_, rfl, hscheduled.right _, hvictims⟩
  . exact ⟨_, rfl, hscheduled.left _, hvictims⟩

theorem Partitions.next {scheduled : List ScheduledSequenceGroup} {victims : List SequenceGroup}
    (h : Partitions queue vars scheduled victims) (hnext : Next enableChunking vars vars')
    : ∃ scheduled victims, Partitions queue vars' scheduled victims := by
  cases hnext with
  | take group runningQueue numRunningTokens hcurrent hqueue =>
    refine ⟨scheduled, victims, h.scheduled_eq, h.victims_eq, ?_⟩
    rw [h.queue_eq]
    simp [pending, hcurrent, hqueue]
  | preemptVictim group victim runningQueue _ _ _ vars' hcurrent _ _ _ hqueue hpreempt =>
    have hafter := interleaves_of_preempt hpreempt h.scheduled_eq h.victims_eq
    refine ⟨scheduled, victims ++ [victim], hafter.1, hafter.2, ?_⟩
    rw [h.queue_eq]
    simp [pending, hqueue]
  | preemptSelf group _ _ _ vars' hcurrent _ _ _ hqueue hpreempt =>
    -- the queue is empty, so the current group is the last one as well
    have hafter := interleaves_of_preempt hpreempt h.scheduled_eq h.victims_eq
    refine ⟨scheduled, victims ++ [group], hafter.1, hafter.2, ?_⟩
    rw [h.queue_eq]
    simp [pending, hcurrent, hqueue]
  | schedule group numRunningTokens _ hcurrent _ hschedule =>
    rcases schedule_eq_ok hschedule with ⟨blocksToCopy, scheduler, -, rfl⟩
    rcases interleaves_addScheduled (group.isPrefill scheduler.memory.sequences) group
      numRunningTokens h.scheduled_eq h.victims_eq with ⟨last, hlast, hscheduled, hvictims⟩
    refine ⟨scheduled ++ [last], victims, hscheduled, hvictims, ?_⟩
    rw [h.queue_eq]
    simp [pending, hcurrent, groupsOf, hlast]

end RunningVars

/--
Sorting by priority is sorting by arrival time when all groups have arrived.
-/
theorem sortByPriority_eq {now : Nat} (hnow : ∀ group ∈ queue, group.arrivalTime ≤ now)
    : FcfsPolicy.sortByPriority now queue
        = queue.insertionSort fun v₁ v₂ => v₁.arrivalTime ≤ v₂.arrivalTime := by
  have hsorted := List.map_insertionSort
    (fun v₁ v₂ => FcfsPolicy.getPriority now v₂ ≤ FcfsPolicy.getPriority now v₁)
    (fun v₁ v₂ : SequenceGroup => v₁.arrivalTime ≤ v₂.arrivalTime) id queue ?_
  . rwa [List.map_id, List.map_id] at hsorted
  . intro v₁ hv₁ v₂ hv₂
    have hv₁ := hnow v₁ hv₁
    have hv₂ := hnow v₂ hv₂
    unfold FcfsPolicy.getPriority id
    omega

/--
`schedule_running` partitions the queue. The groups that it schedules are at the front and those that
it preempts at the back, and each of them gets what it is listed for.
-/
theorem scheduleRunning_partitions {scheduler : Scheduler} {budget : SchedulingBudget} {now : Nat}
    {vars : RunningVars} (hnow : ∀ group ∈ queue, group.arrivalTime ≤ now)
    (h : scheduler.scheduleRunning queue budget enableChunking now = .ok vars)
    : (∃ scheduled victims,
          List.Interleaves vars.outputs.decodeSeqGroups vars.outputs.prefillSeqGroups scheduled
            ∧ List.Interleaves vars.outputs.preempted vars.outputs.swappedOut victims
            ∧ (queue.insertionSort fun v₁ v₂ => v₁.arrivalTime ≤ v₂.arrivalTime)
                = groupsOf scheduled ++ vars.runningQueue ++ victims.reverse)
        ∧ (∀ groups, scheduler.memory.Grouped groups → queue.Subperm groups →
            ∀ group outcome, (group, outcome) ∈ RunningVars.outcomes vars.outputs →
              ∀ seq ∈ group.sequences,
                (scheduler.memory.sequences seq).sequenceStatus = .running →
                  outcome.Holds scheduler.memory vars.scheduler.memory seq)
        ∧ ((runningLoop enableChunking).states (.start scheduler queue budget now)).length
            ≤ 2 * queue.length + 1 := by
  have hsort := FcfsPolicy.sortByPriority_perm now queue
  refine ⟨?_, ?_, ?_⟩
  . rw [← sortByPriority_eq hnow]
    refine (runningLoop enableChunking).run_invariant
      (I := fun vars => ∃ scheduled victims,
        RunningVars.Partitions (FcfsPolicy.sortByPriority now queue) vars scheduled victims)
      (Q := fun vars => ∃ scheduled victims,
        List.Interleaves vars.outputs.decodeSeqGroups vars.outputs.prefillSeqGroups scheduled
          ∧ List.Interleaves vars.outputs.preempted vars.outputs.swappedOut victims
          ∧ FcfsPolicy.sortByPriority now queue
              = groupsOf scheduled ++ vars.runningQueue ++ victims.reverse) ?_ ?_ ?_ h
    . rintro vars vars' ⟨scheduled, victims, hvars⟩ hstep
      exact hvars.next (RunningVars.next_of_step hstep)
    . rintro vars vars' ⟨scheduled, victims, hvars⟩ hstep
      rcases RunningVars.of_step_eq_inr hstep with ⟨rfl, hcurrent, -⟩
      refine ⟨scheduled, victims, hvars.scheduled_eq, hvars.victims_eq, ?_⟩
      have hqueue := hvars.queue_eq
      unfold RunningVars.pending at hqueue
      rwa [hcurrent] at hqueue
    . exact ⟨[], [], .nil, .nil, by simp [RunningVars.pending, RunningVars.start, groupsOf]⟩
  . intro groups hgrouped hsubperm
    have hprogress : vars.Progress groups scheduler.memory := by
      refine (runningLoop enableChunking).run_invariant
        (I := fun vars => vars.Progress groups scheduler.memory)
        (Q := fun vars => vars.Progress groups scheduler.memory) ?_ ?_ ?_ h
      . intro vars vars' hvars hstep
        exact hvars.next (RunningVars.next_of_step hstep)
      . intro vars vars' hvars hstep
        rwa [(RunningVars.of_step_eq_inr hstep).1]
      . have hpending : (RunningVars.start scheduler queue budget now).pending.Perm queue := hsort
        refine ⟨hgrouped, ?_, ?_, fun _ _ _ _ => ⟨rfl, rfl⟩, fun _ _ hmem => (by cases hmem)⟩
        . intro group hgroup
          exact hsubperm.subset (hpending.mem_iff.mp hgroup)
        . exact hgrouped.nodup_of_subperm (hpending.subperm.trans hsubperm)
    exact hprogress.holds
  . have hbound := (runningLoop enableChunking).length_states_le (.start scheduler queue budget now)
    have hmeasure : (runningLoop enableChunking).measure (.start scheduler queue budget now)
        = 2 * queue.length := by
      change 2 * (FcfsPolicy.sortByPriority now queue).length + 0 = _
      rw [hsort.length_eq, Nat.add_zero]
    omega

section Runs

open BlockSpaceManager

def firstGroup : SequenceGroup :=
  { oneTokenGroup [⟨0, 0⟩] with requestId := "a" }

def secondGroup : SequenceGroup :=
  { oneTokenGroup [⟨1, 1⟩] with requestId := "b", arrivalTime := 1 }

def bothArrived : RunState :=
  { RunState.init 1 0 2 (fun _ => oneToken) with groups := [secondGroup, firstGroup] }

def allocateIn (state : RunState) (group : SequenceGroup) : RunState := {
  state with
  memory := {
    sequences := group.setStatusWhere state.heap
      (fun seq => (state.heap seq).sequenceStatus = .waiting) .running
    blockManager := (BlockSpaceManager.allocate group state.heap).finalState state.manager } }

def generateIn (state : RunState) (seq : SequenceRef) : RunState := {
  state with
  memory := {
    state.memory with sequences := Function.update state.heap seq Fcfs.decodingSequence } }

def bothAllocated : RunState :=
  allocateIn (allocateIn bothArrived firstGroup) secondGroup

/--
Two groups have taken the two blocks of the GPU, and have got second tokens, for which there is no
block.
-/
def bothGenerated : RunState :=
  generateIn (generateIn bothAllocated ⟨0, 0⟩) ⟨1, 1⟩

theorem reachable_bothGenerated : Reachable 1 0 2 bothGenerated := by
  have hfirst : Step (.init 1 0 2 fun _ => oneToken)
      { bothArrived with groups := [firstGroup] } :=
    Step.arrive _ firstGroup (fun _ => oneToken) (by decide) (by decide) (fun _ _ => rfl)
  have hsecond : Step { bothArrived with groups := [firstGroup] } bothArrived :=
    Step.arrive _ secondGroup (fun _ => oneToken) (by decide) (by decide) (fun _ _ => rfl)
  have hallocate : Step bothArrived (allocateIn bothArrived firstGroup) :=
    Step.allocate _ firstGroup (by decide) (by decide) (by decide)
  have hallocate' : Step (allocateIn bothArrived firstGroup) bothAllocated :=
    Step.allocate _ secondGroup (List.mem_cons_self) (by decide +kernel) (by decide +kernel)
  have hgenerate : Step bothAllocated (generateIn bothAllocated ⟨0, 0⟩) :=
    Step.edit _ ⟨0, 0⟩ Fcfs.decodingSequence (by decide +kernel)
  have hgenerate' : Step (generateIn bothAllocated ⟨0, 0⟩) bothGenerated :=
    Step.edit _ ⟨1, 1⟩ Fcfs.decodingSequence (by decide +kernel)
  exact ⟨fun _ => oneToken, (((((Relation.ReflTransGen.refl.tail hfirst).tail hsecond).tail
    hallocate).tail hallocate').tail hgenerate).tail hgenerate'⟩

def bothRunning : Scheduler :=
  {
    Scheduler.new ⟨4, 4, 4, 0, false⟩ 1 0 2 none bothGenerated.heap 0 with
    memory := bothGenerated.memory
    running := [secondGroup, firstGroup]
  }

/--
The group that has arrived later gives its block to the other one.
-/
theorem scheduleRunning_partitions_two
    : ∃ vars scheduled, ∃ victims : List SequenceGroup,
        bothRunning.scheduleRunning [secondGroup, firstGroup] (.new 4 4) false 2 = .ok vars
          ∧ vars.outputs.preempted = [secondGroup]
          ∧ ([secondGroup, firstGroup].insertionSort fun v₁ v₂ => v₁.arrivalTime ≤ v₂.arrivalTime)
              = groupsOf scheduled ++ vars.runningQueue ++ victims.reverse
          ∧ Outcome.recomputed.Holds bothRunning.memory vars.scheduler.memory ⟨1, 1⟩ := by
  have hrun : (bothRunning.scheduleRunning [secondGroup, firstGroup] (.new 4 4) false 2).toOption.any
      (fun vars => vars.outputs.preempted = [secondGroup]) = true := by
    decide +kernel
  rcases Except.exists_eq_ok_of_any hrun with ⟨vars, hok, hpreempted⟩
  rw [decide_eq_true_eq] at hpreempted
  have hresult := scheduleRunning_partitions (by decide) hok
  rcases hresult with ⟨⟨scheduled, victims, -, -, hqueue⟩, hholds, -⟩
  rcases grouped_of_reached (reached_of_reachable reachable_bothGenerated
    (show bothRunning.memory = bothGenerated.memory from rfl) (List.Subperm.refl _))
    with ⟨groups, hsubperm, hgrouped⟩
  refine ⟨vars, scheduled, victims, hok, hpreempted, hqueue, ?_⟩
  apply hholds groups hgrouped hsubperm secondGroup .recomputed _ ⟨1, 1⟩ (List.mem_singleton_self _)
    (by decide +kernel)
  unfold RunningVars.outcomes
  rw [hpreempted]
  simp

end Runs

end Scheduler

end AtomaInfer
