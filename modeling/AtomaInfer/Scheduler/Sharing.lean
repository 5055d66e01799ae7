import Mathlib.Data.List.Flatten
import AtomaInfer.BlockManager.CopyOnWrite
import AtomaInfer.BlockManager.Run
import AtomaInfer.Scheduler.Passes
import AtomaInfer.Scheduler.Effects

/-!
The operations of the scheduler on groups with any number of sequences. The sequences of a group may
share blocks with each other, but not with those of another group, and an operation on a group leaves
the other groups alone.
-/

namespace AtomaInfer

namespace Memory

open BlockSpaceManager EStateM

/--
`groups` are the groups that have been received so far. Blocks are shared only within them.
-/
structure Grouped (groups : List SequenceGroup) (memory : Memory) : Prop where
  runInvariant : RunInvariant memory.blockManager { memory, groups }
  apart : ∀ group ∈ groups, ∀ block, memory.blockManager.Holds group block →
    ∀ sequenceId blockTable, memory.blockManager.blockTables.lookup sequenceId = some blockTable →
      block ∈ blockTable → sequenceId ∈ group.sequenceIds

/--
Of the sequences and their tables only those of the group differ, and what its tables hold is what
they held before, or was free.
-/
structure Alters (group : SequenceGroup) (memory memory' : Memory) : Prop where
  sequences_eq : ∀ seq, seq ∉ group.sequences → memory'.sequences seq = memory.sequences seq
  lookup_eq : ∀ sequenceId, sequenceId ∉ group.sequenceIds →
    memory'.blockManager.blockTables.lookup sequenceId
      = memory.blockManager.blockTables.lookup sequenceId
  holds : ∀ block, memory'.blockManager.Holds group block → block ∈ memory.blockManager.owned →
    memory.blockManager.Holds group block

variable {groups pending : List SequenceGroup} {group group' : SequenceGroup}
variable {memory memory' memory'' : Memory}

namespace Grouped

theorem accounted (h : memory.Grouped groups) : memory.blockManager.Accounted :=
  h.runInvariant.accounted

theorem nodup (h : memory.Grouped groups) (hgroup : group ∈ groups) : group.sequenceIds.Nodup :=
  h.runInvariant.nodup_group hgroup

theorem placed (h : memory.Grouped groups) (hgroup : group ∈ groups) {seq : SequenceRef}
    (hseq : seq ∈ group.sequences)
    : memory.blockManager.Placed seq.sequenceId (memory.sequences seq).sequenceStatus :=
  h.runInvariant.placed seq (List.mem_flatMap.mpr ⟨group, hgroup, hseq⟩)

theorem disjoint (h : memory.Grouped groups) (hgroup : group ∈ groups) (hgroup' : group' ∈ groups)
    (hne : group' ≠ group) {sequenceId : Nat} (hid : sequenceId ∈ group'.sequenceIds)
    : sequenceId ∉ group.sequenceIds :=
  h.runInvariant.disjoint hgroup hgroup' hne hid

/--
The device on which the tables of the sequences with a status are.
-/
theorem device_eq (h : memory.Grouped groups) (hgroup : group ∈ groups) {status : SequenceStatus}
    {device : BlockDevice}
    (hstatus : status = .running ∧ device = .gpu ∨ status = .swapped ∧ device = .cpu)
    {sequenceId : Nat} (hid : sequenceId ∈ group.getSequencesIds memory.sequences status)
    {blockTable : BlockTable}
    (hlookup : memory.blockManager.blockTables.lookup sequenceId = some blockTable)
    : ∀ block ∈ blockTable, block.device = device := by
  rcases List.mem_map.mp hid with ⟨seq, hseq, rfl⟩
  rw [SequenceGroup.mem_getSeqs] at hseq
  have hplaced := h.placed hgroup hseq.1
  rw [hseq.2] at hplaced
  rcases hstatus with ⟨rfl, rfl⟩ | ⟨rfl, rfl⟩
  . exact hplaced blockTable hlookup
  . exact hplaced blockTable hlookup

theorem nodup_of_subperm (h : memory.Grouped groups) (hsubperm : pending.Subperm groups)
    : (pending.flatMap (·.sequenceIds)).Nodup := by
  have hnodup : ((groups.flatMap (·.sequences)).map (·.sequenceId)).Nodup := h.runInvariant.nodup
  rw [List.map_flatMap] at hnodup
  rcases hsubperm with ⟨between, hperm, hsublist⟩
  rw [(hperm.symm.flatMap_right _).nodup_iff]
  exact hnodup.sublist (hsublist.flatMap _)

/--
The identifiers of the first group to come are not those of a later one.
-/
theorem notMem_of_subperm (h : memory.Grouped groups) (hsubperm : (group :: pending).Subperm groups)
    (hother : group' ∈ pending) {sequenceId : Nat} (hid : sequenceId ∈ group'.sequenceIds)
    : sequenceId ∉ group.sequenceIds := by
  have hnodup := h.nodup_of_subperm hsubperm
  rw [List.flatMap_cons, List.nodup_append] at hnodup
  intro hmem
  exact hnodup.2.2 sequenceId hmem sequenceId (List.mem_flatMap.mpr ⟨group', hother, hid⟩) rfl

end Grouped

namespace Alters

theorem refl (group : SequenceGroup) (memory : Memory) : Alters group memory memory :=
  ⟨fun _ _ => rfl, fun _ _ => rfl, fun _ h _ => h⟩

theorem mem_owned (h : Alters group memory memory') {block : SyncPhysicalTokenBlock}
    (hown : block ∈ memory.blockManager.owned) (hnot : ¬ memory.blockManager.Holds group block)
    : block ∈ memory'.blockManager.owned := by
  rcases mem_owned_iff_lookup.mp hown with ⟨sequenceId, blockTable, hlookup, hmem⟩
  have hid : sequenceId ∉ group.sequenceIds := fun hid =>
    hnot ⟨sequenceId, hid, blockTable, hlookup, hmem⟩
  rw [← h.lookup_eq sequenceId hid] at hlookup
  exact mem_owned_of_mem hlookup hmem

theorem trans (h : Alters group memory memory') (h' : Alters group memory' memory'')
    : Alters group memory memory'' := by
  constructor
  . intro seq hseq
    rw [h'.sequences_eq seq hseq, h.sequences_eq seq hseq]
  . intro sequenceId hid
    rw [h'.lookup_eq sequenceId hid, h.lookup_eq sequenceId hid]
  . intro block hholds hown
    by_contra hnot
    exact hnot (h.holds block (h'.holds block hholds (h.mem_owned hown hnot)) hown)

theorem holds_iff_of_ne (h : Alters group memory memory') (hgrouped : memory.Grouped groups)
    (hgroup : group ∈ groups) (hgroup' : group' ∈ groups) (hne : group' ≠ group)
    {block : SyncPhysicalTokenBlock}
    : memory'.blockManager.Holds group' block ↔ memory.blockManager.Holds group' block := by
  unfold Holds
  constructor
  . rintro ⟨sequenceId, hid, blockTable, hlookup, hmem⟩
    rw [h.lookup_eq sequenceId (hgrouped.disjoint hgroup hgroup' hne hid)] at hlookup
    exact ⟨sequenceId, hid, blockTable, hlookup, hmem⟩
  . rintro ⟨sequenceId, hid, blockTable, hlookup, hmem⟩
    rw [← h.lookup_eq sequenceId (hgrouped.disjoint hgroup hgroup' hne hid)] at hlookup
    exact ⟨sequenceId, hid, blockTable, hlookup, hmem⟩

/--
An operation on the first group to come leaves the tables of the later ones.
-/
theorem holds_iff_of_subperm (h : Alters group memory memory') (hgrouped : memory.Grouped groups)
    (hsubperm : (group :: pending).Subperm groups) (hother : group' ∈ pending)
    {block : SyncPhysicalTokenBlock}
    : memory'.blockManager.Holds group' block ↔ memory.blockManager.Holds group' block := by
  unfold Holds
  constructor
  . rintro ⟨sequenceId, hid, blockTable, hlookup, hmem⟩
    rw [h.lookup_eq sequenceId (hgrouped.notMem_of_subperm hsubperm hother hid)] at hlookup
    exact ⟨sequenceId, hid, blockTable, hlookup, hmem⟩
  . rintro ⟨sequenceId, hid, blockTable, hlookup, hmem⟩
    rw [← h.lookup_eq sequenceId (hgrouped.notMem_of_subperm hsubperm hother hid)] at hlookup
    exact ⟨sequenceId, hid, blockTable, hlookup, hmem⟩

/--
An operation on one group keeps the groups apart.
-/
theorem grouped (h : Alters group memory memory') (hgrouped : memory.Grouped groups)
    (hgroup : group ∈ groups) {initial : BlockSpaceManager}
    (hrun : RunInvariant initial { memory := memory', groups }) : memory'.Grouped groups := by
  refine ⟨hrun.rebase, ?_⟩
  intro owner howner block hholds sequenceId blockTable hlookup hmem
  by_cases heq : owner = group
  . subst heq
    by_contra hid
    rw [h.lookup_eq sequenceId hid] at hlookup
    have hbefore := h.holds block hholds (mem_owned_of_mem hlookup hmem)
    exact hid (hgrouped.apart owner howner block hbefore sequenceId blockTable hlookup hmem)
  . rw [h.holds_iff_of_ne hgrouped hgroup howner heq] at hholds
    by_cases hid : sequenceId ∈ group.sequenceIds
    . exfalso
      rcases h.holds block ⟨sequenceId, hid, blockTable, hlookup, hmem⟩ hholds.mem_owned
        with ⟨id, hidGroup, table, hlookup', hmem'⟩
      have hidOwner := hgrouped.apart owner howner block hholds id table hlookup' hmem'
      exact hgrouped.disjoint hgroup howner heq hidOwner hidGroup
    . rw [h.lookup_eq sequenceId hid] at hlookup
      exact hgrouped.apart owner howner block hholds sequenceId blockTable hlookup hmem

/--
Only sequences of the group are written.
-/
theorem of_sequences {sequences : SequenceHeap}
    (h : ∀ seq, seq ∉ group.sequences → sequences seq = memory.sequences seq)
    : Alters group memory { memory with sequences } :=
  ⟨h, fun _ _ => rfl, fun _ hholds _ => hholds⟩

theorem setStatusWhere (group : SequenceGroup) (memory : Memory) (p : SequenceRef → Bool)
    (status : SequenceStatus)
    : Alters group memory {
        memory with sequences := group.setStatusWhere memory.sequences p status } := by
  apply of_sequences
  intro seq hseq
  rw [SequenceGroup.setStatusWhere_apply, if_neg fun h => hseq h.1]

end Alters

section Operations

variable (h : memory.Grouped groups) (hgroup : group ∈ groups)
include h hgroup

theorem Grouped.ignore (p : SequenceRef → Bool)
    : Grouped groups {
        memory with sequences := group.setStatusWhere memory.sequences p .finishedIgnored } :=
  (Alters.setStatusWhere group memory p .finishedIgnored).grouped h hgroup
    (h.runInvariant.ignore group p)

/--
The table of a running sequence of the group is written, with blocks of its old table and free ones.
-/
theorem Grouped.writesTable {seq : SequenceRef} {manager : BlockSpaceManager}
    {blockTable blockTable' : BlockTable} (hseq : seq ∈ group.sequences)
    (hrunning : (memory.sequences seq).sequenceStatus = .running)
    (hlookup : memory.blockManager.blockTables.lookup seq.sequenceId = some blockTable)
    (hwrites : memory.blockManager.WritesTable manager seq.sequenceId blockTable')
    (haccounted : manager.Accounted)
    (hblocks : ∀ block ∈ blockTable', block ∈ blockTable
      ∨ block.device = .gpu ∧ block ∉ memory.blockManager.owned)
    : Grouped groups { memory with blockManager := manager }
        ∧ Alters group memory { memory with blockManager := manager } := by
  have hmem : seq ∈ groups.flatMap (·.sequences) := List.mem_flatMap.mpr ⟨group, hgroup, hseq⟩
  have hid : seq.sequenceId ∈ group.sequenceIds := SequenceGroup.mem_sequenceIds hseq
  have hplaced := h.placed hgroup hseq
  rw [hrunning] at hplaced
  have halters : Alters group memory { memory with blockManager := manager } := by
    refine ⟨fun _ _ => rfl, ?_, ?_⟩
    . intro id hnot
      have hne : id ≠ seq.sequenceId := fun heq => hnot (heq ▸ hid)
      rw [hwrites.2, if_neg hne]
    . rintro block ⟨id, hid', table, hsome, hblock⟩ hown
      rw [hwrites.2] at hsome
      split at hsome
      . cases hsome
        rcases hblocks block hblock with hold | ⟨-, hnew⟩
        . exact ⟨seq.sequenceId, hid, blockTable, hlookup, hold⟩
        . exact absurd hown hnew
      . exact ⟨id, hid', table, hsome, hblock⟩
  have hgpu : ∀ block ∈ blockTable', block.device = .gpu := by
    intro block hblock
    rcases hblocks block hblock with hold | ⟨hdevice, -⟩
    . exact hplaced blockTable hlookup block hold
    . exact hdevice
  exact ⟨halters.grouped h hgroup
    (h.runInvariant.of_writesTable hmem hrunning haccounted hwrites hgpu), halters⟩

theorem Grouped.appended {seq : SequenceRef} {cow : Option (Nat × Nat)} {manager : BlockSpaceManager}
    (hseq : seq ∈ group.getSeqs memory.sequences .running)
    (happended : Appended memory.blockManager manager seq.sequenceId (memory.sequences seq) cow)
    : Grouped groups { memory with blockManager := manager }
        ∧ Alters group memory { memory with blockManager := manager } := by
  rw [SequenceGroup.mem_getSeqs] at hseq
  cases happended with
  | keep hmanager =>
    subst hmanager
    exact ⟨h, Alters.refl group memory⟩
  | push blockTable block hlookup _ hdevice hnew hwrites haccounted =>
    apply h.writesTable hgroup hseq.1 hseq.2 hlookup hwrites haccounted
    simp only [List.mem_append, List.mem_singleton]
    rintro c (hc | rfl)
    . exact .inl hc
    . exact .inr ⟨hdevice, hnew⟩
  | copy init last block hlookup _ _ _ hdevice hnew hwrites haccounted =>
    apply h.writesTable hgroup hseq.1 hseq.2 hlookup hwrites haccounted
    simp only [List.mem_append, List.mem_singleton]
    rintro c (hc | rfl)
    . exact .inl (.inl hc)
    . exact .inr ⟨hdevice, hnew⟩

theorem Grouped.appendable
    : memory.blockManager.Appendable (group.getSeqs memory.sequences .running) := by
  refine ⟨h.accounted, SequenceGroup.nodup_getSequencesIds (h.nodup hgroup), ?_⟩
  intro seq hseq blockTable hlookup
  exact h.device_eq hgroup (.inl ⟨rfl, rfl⟩) (List.mem_map_of_mem hseq) hlookup

theorem Grouped.appendSlotsOf {seqs : List SequenceRef} {pairs : List (Nat × Nat)}
    {manager : BlockSpaceManager}
    (hseqs : ∀ seq ∈ seqs, seq ∈ group.getSeqs memory.sequences .running)
    (happendable : memory.blockManager.Appendable seqs)
    (hrun : (BlockSpaceManager.appendSlotsOf memory.sequences seqs).run memory.blockManager
      = .ok pairs manager)
    : Grouped groups { memory with blockManager := manager }
        ∧ Alters group memory { memory with blockManager := manager } := by
  induction seqs generalizing memory pairs with
  | nil =>
    cases hrun
    exact ⟨h, Alters.refl group memory⟩
  | cons seq seqs ih =>
    rcases appendSlotsOf_cons happendable hrun with ⟨cow, next, cows, happended, hnext, hrest, -⟩
    rcases h.appended hgroup (hseqs seq List.mem_cons_self) happended with ⟨hgrouped, halters⟩
    have ⟨hgrouped', halters'⟩ := ih hgrouped
      (fun other hother => hseqs other (List.mem_cons_of_mem _ hother)) hnext hrest
    exact ⟨hgrouped', halters.trans halters'⟩

/--
The tables of the sequences with status `before` are moved, and the sequences get the status `after`.
-/
theorem Grouped.swapped {source target : BlockDevice} {before after : SequenceStatus}
    {numbers : BlockMapping} {mapping : SwapMapping}
    (hswapped : Memory.Swapped source target (group.getSequencesIds memory.sequences before)
      memory.blockManager memory'.blockManager numbers mapping)
    (hheap : ∀ sequence, memory'.sequences sequence
        =
      if sequence ∈ group.getSeqs memory.sequences before then
        (memory.sequences sequence).setSequenceStatus after
      else memory.sequences sequence)
    (hafter : ∀ (manager : BlockSpaceManager) (sequenceId : Nat),
      (∀ blockTable, manager.blockTables.lookup sequenceId = some blockTable →
        ∀ block ∈ blockTable, block.device = target) → manager.Placed sequenceId after)
    : Grouped groups memory' ∧ Alters group memory memory' := by
  have hsubset : ∀ id, id ∈ group.getSequencesIds memory.sequences before →
      id ∈ group.sequenceIds := by
    intro id hid
    rcases List.mem_map.mp hid with ⟨seq, hseq, rfl⟩
    exact SequenceGroup.mem_sequenceIds (SequenceGroup.mem_getSeqs.mp hseq).1
  have halters : Alters group memory memory' := by
    refine ⟨?_, ?_, ?_⟩
    . intro seq hseq
      rw [hheap, if_neg fun hmem => hseq (SequenceGroup.mem_getSeqs.mp hmem).1]
    . intro id hid
      exact hswapped.lookup_of_notMem id fun hmem => hid (hsubset id hmem)
    . rintro block ⟨id, hid, blockTable, hlookup, hblock⟩ hown
      by_cases hmem : id ∈ group.getSequencesIds memory.sequences before
      . exfalso
        -- the blocks of a table that was moved are new
        have hrel := hswapped.lookup_of_mem id hmem
        rw [hlookup] at hrel
        generalize memory.blockManager.blockTables.lookup id = old at hrel
        cases hrel with
        | some hsends =>
          rcases hsends.exists_of_mem_right hblock with ⟨c, -, hsend⟩
          exact hswapped.valid.notMem_before _ _ hsend hown
      . rw [hswapped.lookup_of_notMem id hmem] at hlookup
        exact ⟨id, hid, blockTable, hlookup, hblock⟩
  exact ⟨halters.grouped h hgroup (h.runInvariant.of_swapped hgroup hswapped hheap hafter), halters⟩

theorem Grouped.allocated
    (hcan : memory.blockManager.canAllocate group memory.sequences = .ok)
    : let memory' : Memory := {
        sequences := group.setStatusWhere memory.sequences
          (fun seq => (memory.sequences seq).sequenceStatus = .waiting) .running
        blockManager :=
          (BlockSpaceManager.allocate group memory.sequences).finalState memory.blockManager }
      Grouped groups memory' ∧ Alters group memory memory' := by
  have hnone : ∀ id ∈ group.getSequencesIds memory.sequences .waiting,
      memory.blockManager.blockTables.lookup id = none := by
    intro id hid
    rcases List.mem_map.mp hid with ⟨seq, hseq, rfl⟩
    rw [SequenceGroup.mem_getSeqs] at hseq
    have hplaced := h.placed hgroup hseq.1
    rwa [hseq.2] at hplaced
  have hyields := allocate_yields h.accounted (SequenceGroup.nodup_getSequencesIds (h.nodup hgroup))
    hnone hcan
  rcases hyields.finalState with ⟨-, _, blockTable, -, -, -, hnew, -, hlookup, -⟩
  have halters : Alters group memory {
      memory with
      blockManager :=
        (BlockSpaceManager.allocate group memory.sequences).finalState memory.blockManager } := by
    refine ⟨fun _ _ => rfl, ?_, ?_⟩
    . intro id hid
      rw [hlookup, if_neg]
      intro hwaiting
      rcases List.mem_map.mp hwaiting with ⟨seq, hseq, rfl⟩
      exact hid (SequenceGroup.mem_sequenceIds (SequenceGroup.mem_getSeqs.mp hseq).1)
    . rintro block ⟨id, hid, table, hsome, hblock⟩ hown
      rw [hlookup] at hsome
      split at hsome
      . cases hsome
        exact absurd hown (hnew block hblock).2
      . exact ⟨id, hid, table, hsome, hblock⟩
  have halters' := halters.trans (Alters.setStatusWhere group _
    (fun seq => (memory.sequences seq).sequenceStatus = .waiting) .running)
  exact ⟨halters'.grouped h hgroup (h.runInvariant.allocate hgroup hnone hcan), halters'⟩

end Operations

end Memory

namespace Scheduler

open BlockSpaceManager EStateM

variable {scheduler scheduler' : Scheduler} {groups : List SequenceGroup} {group : SequenceGroup}
variable (h : scheduler.memory.Grouped groups) (hgroup : group ∈ groups)

theorem setStatuses_eq_self_of_forall {before after : SequenceStatus}
    (hstatus : ∀ seq ∈ group.sequences,
      (scheduler.memory.sequences seq).sequenceStatus ≠ before)
    : scheduler.setStatuses group before after = scheduler := by
  unfold setStatuses
  rw [SequenceGroup.setStatusWhere_eq_self]
  intro seq hseq
  simpa using hstatus seq hseq

/--
The calls of `append_slots` that the scheduler makes for a group. Their results are inserted into
the map one after the other.
-/
theorem appendSlots_eq_foldl {blocksToCopy blocksToCopy' : BlockMapping}
    (happend : scheduler.appendSlots group blocksToCopy = .ok (blocksToCopy', scheduler'))
    : ∃ pairs manager,
        (appendSlotsOf scheduler.memory.sequences
            (group.getSeqs scheduler.memory.sequences .running)).run scheduler.memory.blockManager
              = .ok pairs manager
          ∧ blocksToCopy' = blocksToCopy.insertAll pairs
          ∧ scheduler' = { scheduler with memory.blockManager := manager } := by
  unfold appendSlots at happend
  dsimp only at happend
  generalize group.getSeqs scheduler.memory.sequences .running = seqs at *
  generalize hheap : scheduler.memory.sequences = heap at *
  induction seqs generalizing scheduler blocksToCopy with
  | nil =>
    cases happend
    exact ⟨[], _, rfl, rfl, rfl⟩
  | cons seq seqs ih =>
    rw [List.foldlM_cons] at happend
    rcases Except.bind_eq_ok.mp happend with ⟨⟨blocks, next⟩, hseq, hrest⟩
    rcases Except.bind_eq_ok.mp hseq with ⟨⟨cow, next'⟩, honMemory, hinsert⟩
    rcases onBlockManager_eq_ok honMemory with ⟨manager, hrun, rfl⟩
    have hnext : blocks = blocksToCopy.insertAll cow.toList
        ∧ next = { scheduler with memory.blockManager := manager } := by
      cases cow with
      | none =>
        cases hinsert
        exact ⟨rfl, rfl⟩
      | some pair =>
        cases hinsert
        exact ⟨rfl, rfl⟩
    rcases hnext with ⟨rfl, rfl⟩
    have hheap' : ({ scheduler with memory.blockManager := manager } : Scheduler).memory.sequences
        = heap := hheap
    rcases ih hheap' hrest with ⟨pairs, manager', hrun', rfl, rfl⟩
    refine ⟨cow.toList ++ pairs, manager', ?_, ?_, rfl⟩
    . simp only [appendSlotsOf, bind_run_eq_ok]
      exact ⟨cow, manager, hrun, pairs, manager', hrun', rfl⟩
    . exact (List.foldl_append ..).symm

include h hgroup

theorem grouped_of_appendSlots {blocksToCopy blocksToCopy' : BlockMapping}
    (happend : scheduler.appendSlots group blocksToCopy = .ok (blocksToCopy', scheduler'))
    : scheduler'.memory.Grouped groups
        ∧ Memory.Alters group scheduler.memory scheduler'.memory := by
  rcases appendSlots_eq_foldl happend with ⟨pairs, manager, hrun, -, rfl⟩
  exact h.appendSlotsOf hgroup (fun _ hseq => hseq) (h.appendable hgroup) hrun

theorem grouped_of_swapOut {blocks blocks' : BlockMapping}
    (hswap : scheduler.swapOut group blocks = .ok (blocks', scheduler'))
    : scheduler'.memory.Grouped groups
        ∧ Memory.Alters group scheduler.memory scheduler'.memory
        ∧ ∃ numbers mapping,
            Memory.Swapped .gpu .cpu (group.getSequencesIds scheduler.memory.sequences .running)
                scheduler.memory.blockManager scheduler'.memory.blockManager numbers mapping
              ∧ blocks' = numbers ∪ blocks
              ∧ ∀ seq, scheduler'.memory.sequences seq
                  =
                if seq ∈ group.getSeqs scheduler.memory.sequences .running then
                  (scheduler.memory.sequences seq).setSequenceStatus .swapped
                else scheduler.memory.sequences seq := by
  simp only [swapOut] at hswap
  split at hswap
  . cases hswap
  . next hcan =>
    rcases Except.bind_eq_ok.mp hswap with ⟨⟨numbers, next⟩, honMemory, hpure⟩
    rcases onMemory_eq_ok honMemory with ⟨memory, hrun, rfl⟩
    cases hpure
    rcases Memory.swapOut_yields h.accounted (h.nodup hgroup)
        (fun id hid blockTable hlookup => h.device_eq hgroup (.inl ⟨rfl, rfl⟩) hid hlookup)
        (by simpa using hcan)
      with ⟨_, _, hrun', mapping, hswapped, hheap⟩
    rw [hrun] at hrun'
    cases hrun'
    rw [setStatuses_eq_self_of_forall]
    . rcases h.swapped hgroup hswapped hheap fun _ _ hdevice => hdevice with ⟨hgrouped, halters⟩
      exact ⟨hgrouped, halters, numbers, mapping, hswapped, rfl, hheap⟩
    . intro seq hseq
      rw [hheap]
      split
      . simp [Sequence.setSequenceStatus]
      . next hnot => exact fun hrunning => hnot (SequenceGroup.mem_getSeqs.mpr ⟨hseq, hrunning⟩)

theorem grouped_of_swapIn {blocks blocks' : BlockMapping}
    (hcan : scheduler.memory.blockManager.canSwapIn group scheduler.memory.sequences = .ok)
    (hswap : scheduler.swapIn group blocks = .ok (blocks', scheduler'))
    : scheduler'.memory.Grouped groups
        ∧ Memory.Alters group scheduler.memory scheduler'.memory
        ∧ ∃ numbers mapping,
            Memory.Swapped .cpu .gpu (group.getSequencesIds scheduler.memory.sequences .swapped)
                scheduler.memory.blockManager scheduler'.memory.blockManager numbers mapping
              ∧ blocks' = numbers ∪ blocks := by
  rcases Except.bind_eq_ok.mp hswap with ⟨⟨numbers, next⟩, honMemory, hpure⟩
  rcases onMemory_eq_ok honMemory with ⟨memory, hrun, rfl⟩
  cases hpure
  rcases Memory.swapIn_yields h.accounted (h.nodup hgroup)
      (fun id hid blockTable hlookup => h.device_eq hgroup (.inr ⟨rfl, rfl⟩) hid hlookup) hcan
    with ⟨_, _, hrun', mapping, hswapped, hheap⟩
  rw [hrun] at hrun'
  cases hrun'
  rw [setStatuses_eq_self_of_forall]
  . rcases h.swapped hgroup hswapped hheap fun _ _ hdevice => hdevice with ⟨hgrouped, halters⟩
    exact ⟨hgrouped, halters, numbers, mapping, hswapped, rfl⟩
  . intro seq hseq
    rw [hheap]
    split
    . simp [Sequence.setSequenceStatus]
    . next hnot => exact fun hrunning => hnot (SequenceGroup.mem_getSeqs.mpr ⟨hseq, hrunning⟩)

theorem grouped_of_preemptByRecompute
    (hrecompute : scheduler.preemptByRecompute group = .ok scheduler')
    : scheduler'.memory.Grouped groups
        ∧ Memory.Alters group scheduler.memory scheduler'.memory := by
  rcases preemptByRecompute_eq_ok hrecompute with ⟨seq, manager, hseqs, hrun, rfl⟩
  have hseq : seq ∈ group.getSeqs scheduler.memory.sequences .running := by
    rw [hseqs]
    exact List.mem_singleton_self seq
  have hmem := (SequenceGroup.mem_getSeqs.mp hseq).1
  rcases free_yields h.accounted seq.sequenceId
    with ⟨_, _, hrun', -, hlookup, -⟩
  have hinvariant := h.runInvariant.free seq.sequenceId
  unfold RunState.manager finalState at hinvariant
  rw [hrun] at hrun' hinvariant
  cases hrun'
  have halters : Memory.Alters group scheduler.memory
      { scheduler.memory with blockManager := manager } := by
    refine ⟨fun _ _ => rfl, ?_, ?_⟩
    . intro id hid
      have hne : id ≠ seq.sequenceId := fun heq => hid (heq ▸ SequenceGroup.mem_sequenceIds hmem)
      rw [hlookup, if_neg hne]
    . rintro block ⟨id, hid, blockTable, hsome, hblock⟩ -
      rw [hlookup] at hsome
      split at hsome
      . cases hsome
      . exact ⟨id, hid, blockTable, hsome, hblock⟩
  have hgrouped := halters.grouped h hgroup hinvariant
  have halters' : Memory.Alters group { scheduler.memory with blockManager := manager } {
      sequences := Function.update scheduler.memory.sequences seq
        ((scheduler.memory.sequences seq).setSequenceStatus .waiting).resetStateForRecompute
      blockManager := manager } := by
    apply Memory.Alters.of_sequences
    intro other hother
    have hne : other ≠ seq := fun heq => hother (heq ▸ hmem)
    exact Function.update_of_ne hne _ _
  refine ⟨halters'.grouped hgrouped hgroup (hgrouped.runInvariant.update_of_lookup_eq_none ?_),
    halters.trans halters'⟩
  change manager.blockTables.lookup seq.sequenceId = none
  rw [hlookup, if_pos rfl]

theorem grouped_of_allocateAndSetRunning
    (hcan : scheduler.memory.blockManager.canAllocate group scheduler.memory.sequences = .ok)
    (hallocate : scheduler.allocateAndSetRunning group = .ok scheduler')
    : scheduler'.memory.Grouped groups
        ∧ Memory.Alters group scheduler.memory scheduler'.memory := by
  rcases Except.bind_eq_ok.mp hallocate with ⟨⟨_, next⟩, honMemory, hpure⟩
  rcases onBlockManager_eq_ok honMemory with ⟨manager, hrun, rfl⟩
  cases hpure
  have hallocated := h.allocated hgroup hcan
  unfold finalState at hallocated
  rw [hrun] at hallocated
  exact hallocated

end Scheduler

namespace Memory

variable {groups pending pending' : List SequenceGroup} {group : SequenceGroup}
variable {memory memory' : Memory} {block : SyncPhysicalTokenBlock}

/--
`block` is in a table, but not in one of the groups that are still to come.
-/
def Settled (memory : Memory) (pending : List SequenceGroup) (block : SyncPhysicalTokenBlock) : Prop :=
  block ∈ memory.blockManager.owned ∧ ∀ group ∈ pending, ¬ memory.blockManager.Holds group block

theorem Settled.mono (h : memory.Settled pending block) (hsubset : ∀ group ∈ pending', group ∈ pending)
    : memory.Settled pending' block :=
  ⟨h.1, fun group hgroup => h.2 group (hsubset group hgroup)⟩

theorem Settled.alters (h : memory.Settled pending block) (hgroup : group ∈ pending)
    (halters : Alters group memory memory') (hgrouped : memory.Grouped groups)
    (hsubset : ∀ group ∈ pending, group ∈ groups) : memory'.Settled pending block := by
  refine ⟨halters.mem_owned h.1 (h.2 group hgroup), ?_⟩
  intro other hother hholds
  by_cases heq : other = group
  . subst heq
    exact h.2 other hother (halters.holds block hholds h.1)
  . rw [halters.holds_iff_of_ne hgrouped (hsubset group hgroup) (hsubset other hother) heq] at hholds
    exact h.2 other hother hholds

end Memory

namespace Scheduler

variable {groups : List SequenceGroup} {enableChunking : Bool}

/--
The groups that `schedule_running` has not dealt with.
-/
def RunningVars.pending (vars : RunningVars) : List SequenceGroup :=
  (vars.current.map (·.1)).toList ++ vars.runningQueue

namespace RunningVars

variable {vars vars' : RunningVars} {group : SequenceGroup}

theorem mem_pending_of_current {numRunningTokens : Nat}
    (h : vars.current = some (group, numRunningTokens)) : group ∈ vars.pending := by
  simp [pending, h]

theorem grouped_of_preempt (h : vars.preempt group = .ok vars')
    (hgrouped : vars.scheduler.memory.Grouped groups) (hgroup : group ∈ groups)
    : vars'.scheduler.memory.Grouped groups
        ∧ Memory.Alters group vars.scheduler.memory vars'.scheduler.memory := by
  have hcounted : vars.scheduler.countPreemption.memory.Grouped groups := hgrouped
  rcases preempt_eq_ok h with ⟨-, scheduler, hrecompute, rfl⟩ | ⟨-, blocks, scheduler, hswap, rfl⟩
  . have hrecomputed := grouped_of_preemptByRecompute hcounted hgroup hrecompute
    exact hrecomputed
  . have hswapped := grouped_of_swapOut hcounted hgroup hswap
    exact ⟨hswapped.1, hswapped.2.1⟩

theorem Next.pending_sublist (h : Next enableChunking vars vars')
    : vars'.pending.Sublist vars.pending := by
  cases h with
  | take group runningQueue numRunningTokens hcurrent hqueue =>
    simp [pending, hcurrent, hqueue]
  | preemptVictim group victim runningQueue _ _ _ _ hcurrent _ _ _ hqueue =>
    simp only [pending, hqueue]
    rw [← List.append_assoc]
    exact List.sublist_append_left _ _
  | preemptSelf => exact List.nil_sublist _
  | schedule group numRunningTokens vars' hcurrent =>
    exact List.sublist_append_right _ _

/--
An iteration deals with one of the groups that are still to come.
-/
theorem Next.alters (h : Next enableChunking vars vars')
    (hgrouped : vars.scheduler.memory.Grouped groups) (hpending : ∀ group ∈ vars.pending, group ∈ groups)
    : ∃ group ∈ vars.pending,
        vars'.scheduler.memory.Grouped groups
          ∧ Memory.Alters group vars.scheduler.memory vars'.scheduler.memory := by
  cases h with
  | take group runningQueue numRunningTokens hcurrent hqueue =>
    refine ⟨group, ?_, hgrouped, Memory.Alters.refl _ _⟩
    simp [pending, hqueue]
  | preemptVictim group victim runningQueue _ _ _ _ hcurrent _ _ _ hqueue hpreempt =>
    have hvictim : victim ∈ vars.pending := by simp [pending, hqueue]
    have hafter := grouped_of_preempt hpreempt hgrouped (hpending victim hvictim)
    exact ⟨victim, hvictim, hafter⟩
  | preemptSelf group _ _ _ _ hcurrent _ _ _ _ hpreempt =>
    have hgroup := mem_pending_of_current hcurrent
    have hafter := grouped_of_preempt hpreempt hgrouped (hpending group hgroup)
    exact ⟨group, hgroup, hafter⟩
  | schedule group numRunningTokens _ hcurrent _ hschedule =>
    have hgroup := mem_pending_of_current hcurrent
    rcases schedule_eq_ok hschedule with ⟨blocksToCopy, scheduler, happend, rfl⟩
    exact ⟨group, hgroup, grouped_of_appendSlots hgrouped (hpending group hgroup) happend⟩

end RunningVars

namespace SwappedVars

variable {vars vars' : SwappedVars}

theorem Next.queue_sublist (h : Next enableChunking vars vars')
    : vars'.swappedQueue.Sublist vars.swappedQueue := by
  cases h with
  | ignore group swappedQueue hqueue =>
    rw [hqueue]
    exact List.sublist_cons_self _ _
  | schedule group swappedQueue _ _ hqueue =>
    rw [hqueue]
    exact List.sublist_cons_self _ _

theorem Next.alters (h : Next enableChunking vars vars')
    (hgrouped : vars.scheduler.memory.Grouped groups)
    (hqueue : ∀ group ∈ vars.swappedQueue, group ∈ groups)
    : ∃ group ∈ vars.swappedQueue,
        vars'.scheduler.memory.Grouped groups
          ∧ Memory.Alters group vars.scheduler.memory vars'.scheduler.memory := by
  cases h with
  | ignore group swappedQueue heq =>
    have hgroup : group ∈ vars.swappedQueue := by simp [heq]
    exact ⟨group, hgroup, hgrouped.ignore (hqueue group hgroup) _,
      Memory.Alters.setStatusWhere group vars.scheduler.memory _ _⟩
  | schedule group swappedQueue _ _ heq hcan _ _ hschedule =>
    have hgroup : group ∈ vars.swappedQueue := by simp [heq]
    rcases schedule_eq_ok hschedule with ⟨_, _, scheduler, scheduler', hswap, happend, rfl⟩
    rcases grouped_of_swapIn hgrouped (hqueue group hgroup) hcan hswap
      with ⟨hgrouped', halters, -⟩
    rcases grouped_of_appendSlots hgrouped' (hqueue group hgroup) happend
      with ⟨hgrouped'', halters'⟩
    exact ⟨group, hgroup, hgrouped'', halters.trans halters'⟩

end SwappedVars

namespace PrefillVars

variable {vars vars' : PrefillVars} {now : Nat → Nat}

theorem Next.grouped (h : Next enableChunking now vars vars')
    (hgrouped : vars.scheduler.memory.Grouped groups)
    (hqueue : ∀ group ∈ vars.waitingQueue, group ∈ groups)
    : vars'.scheduler.memory.Grouped groups := by
  have henter : (vars.enter now).scheduler.memory.Grouped groups := by
    rw [memory_enter]
    exact hgrouped
  cases h with
  | ignoreTooLong group waitingQueue _ heq =>
    exact henter.ignore (hqueue group (by simp [heq])) _
  | ignoreNever group waitingQueue _ heq =>
    exact henter.ignore (hqueue group (by simp [heq])) _
  | schedule group waitingQueue _ _ heq _ _ _ hcan _ hschedule =>
    rcases schedule_eq_ok hschedule with ⟨scheduler, hallocate, rfl⟩
    exact (grouped_of_allocateAndSetRunning henter (hqueue group (by simp [heq])) hcan hallocate).1

end PrefillVars

/--
The groups of the queues are among those that have been received, and these share blocks only within
one group.
-/
def Grouped (scheduler : Scheduler) : Prop :=
  ∃ groups, scheduler.groups.Subperm groups ∧ scheduler.memory.Grouped groups

theorem PolicyVars.grouped_of_schedulePrefills {vars vars' : PolicyVars} {instants : Instants}
    (h : vars.schedulePrefills enableChunking instants = .ok vars')
    (hgrouped : vars.scheduler.memory.Grouped groups)
    (hqueue : ∀ group ∈ vars.remainingWaiting, group ∈ groups)
    : vars'.scheduler.memory.Grouped groups := by
  simp only [PolicyVars.schedulePrefills, Scheduler.schedulePrefills, Except.bind_eq_ok] at h
  rcases h with ⟨prefills, ⟨last, hrun, hlast⟩, hpure⟩
  have hlastGrouped : last.scheduler.memory.Grouped groups := by
    refine (prefillLoop enableChunking instants.prefills).run_invariant
      (I := fun current => current.scheduler.memory.Grouped groups
        ∧ ∀ group ∈ current.waitingQueue, group ∈ groups)
      (Q := fun current => current.scheduler.memory.Grouped groups) ?_ ?_ ⟨hgrouped, hqueue⟩ hrun
    . rintro current next ⟨hcurrent, hmem⟩ hnext
      have hnext := PrefillVars.next_of_step hnext
      exact ⟨hnext.grouped hcurrent hmem,
        fun group hgroup => hmem group (hnext.suffix.subset hgroup)⟩
    . rintro current final ⟨hcurrent, -⟩ hdone
      rcases PrefillVars.of_step_eq_inr hdone with rfl | rfl | rfl
      . exact hcurrent
      . rw [PrefillVars.memory_enter]
        exact hcurrent
      . have hmemory : (current.enter instants.prefills).scheduler.memory = current.scheduler.memory :=
          PrefillVars.memory_enter instants.prefills
        exact hmemory ▸ hcurrent
  cases hpure
  split at hlast <;> cases hlast <;> exact hlastGrouped

theorem grouped_of_beforeRunning {scheduler : Scheduler} {instants : Instants} {before : PolicyVars}
    (h : scheduler.beforeRunning instants = .ok before) (hgrouped : scheduler.memory.Grouped groups)
    (hsubperm : scheduler.groups.Subperm groups)
    : before.scheduler.memory.Grouped groups
        ∧ before.remainingRunning = scheduler.running
        ∧ before.remainingSwapped = scheduler.swapped := by
  unfold beforeRunning at h
  split at h
  . cases h
    exact ⟨hgrouped, rfl, rfl⟩
  . dsimp only at h
    split at h
    . have hkeeps := PolicyVars.keeps_of_schedulePrefills h
      refine ⟨PolicyVars.grouped_of_schedulePrefills h hgrouped ?_, hkeeps.2.2.1, hkeeps.2.2.2⟩
      intro group hgroup
      apply hsubperm.subset
      exact List.mem_append_left _ (List.mem_append_left _ hgroup)
    . cases h
      exact ⟨hgrouped, rfl, rfl⟩

end Scheduler

end AtomaInfer
