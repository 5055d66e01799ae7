import AtomaInfer.BlockManager.Run
import AtomaInfer.Util.Copying

/-!
What swapping does to the contents of the blocks. The operations of a scheduling pass only write the
tables. The copies that its swaps ask for are executed at its end, and between the passes blocks of
other groups may be written.
-/

namespace AtomaInfer

namespace BlockSpaceManager

open EStateM

/--
Copies between blocks, from sources to destinations.
-/
abbrev Copies := List (SyncPhysicalTokenBlock × SyncPhysicalTokenBlock)

inductive SwapDirection where
  | swapOut
  | swapIn

namespace SwapDirection

variable (direction : SwapDirection)

def source : BlockDevice :=
  match direction with
  | swapOut => .gpu
  | swapIn => .cpu

def target : BlockDevice :=
  match direction with
  | swapOut => .cpu
  | swapIn => .gpu

/--
The status of the sequences that are swapped.
-/
def before : SequenceStatus :=
  match direction with
  | swapOut => .running
  | swapIn => .swapped

def after : SequenceStatus :=
  match direction with
  | swapOut => .swapped
  | swapIn => .running

def Guard (group : SequenceGroup) (memory : Memory) : Prop :=
  match direction with
  | swapOut => memory.blockManager.canSwapOut group memory.sequences = true
  | swapIn => memory.blockManager.canSwapIn group memory.sequences = .ok

def swap (group : SequenceGroup) : Memory.MemoryM (AList fun _ : Nat => Nat) :=
  match direction with
  | swapOut => Memory.swapOut group
  | swapIn => Memory.swapIn group

/--
The copies that the mapping of a swap stands for.
-/
def copies (numbers : AList fun _ : Nat => Nat) : Copies :=
  numbers.entries.map fun entry => (⟨direction.source, entry.1⟩, ⟨direction.target, entry.2⟩)

theorem source_ne_target : direction.source ≠ direction.target := by
  cases direction <;> decide

end SwapDirection

/--
The steps of a run that are operations on other groups. A token may be appended to any sequence.
-/
inductive Step.Avoids (group : SequenceGroup)
    : ∀ {state state' : RunState}, Step state state' → Prop where
  | arrive {state other heap hfresh hwaiting hheap}
    : Avoids group (.arrive state other heap hfresh hwaiting hheap)
  | edit {state sequence value hstatus}
    : Avoids group (.edit state sequence value hstatus)
  | finish {state sequence status hstatus} (hsequence : sequence ∉ group.sequences)
    : Avoids group (.finish state sequence status hstatus)
  | allocate {state other hother hnone hcan} (hne : group ≠ other)
    : Avoids group (.allocate state other hother hnone hcan)
  | appendSlots {state other sequence hother hsequence hrunning hcan} (hne : group ≠ other)
    : Avoids group (.appendSlots state other sequence hother hsequence hrunning hcan)
  | fork {state before after other sequences parent child value hgroups hparent hrunning hfresh hvalue
      hsequences} (hne : group ≠ other)
    : Avoids group (.fork state before after other sequences parent child value hgroups hparent
        hrunning hfresh hvalue hsequences)
  | swapOut {state other hother hcan} (hne : group ≠ other)
    : Avoids group (.swapOut state other hother hcan)
  | swapIn {state other hother hcan} (hne : group ≠ other)
    : Avoids group (.swapIn state other hother hcan)
  | free {state sequenceId} (hid : sequenceId ∉ group.sequenceIds)
    : Avoids group (.free state sequenceId)

/--
Operations of a pass on other groups, and the copies that they ask for. The copies of one swap are in
any order.
-/
inductive Pass (group : SequenceGroup) (state : RunState) : Copies → RunState → Prop where
  | start : Pass group state [] state
  | step {copies : Copies} {between state' : RunState} {hstep : Step between state'}
      (hpass : Pass group state copies between) (havoids : hstep.Avoids group)
    : Pass group state copies state'
  | swap {direction : SwapDirection} {copies moved : Copies} {between : RunState}
      {other : SequenceGroup} {numbers : AList fun _ : Nat => Nat} {memory : Memory}
      (hpass : Pass group state copies between) (hother : other ∈ between.groups)
      (hne : group ≠ other) (hguard : direction.Guard other between.memory)
      (hswap : (direction.swap other).run between.memory = .ok numbers memory)
      (hmoved : moved.Perm (direction.copies numbers))
    : Pass group state (copies ++ moved) { between with memory }

/--
A pass in which `group` is swapped under its guard, between operations on other groups. The swap
returns the mapping `numbers`.
-/
def SwapPass (direction : SwapDirection) (group : SequenceGroup) (state : RunState) (copies : Copies)
    (state' : RunState) (numbers : AList fun _ : Nat => Nat) : Prop :=
  ∃ between memory copies₁ moved copies₂,
    Pass group state copies₁ between
      ∧ direction.Guard group between.memory
      ∧ (direction.swap group).run between.memory = .ok numbers memory
      ∧ moved.Perm (direction.copies numbers)
      ∧ Pass group { between with memory } copies₂ state'
      ∧ copies = copies₁ ++ moved ++ copies₂

/--
The copies of a pass are executed in the order of the operations, or in any order when they do not
depend on each other.
-/
def Executes (order copies : Copies) : Prop :=
  order.Perm copies ∧ (order = copies ∨ Copying.Separate copies)

/--
What may happen while `group` waits: an operation on other groups, a pass on other groups with its
copies, or that blocks of others are written.
-/
inductive Waits {γ : Type} (group : SequenceGroup)
    : RunState × (SyncPhysicalTokenBlock → γ) → RunState × (SyncPhysicalTokenBlock → γ) → Prop where
  | step {state state' : RunState} {contents : SyncPhysicalTokenBlock → γ}
      {hstep : Step state state'} (havoids : hstep.Avoids group)
    : Waits group (state, contents) (state', contents)
  | pass {state state' : RunState} {contents : SyncPhysicalTokenBlock → γ} {copies order : Copies}
      (hpass : Pass group state copies state') (horder : order.Perm copies)
    : Waits group (state, contents) (state', Copying.execute order contents)
  | write {state : RunState} {contents contents' : SyncPhysicalTokenBlock → γ}
      (hcontents : ∀ block, state.manager.Holds group block → contents' block = contents block)
    : Waits group (state, contents) (state, contents')

/--
The group is still there, and its sequences keep their statuses and their tables.
-/
structure RunState.Spares (group : SequenceGroup) (state state' : RunState) : Prop where
  mem_groups : group ∈ state'.groups
  status_eq : ∀ seq ∈ group.sequences,
    (state'.heap seq).sequenceStatus = (state.heap seq).sequenceStatus
  lookup_eq : ∀ sequenceId ∈ group.sequenceIds,
    state'.manager.blockTables.lookup sequenceId = state.manager.blockTables.lookup sequenceId

namespace RunState.Spares

variable {group : SequenceGroup} {state state' state'' : RunState}

theorem refl (hgroup : group ∈ state.groups) : state.Spares group state :=
  ⟨hgroup, fun _ _ => rfl, fun _ _ => rfl⟩

theorem trans (h : state.Spares group state') (h' : state'.Spares group state'')
    : state.Spares group state'' := by
  refine ⟨h'.mem_groups, ?_, ?_⟩
  . intro seq hseq
    rw [h'.status_eq seq hseq, h.status_eq seq hseq]
  . intro sequenceId hid
    rw [h'.lookup_eq sequenceId hid, h.lookup_eq sequenceId hid]

theorem holds {block : SyncPhysicalTokenBlock} (h : state.Spares group state')
    (hholds : state.manager.Holds group block) : state'.manager.Holds group block := by
  rcases hholds with ⟨sequenceId, hid, blockTable, hlookup, hmem⟩
  rw [← h.lookup_eq sequenceId hid] at hlookup
  exact ⟨sequenceId, hid, blockTable, hlookup, hmem⟩

end RunState.Spares

section Others

variable {initial : BlockSpaceManager} {state state' : RunState} {group other : SequenceGroup}
variable {memory : Memory} {numbers : AList fun _ : Nat => Nat} {direction : SwapDirection}
variable (h : RunInvariant initial state)
include h

variable (direction) in
/--
What a swap under its guard does.
-/
theorem SwapDirection.swap_yields (hother : other ∈ state.groups)
    (hguard : direction.Guard other state.memory)
    : Yields (direction.swap other) state.memory fun numbers memory =>
        ∃ mapping,
          Memory.Swapped direction.source direction.target
              (other.getSequencesIds state.heap direction.before) state.manager
              memory.blockManager numbers mapping
            ∧ (∀ sequence, memory.sequences sequence
                =
              if sequence ∈ other.getSeqs state.heap direction.before then
                (state.heap sequence).setSequenceStatus direction.after
              else state.heap sequence)
            ∧ RunInvariant initial { state with memory } := by
  have hdevice : ∀ sequenceId ∈ other.getSequencesIds state.heap direction.before, ∀ blockTable,
      state.manager.blockTables.lookup sequenceId = some blockTable →
        ∀ block ∈ blockTable, block.device = direction.source := by
    intro sequenceId hid
    rcases List.mem_map.mp hid with ⟨sequence, hsequence, rfl⟩
    rw [SequenceGroup.mem_getSeqs] at hsequence
    have := h.placed sequence (RunInvariant.mem_sequences_of_mem hother hsequence.1)
    rw [hsequence.2] at this
    cases direction with
    | swapOut => exact this
    | swapIn => exact this
  cases direction with
  | swapOut =>
    apply (Memory.swapOut_yields h.accounted (h.nodup_group hother) hdevice hguard).mono
    rintro numbers memory ⟨mapping, hswapped, hheap⟩
    exact ⟨mapping, hswapped, hheap, h.of_swapped hother hswapped hheap fun _ _ hdevice => hdevice⟩
  | swapIn =>
    apply (Memory.swapIn_yields h.accounted (h.nodup_group hother) hdevice hguard).mono
    rintro numbers memory ⟨mapping, hswapped, hheap⟩
    exact ⟨mapping, hswapped, hheap, h.of_swapped hother hswapped hheap fun _ _ hdevice => hdevice⟩

theorem notMem_sequenceIds (hgroup : group ∈ state.groups) (hother : other ∈ state.groups)
    (hne : group ≠ other) {status : SequenceStatus} {heap : SequenceHeap} {sequenceId : Nat}
    (hid : sequenceId ∈ group.sequenceIds) : sequenceId ∉ other.getSequencesIds heap status := by
  intro hmem
  rcases List.mem_map.mp hmem with ⟨seq, hseq, rfl⟩
  have := SequenceGroup.mem_sequenceIds (SequenceGroup.mem_getSeqs.mp hseq).1
  exact h.disjoint hother hgroup hne hid this

theorem notMem_sequences (hgroup : group ∈ state.groups) (hother : other ∈ state.groups)
    (hne : group ≠ other) {seq : SequenceRef} (hseq : seq ∈ group.sequences)
    : seq ∉ other.sequences := by
  intro hmem
  exact h.disjoint hother hgroup hne (SequenceGroup.mem_sequenceIds hseq)
    (SequenceGroup.mem_sequenceIds hmem)

theorem spares_of_swapped (hgroup : group ∈ state.groups) (hother : other ∈ state.groups)
    (hne : group ≠ other) {source target : BlockDevice} {before after : SequenceStatus}
    {mapping : SwapMapping}
    (hswapped : Memory.Swapped source target (other.getSequencesIds state.heap before)
      state.manager memory.blockManager numbers mapping)
    (hheap : ∀ sequence, memory.sequences sequence
        =
      if sequence ∈ other.getSeqs state.heap before then
        (state.heap sequence).setSequenceStatus after
      else state.heap sequence)
    : state.Spares group { state with memory } := by
  refine ⟨hgroup, ?_, ?_⟩
  . intro seq hseq
    have hnot : seq ∉ other.getSeqs state.heap before := fun hmem =>
      notMem_sequences h hgroup hother hne hseq (SequenceGroup.mem_getSeqs.mp hmem).1
    change (memory.sequences seq).sequenceStatus = _
    rw [hheap, if_neg hnot]
  . intro sequenceId hid
    exact hswapped.lookup_of_notMem sequenceId (notMem_sequenceIds h hgroup hother hne hid)

/--
An operation on other groups spares the group.
-/
theorem Step.Avoids.spares {hstep : Step state state'} (havoids : hstep.Avoids group)
    (hgroup : group ∈ state.groups) : state.Spares group state' := by
  cases havoids with
  | @arrive other heap hfresh hwaiting hheap =>
    refine ⟨List.mem_cons_of_mem _ hgroup, ?_, fun _ _ => rfl⟩
    intro seq hseq
    have hnot : seq ∉ other.sequences := by
      intro hmem
      rw [List.map_append, List.nodup_append] at hfresh
      exact hfresh.2.2 _ (List.mem_map_of_mem hmem) _
        (List.mem_map_of_mem (RunInvariant.mem_sequences_of_mem hgroup hseq)) rfl
    exact congrArg (·.sequenceStatus) (hheap seq hnot)
  | @edit sequence value hstatus =>
    refine ⟨hgroup, ?_, fun _ _ => rfl⟩
    intro seq hseq
    change (Function.update state.heap sequence value seq).sequenceStatus = _
    by_cases heq : seq = sequence
    . rw [heq, Function.update_self, hstatus]
    . rw [Function.update_of_ne heq]
  | @finish sequence status hstatus hsequence =>
    refine ⟨hgroup, ?_, fun _ _ => rfl⟩
    intro seq hseq
    have hne : seq ≠ sequence := fun heq => hsequence (heq ▸ hseq)
    change (Function.update state.heap sequence _ seq).sequenceStatus = _
    rw [Function.update_of_ne hne]
  | @allocate other hother hnone hcan hne =>
    have hyields := allocate_yields h.accounted
      (SequenceGroup.nodup_getSequencesIds (h.nodup_group hother)) hnone hcan
    rcases hyields.finalState with ⟨-, sequence, blockTable, -, -, -, -, -, hlookup, -⟩
    refine ⟨hgroup, ?_, ?_⟩
    . intro seq hseq
      have hnot := notMem_sequences h hgroup hother hne hseq
      change (other.setStatusWhere state.heap _ .running seq).sequenceStatus = _
      rw [SequenceGroup.setStatusWhere_apply, if_neg fun hmem => hnot hmem.1]
    . intro sequenceId hid
      exact (hlookup sequenceId).trans
        (if_neg (notMem_sequenceIds h hgroup hother hne hid))
  | @appendSlots other sequence hother hsequence hrunning hcan hne =>
    refine ⟨hgroup, fun _ _ => rfl, ?_⟩
    intro sequenceId hid
    have hnot : sequenceId ≠ sequence.sequenceId := by
      rintro rfl
      exact h.disjoint hother hgroup hne hid (SequenceGroup.mem_sequenceIds hsequence)
    rcases h.writesTable_of_appendSlots hother hsequence hrunning hcan with
      hsame | ⟨_, _, -, hwrites, -, -⟩
    . exact congrArg (·.blockTables.lookup sequenceId) hsame
    . exact (hwrites.2 sequenceId).trans (if_neg hnot)
  | @fork before after other sequences parent child value hgroups hparent hrunning hfresh hvalue
      hsequences hne =>
    have hother : other ∈ state.groups := by simp [hgroups]
    have hmem : ∀ seq ∈ group.sequences, seq.sequenceId ≠ child.sequenceId := by
      intro seq hseq heq
      apply hfresh
      rw [← heq]
      exact List.mem_map_of_mem (RunInvariant.mem_sequences_of_mem hgroup hseq)
    refine ⟨?_, ?_, ?_⟩
    . rw [hgroups] at hgroup
      simp only [List.mem_append, List.mem_cons] at hgroup ⊢
      rcases hgroup with hgroup | rfl | hgroup
      . exact .inl hgroup
      . exact absurd rfl hne
      . exact .inr (.inr hgroup)
    . intro seq hseq
      have hnot : seq ≠ child := fun heq => hmem seq hseq (congrArg (·.sequenceId) heq)
      change (Function.update state.heap child value seq).sequenceStatus = _
      rw [Function.update_of_ne hnot]
    . intro sequenceId hid
      rcases List.mem_map.mp hid with ⟨seq, hseq, rfl⟩
      have ⟨_, _, hlookup, _⟩ := h.lookup_of_fork parent hfresh
      exact hlookup seq.sequenceId (hmem seq hseq)
  | @swapOut other hother hcan hne =>
    rcases (SwapDirection.swap_yields .swapOut h hother hcan).finalState with
      ⟨numbers, mapping, hswapped, hheap, -⟩
    exact spares_of_swapped h hgroup hother hne hswapped hheap
  | @swapIn other hother hcan hne =>
    rcases (SwapDirection.swap_yields .swapIn h hother hcan).finalState with
      ⟨numbers, mapping, hswapped, hheap, -⟩
    exact spares_of_swapped h hgroup hother hne hswapped hheap
  | @free freed hid =>
    refine ⟨hgroup, fun _ _ => rfl, ?_⟩
    intro sequenceId hmem
    have hne : sequenceId ≠ freed := by
      rintro rfl
      exact hid hmem
    rcases (free_yields h.accounted freed).finalState with ⟨-, -, hlookup, -⟩
    exact (hlookup sequenceId).trans (if_neg hne)

end Others

section Copies

variable {direction : SwapDirection} {numbers : AList fun _ : Nat => Nat} {mapping : SwapMapping}
variable {manager manager' : BlockSpaceManager} {sequenceIds : List Nat}
variable (hswapped : Memory.Swapped direction.source direction.target sequenceIds manager manager'
  numbers mapping)
include hswapped

theorem SwapDirection.mem_copies_iff {block block' : SyncPhysicalTokenBlock}
    : (block, block') ∈ direction.copies numbers
        ↔ block.device = direction.source ∧ mapping.Sends block block' := by
  unfold copies SwapMapping.Sends
  rw [List.mem_map]
  constructor
  . rintro ⟨⟨number, number'⟩, hentry, heq⟩
    cases heq
    have hlookup := AList.mem_lookup_iff.mpr hentry
    rw [Option.mem_def, hswapped.lookup_numbers] at hlookup
    rcases Option.map_eq_some_iff.mp hlookup with ⟨block, hsend, rfl⟩
    refine ⟨rfl, ?_⟩
    rw [← hswapped.valid.device_eq _ _ hsend]
    exact hsend
  . rintro ⟨hdevice, hsend⟩
    have hlookup : numbers.lookup block.blockNumber = some block'.blockNumber := by
      rw [hswapped.lookup_numbers, hsend]
      rfl
    refine ⟨⟨block.blockNumber, block'.blockNumber⟩, AList.mem_lookup_iff.mp hlookup, ?_⟩
    rw [← hdevice, ← hswapped.valid.device_eq _ _ hsend]

theorem SwapDirection.separate_copies : Copying.Separate (direction.copies numbers) := by
  constructor
  . apply List.Nodup.map_on
    . rintro ⟨block, target⟩ hmem ⟨block', target'⟩ hmem' heq
      have ⟨hdevice, hsend⟩ := (mem_copies_iff hswapped).mp hmem
      have ⟨hdevice', hsend'⟩ := (mem_copies_iff hswapped).mp hmem'
      change target = target' at heq
      subst heq
      have hnumber := hswapped.valid.injective _ _ _ hsend hsend'
      have hblock : block = block' :=
        SyncPhysicalTokenBlock.ext (hdevice.trans hdevice'.symm) hnumber
      rw [hblock]
    . unfold copies
      apply List.Nodup.map_on
      . rintro ⟨number, target⟩ _ ⟨number', target'⟩ _ heq
        cases heq
        rfl
      . exact List.NodupKeys.nodup numbers.nodupKeys
  . rintro ⟨block, target⟩ hmem hsource
    have ⟨_, hsend⟩ := (mem_copies_iff hswapped).mp hmem
    rcases List.mem_map.mp hsource with ⟨⟨block', target'⟩, hmem', heq⟩
    have ⟨hdevice', _⟩ := (mem_copies_iff hswapped).mp hmem'
    change block' = target at heq
    apply direction.source_ne_target
    rw [← hdevice', heq]
    exact hswapped.valid.device_eq _ _ hsend

end Copies

section Passes

variable {initial : BlockSpaceManager} {state state' : RunState} {group : SequenceGroup}
variable {copies order : Copies} {γ : Type} {contents : SyncPhysicalTokenBlock → γ}

/--
A pass on other groups spares the group, and copies nothing onto its blocks.
-/
theorem Pass.spares (hpass : Pass group state copies state') (h : RunInvariant initial state)
    (hgroup : group ∈ state.groups)
    : RunInvariant initial state'
        ∧ state.Spares group state'
        ∧ ∀ copy ∈ copies, ¬ state.manager.Holds group copy.2 := by
  induction hpass with
  | start => exact ⟨h, .refl hgroup, by simp⟩
  | @step copies between state' hstep _ havoids ih =>
    have ⟨hbetween, hspares, hcopies⟩ := ih
    exact ⟨hbetween.step hstep, hspares.trans (havoids.spares hbetween hspares.mem_groups), hcopies⟩
  | @swap direction copies moved between other numbers memory _ hother hne hguard hswap hmoved ih =>
    have ⟨hbetween, hspares, hcopies⟩ := ih
    rcases direction.swap_yields hbetween hother hguard with
      ⟨_, _, hrun, mapping, hswapped, hheap, hinvariant⟩
    rw [hswap] at hrun
    cases hrun
    refine ⟨hinvariant, hspares.trans
      (spares_of_swapped hbetween hspares.mem_groups hother hne hswapped hheap), ?_⟩
    intro copy hcopy hholds
    rcases List.mem_append.mp hcopy with hcopy | hcopy
    . exact hcopies copy hcopy hholds
    . -- the destinations of the swap were free, but the block was held by the group
      have ⟨_, hsend⟩ := (SwapDirection.mem_copies_iff hswapped).mp (hmoved.mem_iff.mp hcopy)
      exact hswapped.valid.notMem_before _ _ hsend (hspares.holds hholds).mem_owned

theorem Pass.execute_eq (hpass : Pass group state copies state') (h : RunInvariant initial state)
    (hgroup : group ∈ state.groups) (horder : order.Perm copies) {block : SyncPhysicalTokenBlock}
    (hholds : state.manager.Holds group block)
    : Copying.execute order contents block = contents block := by
  apply Copying.execute_of_notMem
  intro hmem
  rcases List.mem_map.mp hmem with ⟨copy, hcopy, rfl⟩
  have ⟨_, _, hcopies⟩ := hpass.spares h hgroup
  exact hcopies copy (horder.mem_iff.mp hcopy) hholds

/--
While the group waits, its blocks keep their contents.
-/
theorem Waits.spares {before after : RunState × (SyncPhysicalTokenBlock → γ)}
    (hwaits : Waits group before after) (h : RunInvariant initial before.1)
    (hgroup : group ∈ before.1.groups)
    : RunInvariant initial after.1
        ∧ before.1.Spares group after.1
        ∧ ∀ block, before.1.manager.Holds group block → after.2 block = before.2 block := by
  cases hwaits with
  | @step state state' contents hstep havoids =>
    exact ⟨h.step hstep, havoids.spares h hgroup, fun _ _ => rfl⟩
  | pass hpass horder =>
    have ⟨hinvariant, hspares, _⟩ := hpass.spares h hgroup
    exact ⟨hinvariant, hspares, fun _ hholds => hpass.execute_eq h hgroup horder hholds⟩
  | write hcontents => exact ⟨h, .refl hgroup, hcontents⟩

theorem Waits.spares_of_reflTransGen {before after : RunState × (SyncPhysicalTokenBlock → γ)}
    (hwaits : Relation.ReflTransGen (Waits group) before after) (h : RunInvariant initial before.1)
    (hgroup : group ∈ before.1.groups)
    : RunInvariant initial after.1
        ∧ before.1.Spares group after.1
        ∧ ∀ block, before.1.manager.Holds group block → after.2 block = before.2 block := by
  induction hwaits with
  | refl => exact ⟨h, .refl hgroup, fun _ _ => rfl⟩
  | tail _ hnext ih =>
    have ⟨hbetween, hspares, hcontents⟩ := ih
    have ⟨hinvariant, hspares', hcontents'⟩ := hnext.spares hbetween hspares.mem_groups
    refine ⟨hinvariant, hspares.trans hspares', ?_⟩
    intro block hholds
    rw [hcontents' block (hspares.holds hholds), hcontents block hholds]

/--
The tables of the sequences with the status that `direction` swaps are moved along `R` with the
contents of their blocks, and blocks that differ stay different.
-/
structure Moves (direction : SwapDirection) (group : SequenceGroup)
    (before after : RunState × (SyncPhysicalTokenBlock → γ))
    (R : SyncPhysicalTokenBlock → SyncPhysicalTokenBlock → Prop) : Prop where
  status_eq : ∀ seq ∈ group.sequences, (before.1.heap seq).sequenceStatus = direction.before →
    (after.1.heap seq).sequenceStatus = direction.after
  lookup : ∀ seq ∈ group.sequences, (before.1.heap seq).sequenceStatus = direction.before →
    ∀ blockTable, before.1.manager.blockTables.lookup seq.sequenceId = some blockTable →
      ∃ blockTable',
        after.1.manager.blockTables.lookup seq.sequenceId = some blockTable'
          ∧ List.Forall₂ R blockTable blockTable'
  contents_eq : ∀ block block', R block block' → after.2 block' = before.2 block
  eq_iff : ∀ block₁ block₁' block₂ block₂', R block₁ block₁' → R block₂ block₂' →
    (block₁' = block₂' ↔ block₁ = block₂)

variable (contents) in
theorem SwapPass.moves {direction : SwapDirection} {numbers : AList fun _ : Nat => Nat}
    (hpass : SwapPass direction group state copies state' numbers) (hexecutes : Executes order copies)
    (h : RunInvariant initial state) (hgroup : group ∈ state.groups)
    : RunInvariant initial state'
        ∧ group ∈ state'.groups
        ∧ (∀ number number' target, numbers.lookup number = some target →
            numbers.lookup number' = some target → number = number')
        ∧ ∃ R, Moves direction group (state, contents) (state', Copying.execute order contents) R := by
  rcases hpass with ⟨between, memory, copies₁, moved, copies₂, hpass₁, hguard, hswap, hmoved, hpass₂,
    hcopies⟩
  have ⟨hbetween, hspares₁, _⟩ := hpass₁.spares h hgroup
  rcases direction.swap_yields hbetween hspares₁.mem_groups hguard with
    ⟨_, _, hrun, mapping, hswapped, hheap, hinvariant⟩
  rw [hswap] at hrun
  cases hrun
  have ⟨hinvariant', hspares₂, _⟩ := hpass₂.spares hinvariant hspares₁.mem_groups
  have hbefore : ∀ seq ∈ group.sequences, (state.heap seq).sequenceStatus = direction.before →
      seq ∈ group.getSeqs between.heap direction.before := by
    intro seq hseq hstatus
    rw [SequenceGroup.mem_getSeqs, hspares₁.status_eq seq hseq]
    exact ⟨hseq, hstatus⟩
  have htable : ∀ seq ∈ group.sequences, (state.heap seq).sequenceStatus = direction.before →
      ∀ blockTable, state.manager.blockTables.lookup seq.sequenceId = some blockTable →
        ∃ blockTable',
          memory.blockManager.blockTables.lookup seq.sequenceId = some blockTable'
            ∧ List.Forall₂ mapping.Sends blockTable blockTable' := by
    intro seq hseq hstatus blockTable hlookup
    have hrel := hswapped.lookup_of_mem seq.sequenceId
      (List.mem_map_of_mem (hbefore seq hseq hstatus))
    rw [hspares₁.lookup_eq _ (SequenceGroup.mem_sequenceIds hseq), hlookup] at hrel
    generalize memory.blockManager.blockTables.lookup seq.sequenceId = new at hrel
    cases hrel with
    | @some _ blockTable' hsends => exact ⟨blockTable', rfl, hsends⟩
  -- the blocks that are moved are those in the tables of the sequences that are swapped
  let R : SyncPhysicalTokenBlock → SyncPhysicalTokenBlock → Prop := fun block block' =>
    mapping.Sends block block'
      ∧ block.device = direction.source
      ∧ state.manager.Holds group block
      ∧ memory.blockManager.Holds group block'
  refine ⟨hinvariant', hspares₂.mem_groups,
    fun _ _ _ hlookup hlookup' => hswapped.injective_numbers hlookup hlookup', R, ?_⟩
  constructor
  . intro seq hseq hstatus
    change (state'.heap seq).sequenceStatus = direction.after
    rw [hspares₂.status_eq seq hseq]
    change (memory.sequences seq).sequenceStatus = direction.after
    rw [hheap, if_pos (hbefore seq hseq hstatus)]
    rfl
  . intro seq hseq hstatus blockTable hlookup
    rcases htable seq hseq hstatus blockTable hlookup with ⟨blockTable', hlookup', hsends⟩
    have hid := SequenceGroup.mem_sequenceIds hseq
    refine ⟨blockTable', ?_, ?_⟩
    . change state'.manager.blockTables.lookup seq.sequenceId = some blockTable'
      rw [hspares₂.lookup_eq _ hid]
      exact hlookup'
    . rw [List.forall₂_iff_get] at hsends ⊢
      refine ⟨hsends.1, ?_⟩
      intro i hi hi'
      have hmem := List.get_mem blockTable ⟨i, hi⟩
      refine ⟨hsends.2 i hi hi', ?_, ⟨_, hid, _, hlookup, hmem⟩,
        ⟨_, hid, _, hlookup', List.get_mem blockTable' ⟨i, hi'⟩⟩⟩
      have hplaced := h.placed seq (RunInvariant.mem_sequences_of_mem hgroup hseq)
      rw [hstatus] at hplaced
      cases direction with
      | swapOut => exact hplaced blockTable hlookup _ hmem
      | swapIn => exact hplaced blockTable hlookup _ hmem
  . rintro block block' ⟨hsend, hdevice, hholds, hholds'⟩
    have hcopy : (block, block') ∈ moved :=
      hmoved.mem_iff.mpr ((SwapDirection.mem_copies_iff hswapped).mpr ⟨hdevice, hsend⟩)
    rcases hexecutes with ⟨horder, rfl | hseparate⟩
    . have hmoves : Copying.execute moved (Copying.execute copies₁ contents) block'
          = Copying.execute copies₁ contents block :=
        Copying.execute_of_mem ((SwapDirection.separate_copies hswapped).perm hmoved) hcopy
      calc Copying.execute order contents block'
        _ = Copying.execute copies₂
              (Copying.execute moved (Copying.execute copies₁ contents)) block' := by
          rw [hcopies, Copying.execute_append, Copying.execute_append]
        _ = Copying.execute moved (Copying.execute copies₁ contents) block' :=
          hpass₂.execute_eq hinvariant hspares₁.mem_groups (.refl _) hholds'
        _ = Copying.execute copies₁ contents block := hmoves
        _ = contents block := hpass₁.execute_eq h hgroup (.refl _) hholds
    . have hmem : (block, block') ∈ order := by
        rw [horder.mem_iff, hcopies]
        exact List.mem_append_left _ (List.mem_append_right _ hcopy)
      exact Copying.execute_of_mem (hseparate.perm horder) hmem
  . rintro block₁ block₁' block₂ block₂' ⟨hsend₁, hdevice₁, -⟩ ⟨hsend₂, hdevice₂, -⟩
    constructor
    . rintro rfl
      exact SyncPhysicalTokenBlock.ext (hdevice₁.trans hdevice₂.symm)
        (hswapped.valid.injective _ _ _ hsend₁ hsend₂)
    . rintro rfl
      exact Option.some.inj (hsend₁.symm.trans hsend₂)

/--
A swap under its guard succeeds, and with what follows it makes up a pass.
-/
theorem SwapPass.of_guard {direction : SwapDirection} (h : RunInvariant initial state)
    (hgroup : group ∈ state.groups) (hguard : direction.Guard group state.memory)
    (hpass : Pass group { state with memory := (direction.swap group).finalState state.memory }
      copies state')
    : ∃ numbers, SwapPass direction group state (direction.copies numbers ++ copies) state' numbers := by
  rcases direction.swap_yields h hgroup hguard with ⟨numbers, memory, hrun, -⟩
  have hmemory : (direction.swap group).finalState state.memory = memory := by
    unfold finalState
    rw [hrun]
  rw [hmemory] at hpass
  exact ⟨numbers, state, memory, [], _, copies, .start, hguard, hrun, .refl _, hpass, rfl⟩

/--
`blockTable` is the table of a running sequence of the group.
-/
def RunState.RunningTable (state : RunState) (group : SequenceGroup) (sequenceId : Nat)
    (blockTable : BlockTable) : Prop :=
  ∃ seq ∈ group.sequences,
    seq.sequenceId = sequenceId
      ∧ (state.heap seq).sequenceStatus = .running
      ∧ state.manager.blockTables.lookup sequenceId = some blockTable

/--
A table that is moved out and in again, with what may happen in between.
-/
theorem Moves.comp {before after : RunState × (SyncPhysicalTokenBlock → γ)}
    {waited : RunState × (SyncPhysicalTokenBlock → γ)} {contents' : SyncPhysicalTokenBlock → γ}
    {R₁ R₂ : SyncPhysicalTokenBlock → SyncPhysicalTokenBlock → Prop}
    (hout : Moves .swapOut group before after R₁) (hspares : after.1.Spares group waited.1)
    (hcontents : ∀ block, after.1.manager.Holds group block → waited.2 block = after.2 block)
    (hin : Moves .swapIn group waited (state', contents') R₂) {sequenceId : Nat}
    {blockTable : BlockTable} (htable : before.1.RunningTable group sequenceId blockTable)
    : ∃ blockTable',
        state'.manager.blockTables.lookup sequenceId = some blockTable'
          ∧ List.Forall₂
              (fun block block' => contents' block' = before.2 block
                ∧ ∃ mid, R₁ block mid ∧ R₂ mid block')
              blockTable blockTable' := by
  rcases htable with ⟨seq, hseq, rfl, hstatus, hlookup⟩
  rcases hout.lookup seq hseq hstatus blockTable hlookup with ⟨midTable, hmid, hmoved₁⟩
  have hid := SequenceGroup.mem_sequenceIds hseq
  have hwaited : (waited.1.heap seq).sequenceStatus = .swapped := by
    rw [hspares.status_eq seq hseq]
    exact hout.status_eq seq hseq hstatus
  have hmid' := hmid
  rw [← hspares.lookup_eq _ hid] at hmid'
  rcases hin.lookup seq hseq hwaited midTable hmid' with ⟨blockTable', hlookup', hmoved₂⟩
  refine ⟨blockTable', hlookup', ?_⟩
  rw [List.forall₂_iff_get] at *
  refine ⟨hmoved₁.1.trans hmoved₂.1, ?_⟩
  intro i hi hi'
  have hlt : i < midTable.length := hmoved₁.1 ▸ hi
  have h₁ := hmoved₁.2 i hi hlt
  have h₂ := hmoved₂.2 i hlt hi'
  have hholds : after.1.manager.Holds group (midTable.get ⟨i, hlt⟩) :=
    ⟨_, hid, midTable, hmid, List.get_mem midTable ⟨i, hlt⟩⟩
  refine ⟨?_, midTable.get ⟨i, hlt⟩, h₁, h₂⟩
  calc contents' (blockTable'.get ⟨i, hi'⟩)
    _ = waited.2 (midTable.get ⟨i, hlt⟩) := hin.contents_eq _ _ h₂
    _ = after.2 (midTable.get ⟨i, hlt⟩) := hcontents _ hholds
    _ = before.2 (blockTable.get ⟨i, hi⟩) := hout.contents_eq _ _ h₁

/--
A group that is swapped out and later swapped in again. Its tables have their old lengths, its blocks
their old contents, and they are shared as before.
-/
theorem contents_of_swap_passes {copies₁ order₁ copies₂ order₂ : Copies}
    {numbers₁ numbers₂ : AList fun _ : Nat => Nat} {out waited : RunState}
    {contents₁ : SyncPhysicalTokenBlock → γ} (h : RunInvariant initial state)
    (hgroup : group ∈ state.groups)
    (hout : SwapPass .swapOut group state copies₁ out numbers₁)
    (hexecutes₁ : Executes order₁ copies₁)
    (hwaits : Relation.ReflTransGen (Waits group) (out, Copying.execute order₁ contents)
      (waited, contents₁))
    (hin : SwapPass .swapIn group waited copies₂ state' numbers₂)
    (hexecutes₂ : Executes order₂ copies₂)
    : (∀ sequenceId blockTable, state.RunningTable group sequenceId blockTable →
        ∃ blockTable',
          state'.manager.blockTables.lookup sequenceId = some blockTable'
            ∧ blockTable'.length = blockTable.length
            ∧ blockTable'.map (Copying.execute order₂ contents₁) = blockTable.map contents)
        ∧ (∀ id₁ table₁ table₁' id₂ table₂ table₂',
            state.RunningTable group id₁ table₁ → state.RunningTable group id₂ table₂ →
            state'.manager.blockTables.lookup id₁ = some table₁' →
            state'.manager.blockTables.lookup id₂ = some table₂' →
            ∀ i j, i < table₁.length → j < table₂.length →
              (table₁'[i]? = table₂'[j]? ↔ table₁[i]? = table₂[j]?))
        ∧ (∀ number number' target, numbers₁.lookup number = some target →
            numbers₁.lookup number' = some target → number = number')
        ∧ ∀ number number' target, numbers₂.lookup number = some target →
            numbers₂.lookup number' = some target → number = number' := by
  have ⟨hinvariant₁, hgroup₁, hinjective₁, R₁, hmoves₁⟩ :=
    hout.moves contents hexecutes₁ h hgroup
  have ⟨hinvariant, hspares, hcontents⟩ := Waits.spares_of_reflTransGen hwaits hinvariant₁ hgroup₁
  have ⟨_, _, hinjective₂, R₂, hmoves₂⟩ :=
    hin.moves contents₁ hexecutes₂ hinvariant hspares.mem_groups
  refine ⟨?_, ?_, hinjective₁, hinjective₂⟩
  . intro sequenceId blockTable htable
    rcases hmoves₁.comp hspares hcontents hmoves₂ htable with ⟨blockTable', hlookup, hmoved⟩
    refine ⟨blockTable', hlookup, hmoved.length_eq.symm, ?_⟩
    apply List.ext_get
    . rw [List.length_map, List.length_map, hmoved.length_eq]
    . intro i hi hi'
      rw [List.forall₂_iff_get] at hmoved
      simp only [List.get_eq_getElem, List.getElem_map]
      rw [List.length_map] at hi hi'
      exact (hmoved.2 i hi' hi).1
  . intro id₁ table₁ table₁' id₂ table₂ table₂' htable₁ htable₂ hlookup₁ hlookup₂ i j hi hj
    rcases hmoves₁.comp hspares hcontents hmoves₂ htable₁ with ⟨_, hsome₁, hmoved₁⟩
    rcases hmoves₁.comp hspares hcontents hmoves₂ htable₂ with ⟨_, hsome₂, hmoved₂⟩
    cases hsome₁.symm.trans hlookup₁
    cases hsome₂.symm.trans hlookup₂
    rw [List.forall₂_iff_get] at hmoved₁ hmoved₂
    have hi' : i < table₁'.length := hmoved₁.1 ▸ hi
    have hj' : j < table₂'.length := hmoved₂.1 ▸ hj
    rcases (hmoved₁.2 i hi hi').2 with ⟨mid₁, hout₁, hin₁⟩
    rcases (hmoved₂.2 j hj hj').2 with ⟨mid₂, hout₂, hin₂⟩
    rw [List.getElem?_eq_getElem hi, List.getElem?_eq_getElem hj, List.getElem?_eq_getElem hi',
      List.getElem?_eq_getElem hj', Option.some_inj, Option.some_inj]
    exact (hmoves₂.eq_iff _ _ _ _ hin₁ hin₂).trans (hmoves₁.eq_iff _ _ _ _ hout₁ hout₂)

end Passes

end BlockSpaceManager

end AtomaInfer
