import AtomaInfer.BlockManager.Guards
import AtomaInfer.BlockManager.Window

/-!
Runs of a block manager with a sliding window. The operations and their guards are those of a run
without one. As long as every operation treats the blocks of a table as one reference each, the run
keeps a view of the manager, without the window, that accounts for its blocks.
-/

namespace AtomaInfer

namespace BlockSpaceManager

open EStateM RefPool

/--
A call of the block manager, with the change of the statuses that goes with it.
-/
inductive Operation where
  | allocate (group : SequenceGroup)
  | appendSlots (group : SequenceGroup) (sequence : SequenceRef)
  | fork (before after : List SequenceGroup) (group : SequenceGroup) (sequences : List SequenceRef)
    (parent child : SequenceRef) (value : Sequence)
  | swapOut (group : SequenceGroup)
  | swapIn (group : SequenceGroup)
  | free (sequenceId : Nat)

namespace Operation

section

variable (state : RunState)

/--
The guards of `Step`.
-/
def Guarded : Operation → Prop
  | allocate group =>
    group ∈ state.groups
      ∧ (∀ sequenceId ∈ group.getSequencesIds state.heap .waiting,
          state.manager.blockTables.lookup sequenceId = none)
      ∧ state.manager.canAllocate group state.heap = .ok
  | appendSlots group sequence =>
    group ∈ state.groups
      ∧ sequence ∈ group.sequences
      ∧ (state.heap sequence).sequenceStatus = .running
      ∧ state.manager.canAppendSlots group state.heap
  | fork before after group sequences parent child value =>
    state.groups = before ++ group :: after
      ∧ parent ∈ group.sequences
      ∧ (state.heap parent).sequenceStatus = .running
      ∧ child.sequenceId ∉ state.sequences.map (·.sequenceId)
      ∧ value.sequenceStatus = .running
      ∧ sequences.Perm (child :: group.sequences)
  | swapOut group => group ∈ state.groups ∧ state.manager.canSwapOut group state.heap
  | swapIn group => group ∈ state.groups ∧ state.manager.canSwapIn group state.heap = .ok
  | free _ => True

open Memory in
def call : Operation → MemoryM Unit
  | allocate group => do
    onBlockManager (BlockSpaceManager.allocate group state.heap)
    modify fun memory => {
      memory with
      sequences := group.setStatusWhere state.heap
        (fun sequence => (state.heap sequence).sequenceStatus = .waiting) .running
    }
  | appendSlots _ sequence => do
    let _ ← onBlockManager
      (BlockSpaceManager.appendSlots sequence.sequenceId (state.heap sequence))
  | fork _ _ _ _ parent child value => do
    modify fun memory => { memory with sequences := Function.update state.heap child value }
    onBlockManager (BlockSpaceManager.fork parent.sequenceId child.sequenceId)
  | swapOut group => do
    let _ ← Memory.swapOut group
  | swapIn group => do
    let _ ← Memory.swapIn group
  | free sequenceId => onBlockManager (BlockSpaceManager.free sequenceId)

def groups : Operation → List SequenceGroup
  | fork before after group sequences _ _ _ => before ++ { group with sequences } :: after
  | _ => state.groups

/--
The state after the call, also when it fails.
-/
def after (operation : Operation) : RunState where
  memory := (operation.call state).finalState state.memory
  groups := operation.groups state

/--
`append_slots` puts the token into `last`, which then ends the table after the blocks of `init`: the
table is long enough, or the window gives it a block that it has.
-/
def EndsTable (sequence : SequenceRef) (init : BlockTable) (last : SyncPhysicalTokenBlock) : Prop :=
  let numBlocks := (state.heap sequence).getNumTotalLogicalTokenBlocks
  let blockTable := state.manager.blockTables.lookup sequence.sequenceId
  1 ≤ numBlocks ∧ numBlocks ≤ init.length + 1 ∧ blockTable = some (init ++ [last])
    ∨ numBlocks = init.length + 1
      ∧ blockTable = some init
      ∧ ∃ blockSlidingWindow,
          state.manager.blockSlidingWindow = some blockSlidingWindow
            ∧ blockSlidingWindow ≤ init.length
            ∧ init[init.length % blockSlidingWindow]? = some last

/--
The tables that a swap moves list no block twice.
-/
def MovesOnce (sequenceIds : List Nat) : Prop :=
  ∀ sequenceId ∈ sequenceIds, ∀ blockTable,
    state.manager.blockTables.lookup sequenceId = some blockTable → blockTable.Nodup

/--
The call treats the blocks of a table as one reference each. A block that is copied on write is listed
once, and so are the blocks of a swapped table. The part of a table behind its first window, which
`free_block_table` frees, is there and lists every block.
-/
def CountsOnce : Operation → Prop
  | allocate _ => True
  | appendSlots _ sequence => ∀ init last, EndsTable state sequence init last →
      (state.manager.blocks last).refCount = 1 ∨ last ∉ init
  | fork _ _ _ _ _ _ _ => True
  | swapOut group => MovesOnce state (group.getSequencesIds state.heap .running)
  | swapIn group => MovesOnce state (group.getSequencesIds state.heap .swapped)
  | free sequenceId => ∀ blockTable blockSlidingWindow,
      state.manager.blockTables.lookup sequenceId = some blockTable →
        state.manager.blockSlidingWindow = some blockSlidingWindow →
          blockSlidingWindow ≤ blockTable.length
            ∧ ∀ block ∈ blockTable, block ∈ blockTable.drop blockSlidingWindow

end

end Operation

section Step

open Memory

theorem finalState_onBlockManager {α : Type} (x : BlockSpaceM α) (memory : Memory)
    : (onBlockManager x).finalState memory
        = { memory with blockManager := x.finalState memory.blockManager } := by
  have hrun : (onBlockManager x).run memory = onBlockManager x memory := rfl
  unfold finalState
  rw [hrun, onBlockManager]
  cases x.run memory.blockManager <;> rfl

theorem finalState_discard {α : Type} (x : MemoryM α) (memory : Memory)
    : (x >>= fun _ => pure ()).finalState memory = x.finalState memory := by
  unfold finalState
  rw [run_bind]
  cases x.run memory <;> rfl

/--
A guarded call takes the state where the same step of a run without a window takes it.
-/
theorem Operation.step {state : RunState} {operation : Operation}
    (hwindow : state.manager.blockSlidingWindow ≠ some 0) (hguarded : operation.Guarded state)
    : Step state (operation.after state) := by
  cases operation with
  | allocate group =>
    rcases hguarded with ⟨hgroup, hnone, hcan⟩
    rcases allocate_takes hwindow hcan with ⟨sequence, manager, -, hrun, -⟩
    have hstep := Step.allocate state group hgroup hnone hcan
    rw [finalState_of_run hrun] at hstep
    have hcall : (Operation.call state (.allocate group)).run state.memory = .ok () {
        sequences := group.setStatusWhere state.heap
          (fun sequence => (state.heap sequence).sequenceStatus = .waiting) .running
        blockManager := manager } := by
      apply bind_run_eq_ok.mpr
      refine ⟨(), { state.memory with blockManager := manager }, ?_, rfl⟩
      change onBlockManager _ state.memory = _
      unfold onBlockManager
      rw [show state.memory.blockManager = state.manager from rfl, hrun]
    unfold Operation.after
    rw [finalState_of_run hcall]
    exact hstep
  | appendSlots group sequence =>
    rcases hguarded with ⟨hgroup, hsequence, hrunning, hcan⟩
    unfold Operation.after Operation.call
    rw [finalState_discard, finalState_onBlockManager]
    exact .appendSlots state group sequence hgroup hsequence hrunning hcan
  | fork before after group sequences parent child value =>
    rcases hguarded with ⟨hgroups, hparent, hrunning, hfresh, hvalue, hperm⟩
    have hcall : (Operation.call state
          (.fork before after group sequences parent child value)).finalState state.memory
        = (onBlockManager (BlockSpaceManager.fork parent.sequenceId child.sequenceId)).finalState
          { state.memory with sequences := Function.update state.heap child value } := by
      rfl
    unfold Operation.after
    rw [hcall, finalState_onBlockManager]
    exact .fork state before after group sequences parent child value hgroups hparent hrunning hfresh
      hvalue hperm
  | swapOut group =>
    unfold Operation.after Operation.call
    rw [finalState_discard]
    exact .swapOut state group hguarded.1 hguarded.2
  | swapIn group =>
    unfold Operation.after Operation.call
    rw [finalState_discard]
    exact .swapIn state group hguarded.1 hguarded.2
  | free sequenceId =>
    unfold Operation.after Operation.call
    rw [finalState_onBlockManager]
    exact .free state sequenceId

end Step

/--
A step of a run whose calls satisfy `condition`. Between the calls groups arrive and sequences change.
-/
inductive WindowStep (condition : RunState → Operation → Prop) : RunState → RunState → Prop where
  | arrive (state : RunState) (group : SequenceGroup) (heap : SequenceHeap)
      (hfresh : ((group.sequences ++ state.sequences).map (·.sequenceId)).Nodup)
      (hwaiting : ∀ sequence ∈ group.sequences, (heap sequence).sequenceStatus = .waiting)
      (hheap : ∀ sequence, sequence ∉ group.sequences → heap sequence = state.heap sequence)
    : WindowStep condition state {
        memory := { state.memory with sequences := heap }
        groups := group :: state.groups
      }
  | edit (state : RunState) (sequence : SequenceRef) (value : Sequence)
      (hstatus : value.sequenceStatus = (state.heap sequence).sequenceStatus
        ∨ value.sequenceStatus.isFinished)
    : WindowStep condition state {
        state with
        memory := { state.memory with sequences := Function.update state.heap sequence value }
      }
  | call (state : RunState) (operation : Operation) (hguarded : operation.Guarded state)
      (hcondition : condition state operation)
    : WindowStep condition state (operation.after state)

/--
No group has been received yet, and the manager has a sliding window.
-/
def RunState.initWindow (blockSize numCpuBlocks numGpuBlocks slidingWindow : Nat) (heap : SequenceHeap)
    : RunState where
  memory := {
    sequences := heap
    blockManager :=
      BlockSpaceManager.new blockSize numCpuBlocks numGpuBlocks (some slidingWindow)
  }
  groups := []

/--
`state` is reached by some run of the block manager with a sliding window.
-/
def WindowReachable (condition : RunState → Operation → Prop)
    (blockSize numCpuBlocks numGpuBlocks slidingWindow : Nat) (state : RunState) : Prop :=
  ∃ heap,
    Relation.ReflTransGen (WindowStep condition)
      (.initWindow blockSize numCpuBlocks numGpuBlocks slidingWindow heap) state

/--
The errors that a miscounted reference leads to: a slice that starts behind the end of its table, and
a block that is freed more often than it is referenced.
-/
inductive Miscounts : BlockSpaceManagerError → Prop where
  | slice : Miscounts (.panic "range start index out of range")
  | doubleFree (blockNumber : Nat)
    : Miscounts (.blockAllocatorError (.cannotDoubleFree blockNumber))

/--
The accounting of the blocks in `state`. The calls that may follow do not miscount, a block in a table
is referenced and not free, and without tables all blocks are free.
-/
structure AccountsWindow (condition : RunState → Operation → Prop) (numCpuBlocks numGpuBlocks : Nat)
    (state : RunState) : Prop where
  not_miscounts : ∀ operation : Operation, operation.Guarded state → condition state operation →
    ∀ error memory, (operation.call state).run state.memory = .error error memory →
      ¬ Miscounts error
  referenced : ∀ sequenceId blockTable,
    state.manager.blockTables.lookup sequenceId = some blockTable → ∀ block ∈ blockTable,
      1 ≤ (state.manager.blocks block).refCount
        ∧ ∀ device, block ∉ (state.manager.allocator device).freeBlocks
  returned : (∀ sequenceId, state.manager.blockTables.lookup sequenceId = none) → ∀ device,
    let numBlocks := configuredBlocks numCpuBlocks numGpuBlocks device
    state.manager.getNumFreeBlocks device = BlockAllocator.numCreated numBlocks
      ∧ (numBlocks < 2 ^ 32 → state.manager.getNumFreeBlocks device = numBlocks)

/--
The tables of a view have the blocks of the tables of the manager.
-/
structure Lists (viewTables blockTables : BlockTables) : Prop where
  lookup_none : ∀ sequenceId, blockTables.lookup sequenceId = none →
    viewTables.lookup sequenceId = none
  lookup_some : ∀ sequenceId blockTable, blockTables.lookup sequenceId = some blockTable →
    ∃ viewTable, viewTables.lookup sequenceId = some viewTable
      ∧ ∀ block, block ∈ viewTable ↔ block ∈ blockTable

namespace Lists

variable {viewTables blockTables viewTables' blockTables' : BlockTables} {sequenceId : Nat}
variable {viewTable blockTable : BlockTable}

theorem exists_of_view (h : Lists viewTables blockTables)
    (hview : viewTables.lookup sequenceId = some viewTable)
    : ∃ blockTable, blockTables.lookup sequenceId = some blockTable
        ∧ ∀ block, block ∈ viewTable ↔ block ∈ blockTable := by
  cases hlookup : blockTables.lookup sequenceId with
  | none =>
    rw [h.lookup_none sequenceId hlookup] at hview
    cases hview
  | some blockTable =>
    rcases h.lookup_some sequenceId blockTable hlookup with ⟨viewTable', hview', hsame⟩
    rw [hview] at hview'
    cases hview'
    exact ⟨blockTable, rfl, hsame⟩

theorem of_lookup (h : Lists viewTables blockTables)
    (hlookup : ∀ sequenceId,
      (viewTables'.lookup sequenceId = viewTables.lookup sequenceId
          ∧ blockTables'.lookup sequenceId = blockTables.lookup sequenceId)
        ∨ (viewTables'.lookup sequenceId = none ∧ blockTables'.lookup sequenceId = none)
        ∨ ∃ viewTable blockTable,
            viewTables'.lookup sequenceId = some viewTable
              ∧ blockTables'.lookup sequenceId = some blockTable
              ∧ ∀ block, block ∈ viewTable ↔ block ∈ blockTable)
    : Lists viewTables' blockTables' := by
  constructor
  . intro id hnone
    rcases hlookup id with ⟨hview, hblock⟩ | ⟨hview, -⟩ | ⟨viewTable, blockTable, -, hblock, -⟩
    . rw [hview]
      exact h.lookup_none id (hblock ▸ hnone)
    . exact hview
    . rw [hnone] at hblock
      cases hblock
  . intro id table hsome
    rcases hlookup id with ⟨hview, hblock⟩ | ⟨-, hblock⟩ | ⟨viewTable, blockTable, hview, hblock, hsame⟩
    . rw [hview]
      exact h.lookup_some id table (hblock ▸ hsome)
    . rw [hsome] at hblock
      cases hblock
    . rw [hsome] at hblock
      cases hblock
      exact ⟨viewTable, hview, hsame⟩

theorem insert (h : Lists viewTables blockTables)
    (hsame : ∀ block, block ∈ viewTable ↔ block ∈ blockTable)
    : Lists (viewTables.insert sequenceId viewTable) (blockTables.insert sequenceId blockTable) := by
  apply h.of_lookup
  intro id
  by_cases hid : id = sequenceId
  . subst hid
    exact .inr (.inr ⟨viewTable, blockTable, AList.lookup_insert _, AList.lookup_insert _, hsame⟩)
  . exact .inl ⟨AList.lookup_insert_ne hid, AList.lookup_insert_ne hid⟩

theorem erase (h : Lists viewTables blockTables)
    : Lists (viewTables.erase sequenceId) (blockTables.erase sequenceId) := by
  apply h.of_lookup
  intro id
  by_cases hid : id = sequenceId
  . subst hid
    exact .inr (.inl ⟨AList.lookup_erase _ _, AList.lookup_erase _ _⟩)
  . exact .inl ⟨AList.lookup_erase_ne hid, AList.lookup_erase_ne hid⟩

theorem insert_left (h : Lists viewTables blockTables)
    (hlookup : blockTables.lookup sequenceId = some blockTable)
    (hsame : ∀ block, block ∈ viewTable ↔ block ∈ blockTable)
    : Lists (viewTables.insert sequenceId viewTable) blockTables := by
  apply h.of_lookup
  intro id
  by_cases hid : id = sequenceId
  . subst hid
    exact .inr (.inr ⟨viewTable, blockTable, AList.lookup_insert _, hlookup, hsame⟩)
  . exact .inl ⟨AList.lookup_insert_ne hid, rfl⟩

end Lists

def RunState.unwound (state : RunState) (viewTables : BlockTables) : RunState where
  memory := { state.memory with blockManager := state.manager.unwound viewTables }
  groups := state.groups

/--
The run without a window that `state` corresponds to is in a state with the tables `viewTables`.
-/
structure Viewed (initial : BlockSpaceManager) (window : Nat) (viewTables : BlockTables)
    (state : RunState) : Prop where
  blockSlidingWindow_eq : state.manager.blockSlidingWindow = some window
  lists : Lists viewTables state.manager.blockTables
  invariant : RunInvariant initial (state.unwound viewTables)

theorem Placed.of_subset {manager manager' : BlockSpaceManager} {sequenceId : Nat}
    {status : SequenceStatus} (h : manager.Placed sequenceId status)
    (hsubset : ∀ blockTable, manager'.blockTables.lookup sequenceId = some blockTable →
      ∃ old, manager.blockTables.lookup sequenceId = some old ∧ ∀ block ∈ blockTable, block ∈ old)
    : manager'.Placed sequenceId status := by
  unfold Placed at *
  cases status with
  | waiting =>
    cases hlookup : manager'.blockTables.lookup sequenceId with
    | none => rfl
    | some blockTable =>
      rcases hsubset blockTable hlookup with ⟨old, hold, -⟩
      rw [h] at hold
      cases hold
  | running =>
    intro blockTable hlookup block hblock
    rcases hsubset blockTable hlookup with ⟨old, hold, hmem⟩
    exact h old hold block (hmem block hblock)
  | swapped =>
    intro blockTable hlookup block hblock
    rcases hsubset blockTable hlookup with ⟨old, hold, hmem⟩
    exact h old hold block (hmem block hblock)
  | finishedStopped => trivial
  | finishedLengthCapped => trivial
  | finishedAborted => trivial
  | finishedIgnored => trivial

namespace Viewed

variable {initial : BlockSpaceManager} {window : Nat} {viewTables : BlockTables} {state : RunState}
variable {sequenceId : Nat} {blockTable viewTable : BlockTable}

theorem mirrors (h : Viewed initial window viewTables state)
    : Mirrors window state.manager.blockTables viewTables state.manager
        (state.manager.unwound viewTables) :=
  ⟨h.blockSlidingWindow_eq, rfl, rfl⟩

/--
A table of the view may list its blocks in another order.
-/
theorem reorder (h : Viewed initial window viewTables state)
    (hlookup : state.manager.blockTables.lookup sequenceId = some blockTable)
    (hnodup : viewTable.Nodup) (hsame : ∀ block, block ∈ viewTable ↔ block ∈ blockTable)
    : Viewed initial window (viewTables.insert sequenceId viewTable) state := by
  refine ⟨h.blockSlidingWindow_eq, h.lists.insert_left hlookup hsame, ?_⟩
  rcases h.lists.lookup_some sequenceId blockTable hlookup with ⟨old, hold, hsameOld⟩
  have haccounted : (state.manager.unwound viewTables).Accounted := h.invariant.accounted
  have hperm : viewTable.Perm old := by
    rw [List.perm_ext_iff_of_nodup hnodup (haccounted.nodup sequenceId old hold)]
    exact fun block => (hsame block).trans (hsameOld block).symm
  have hlookups : ∀ id, AList.lookup id (viewTables.insert sequenceId viewTable)
      = if id = sequenceId then some viewTable else viewTables.lookup id := by
    intro id
    split
    . next hid => rw [hid, AList.lookup_insert]
    . next hid => rw [AList.lookup_insert_ne hid]
  apply h.invariant.of_manager (sameConfig_blockTables _)
  . apply haccounted.of_tables (sameConfig_blockTables _)
    . have hsplit : (state.manager.unwound viewTables).owned
          = old + (state.manager.unwound viewTables).ownedByOthers sequenceId := owned_eq hold
      change Balanced _ _ _ ((state.manager.unwound viewTables).insertTable sequenceId viewTable).owned
      rw [owned_insertTable, Multiset.coe_eq_coe.mpr hperm, ← hsplit]
      exact haccounted.balanced
    . intro id table hsome
      change AList.lookup id (viewTables.insert sequenceId viewTable) = some table at hsome
      rw [hlookups] at hsome
      split at hsome
      . cases hsome
        rcases haccounted.device_eq sequenceId old hold with ⟨device, hdevice⟩
        exact .inr ⟨hnodup, device, fun block hblock => hdevice block (hperm.mem_iff.mp hblock)⟩
      . exact .inl hsome
  . intro id table hsome
    rw [hlookups] at hsome
    split at hsome
    . next hid =>
      rw [hid]
      exact h.invariant.mem_sequences sequenceId old hold
    . exact h.invariant.mem_sequences id table hsome
  . intro sequence hsequence hplaced
    apply hplaced.of_subset
    intro table hsome
    change AList.lookup sequence.sequenceId (viewTables.insert sequenceId viewTable) = some table
      at hsome
    rw [hlookups] at hsome
    split at hsome
    . next hid =>
      cases hsome
      refine ⟨old, ?_, fun block hblock => hperm.mem_iff.mp hblock⟩
      rw [hid]
      exact hold
    . exact ⟨table, hsome, fun _ hblock => hblock⟩

theorem of_mirrors {memory : Memory} {groups : List SequenceGroup} {blockTables : BlockTables}
    {view : BlockSpaceManager} (hmirrors : Mirrors window blockTables viewTables memory.blockManager view)
    (hlists : Lists viewTables blockTables)
    (hinvariant : RunInvariant initial
      { memory := { memory with blockManager := view }, groups })
    : Viewed initial window viewTables { memory, groups } := by
  refine ⟨hmirrors.blockSlidingWindow_eq, ?_, ?_⟩
  . change Lists viewTables memory.blockManager.blockTables
    rw [hmirrors.blockTables_eq]
    exact hlists
  . rw [hmirrors.view_eq] at hinvariant
    exact hinvariant

/--
The blocks of a table are on one device.
-/
theorem device_eq (h : Viewed initial window viewTables state)
    (hlookup : state.manager.blockTables.lookup sequenceId = some blockTable)
    : ∃ device, ∀ block ∈ blockTable, block.device = device := by
  rcases h.lists.lookup_some sequenceId blockTable hlookup with ⟨viewTable, hview, hsame⟩
  rcases h.invariant.accounted.device_eq sequenceId viewTable hview with ⟨device, hdevice⟩
  exact ⟨device, fun block hblock => hdevice block ((hsame block).mpr hblock)⟩

theorem free (h : Viewed initial window viewTables state) (sequenceId : Nat)
    (hcounts : Operation.CountsOnce state (.free sequenceId))
    : Yields (BlockSpaceManager.free sequenceId) state.manager fun _ manager =>
        ∃ viewTables', Viewed initial window viewTables'
          { state with memory := { state.memory with blockManager := manager } } := by
  cases hlookup : state.manager.blockTables.lookup sequenceId with
  | none =>
    refine ⟨(), state.manager, ?_, viewTables, h⟩
    unfold BlockSpaceManager.free
    simp only [run_bind, run_get, hlookup]
    rfl
  | some blockTable =>
    rcases hcounts blockTable window hlookup h.blockSlidingWindow_eq with ⟨hle, hall⟩
    rcases h.device_eq hlookup with ⟨device, hdevice⟩
    have hsame : ∀ block, block ∈ dedupByNumber (blockTable.drop window) ↔ block ∈ blockTable := by
      intro block
      rw [mem_dedupByNumber fun block hblock => hdevice block (List.mem_of_mem_drop hblock)]
      exact ⟨List.mem_of_mem_drop, hall block⟩
    have hview := h.reorder hlookup nodup_dedupByNumber hsame
    have htracks := free_tracks hview.mirrors hlookup hle (AList.lookup_insert _)
    have hyields := free_yields hview.invariant.accounted sequenceId
    have hinvariant := hview.invariant.free sequenceId
    apply Yields.mono (htracks.yields hyields)
    rintro u manager ⟨view, hmirrors, hrun, -⟩
    refine ⟨_, of_mirrors hmirrors hview.lists.erase ?_⟩
    have hfinal : (BlockSpaceManager.free sequenceId).finalState (state.unwound _).manager = view :=
      finalState_of_run hrun
    rw [hfinal] at hinvariant
    exact hinvariant

/--
`fork` either succeeds, or fails before it changes anything.
-/
theorem fork (h : Viewed initial window viewTables state) {before after : List SequenceGroup}
    {group : SequenceGroup} {sequences : List SequenceRef} {parent child : SequenceRef}
    {value : Sequence}
    (hguarded : Operation.Guarded state (.fork before after group sequences parent child value))
    : let forked : BlockSpaceManager → RunState := fun manager => {
        memory := {
          sequences := Function.update state.heap child value
          blockManager := manager }
        groups := before ++ { group with sequences } :: after }
      Yields (BlockSpaceManager.fork parent.sequenceId child.sequenceId) state.manager
          (fun _ manager => ∃ viewTables', Viewed initial window viewTables' (forked manager))
        ∨ (BlockSpaceManager.fork parent.sequenceId child.sequenceId).run state.manager
              = .error .missingSequence state.manager
            ∧ ∃ viewTables', Viewed initial window viewTables' (forked state.manager) := by
  rcases hguarded with ⟨hgroups, hparent, hrunning, hfresh, hvalue, hperm⟩
  cases hlookup : state.manager.blockTables.lookup parent.sequenceId with
  | none =>
    right
    have hinvariant := h.invariant.fork hgroups hparent hrunning hfresh hvalue hperm
    unfold finalState at hinvariant
    rw [fork_run_of_lookup_eq_none (h.lists.lookup_none _ hlookup)] at hinvariant
    exact ⟨fork_run_of_lookup_eq_none hlookup, viewTables, of_mirrors h.mirrors h.lists hinvariant⟩
  | some blockTable =>
    left
    rcases h.device_eq hlookup with ⟨device, hdevice⟩
    have hsame : ∀ block, block ∈ dedupByNumber blockTable ↔ block ∈ blockTable := fun block =>
      mem_dedupByNumber hdevice
    have hview := h.reorder hlookup nodup_dedupByNumber hsame
    have hinvariant := hview.invariant.fork hgroups hparent hrunning hfresh hvalue hperm
    have hnone : AList.lookup child.sequenceId (viewTables.insert parent.sequenceId
        (dedupByNumber blockTable)) = none := by
      cases hchild : AList.lookup child.sequenceId (viewTables.insert parent.sequenceId
          (dedupByNumber blockTable)) with
      | none => rfl
      | some table => exact absurd (hview.invariant.mem_sequences _ _ hchild) hfresh
    have htracks := @fork_tracks _ _ _ _ _ _ _ hview.mirrors child.sequenceId hlookup
      (AList.lookup_insert _)
    have hyields := fork_yields hview.invariant.accounted (AList.lookup_insert _) hnone
    apply Yields.mono (htracks.yields hyields)
    rintro u manager ⟨view, hmirrors, hrun, -⟩
    have hfinal : (BlockSpaceManager.fork parent.sequenceId child.sequenceId).finalState
        (state.unwound _).manager = view := finalState_of_run hrun
    rw [hfinal] at hinvariant
    exact ⟨_, of_mirrors hmirrors (hview.lists.insert hsame) hinvariant⟩

theorem allocate (h : Viewed initial window viewTables state) (hpos : 0 < window)
    {group : SequenceGroup} (hguarded : Operation.Guarded state (.allocate group))
    : Yields (BlockSpaceManager.allocate group state.heap) state.manager fun _ manager =>
        ∃ viewTables', Viewed initial window viewTables' {
          state with
          memory := {
            sequences := group.setStatusWhere state.heap
              (fun sequence => (state.heap sequence).sequenceStatus = .waiting) .running
            blockManager := manager } } := by
  rcases hguarded with ⟨hgroup, hnone, hcan⟩
  apply Yields.mono (allocate_windowed h.mirrors h.invariant.accounted hpos
    (SequenceGroup.nodup_getSequencesIds (h.invariant.nodup_group hgroup))
    (fun id hid => h.lists.lookup_none id (hnone id hid)) hcan)
  rintro _ manager ⟨blockTable, viewTable, view, hview, hwindow, hsame, hgpu, hlookup, hconfig,
    hviewLookup, haccounted⟩
  refine ⟨view.blockTables, of_mirrors ⟨hwindow, rfl, hview⟩ ?_
    (h.invariant.of_allocated hgroup hconfig haccounted hgpu hviewLookup)⟩
  apply h.lists.of_lookup
  intro id
  rw [hlookup, hviewLookup]
  split
  . exact .inr (.inr ⟨viewTable, blockTable, rfl, rfl, hsame⟩)
  . exact .inl ⟨rfl, rfl⟩

section AppendSlots

variable {group : SequenceGroup} {sequence : SequenceRef}
variable (h : Viewed initial window viewTables state)
include h

/--
The window gives the table a block of its own, which no other sequence shares.
-/
theorem reuse {block : SyncPhysicalTokenBlock}
    (hlookup : state.manager.blockTables.lookup sequence.sequenceId = some blockTable)
    (hblock : block ∈ blockTable) (hcount : (state.manager.blocks block).refCount = 1)
    : Yields (appendSlots.copyOnWrite sequence.sequenceId (blockTable ++ [block]))
        (state.manager.insertTable sequence.sequenceId (blockTable ++ [block]))
        fun _ manager =>
          ∃ viewTables', Viewed initial window viewTables'
            { state with memory := { state.memory with blockManager := manager } } := by
  refine ⟨none, _, appendSlots.copyOnWrite_run blockTable block hcount, viewTables, ?_⟩
  refine ⟨h.blockSlidingWindow_eq, ?_, h.invariant⟩
  rcases h.lists.lookup_some _ _ hlookup with ⟨viewTable, hview, hsame⟩
  change Lists viewTables
    (state.manager.blockTables.insert sequence.sequenceId (blockTable ++ [block]))
  apply h.lists.of_lookup
  intro id
  by_cases hid : id = sequence.sequenceId
  . subst hid
    refine .inr (.inr ⟨viewTable, blockTable ++ [block], hview, AList.lookup_insert _, ?_⟩)
    intro b
    rw [hsame, List.mem_append, List.mem_singleton]
    constructor
    . exact .inl
    . rintro (hb | rfl)
      . exact hb
      . exact hblock
  . exact .inl ⟨rfl, AList.lookup_insert_ne hid⟩

variable (hguarded : Operation.Guarded state (.appendSlots group sequence))
include hguarded

theorem device_eq_gpu (hview : viewTables.lookup sequence.sequenceId = some viewTable)
    : ∀ block ∈ viewTable, block.device = .gpu := by
  rcases hguarded with ⟨hgroup, hsequence, hrunning, -⟩
  have hplaced := h.invariant.placed sequence (RunInvariant.mem_sequences_of_mem hgroup hsequence)
  change Placed _ _ (state.heap sequence).sequenceStatus at hplaced
  rw [hrunning] at hplaced
  exact hplaced viewTable hview

/--
The tables of the manager and of the view end with the same new block.
-/
theorem append {manager view : BlockSpaceManager} {block new : SyncPhysicalTokenBlock}
    (hmirrors : Mirrors window
      (state.manager.blockTables.insert sequence.sequenceId (blockTable ++ [block]))
      (viewTables.insert sequence.sequenceId (viewTable ++ [block])) manager view)
    (hwrites : (state.manager.unwound viewTables).WritesTable view sequence.sequenceId
      (viewTable ++ [new]))
    (hsame : ∀ block, block ∈ viewTable ↔ block ∈ blockTable)
    (hgpu : ∀ block ∈ viewTable, block.device = .gpu) (hnew : new.device = .gpu)
    (haccounted : view.Accounted)
    : ∃ viewTables', Viewed initial window viewTables'
        { state with memory := { state.memory with blockManager := manager } } := by
  rcases hguarded with ⟨hgroup, hsequence, hrunning, -⟩
  have hmem : sequence ∈ state.sequences := RunInvariant.mem_sequences_of_mem hgroup hsequence
  have hblock : new = block := by
    have hlookup := hwrites.2 sequence.sequenceId
    rw [if_pos rfl, hmirrors.view_eq] at hlookup
    change AList.lookup _ (AList.insert _ _ _) = _ at hlookup
    rw [AList.lookup_insert, Option.some.injEq] at hlookup
    exact (List.singleton_inj.mp (List.append_inj' hlookup rfl).2).symm
  subst hblock
  refine ⟨_, of_mirrors hmirrors (h.lists.insert ?_)
    (h.invariant.of_writesTable hmem hrunning haccounted hwrites ?_)⟩
  . intro b
    rw [List.mem_append, List.mem_append, hsame]
  . intro b hb
    rcases List.mem_append.mp hb with hb | hb
    . exact hgpu b hb
    . rw [List.mem_singleton.mp hb]
      exact hnew

/--
The last part of `append_slots`, when the block that is written to is listed once.
-/
theorem copyOnWrite {init : BlockTable} {last : SyncPhysicalTokenBlock}
    (hlookup : state.manager.blockTables.lookup sequence.sequenceId = some (init ++ [last]))
    (hcounts : (state.manager.blocks last).refCount = 1 ∨ last ∉ init)
    : Yields (appendSlots.copyOnWrite sequence.sequenceId (init ++ [last])) state.manager
        fun _ manager =>
          ∃ viewTables', Viewed initial window viewTables'
            { state with memory := { state.memory with blockManager := manager } } := by
  by_cases hcount : (state.manager.blocks last).refCount = 1
  . exact ⟨none, state.manager, appendSlots.copyOnWrite_run init last hcount, viewTables, h⟩
  . have hlast : last ∉ init := hcounts.resolve_left hcount
    rcases h.device_eq hlookup with ⟨device, hdevice⟩
    have hinit : ∀ block, block ∈ dedupByNumber init ↔ block ∈ init := fun block =>
      mem_dedupByNumber fun block hblock => hdevice block (List.mem_append_left _ hblock)
    have hsame : ∀ block, block ∈ dedupByNumber init ++ [last] ↔ block ∈ init ++ [last] := by
      intro block
      rw [List.mem_append, List.mem_append, hinit]
    have hnodup : (dedupByNumber init ++ [last]).Nodup := by
      rw [← List.concat_eq_append]
      exact List.Nodup.concat (fun hmem => hlast ((hinit last).mp hmem)) nodup_dedupByNumber
    have hview := h.reorder hlookup hnodup hsame
    have hgpu := hview.device_eq_gpu hguarded (AList.lookup_insert _)
    have hfree := RunInvariant.one_le_of_canAppendSlots hguarded.2.1 hguarded.2.2.1 hguarded.2.2.2
    have hyields := appendSlots.copyOnWrite_yields hview.invariant.accounted
      (AList.lookup_insert _) hgpu hfree hcount
    have htracks := @copyOnWrite_tracks _ _ _ _ _ sequence.sequenceId hview.mirrors init
      (dedupByNumber init) last hcount
    apply Yields.mono (htracks.yields hyields)
    rintro cow manager ⟨view, ⟨block, hmirrors⟩, -, new, -, hnew, -, hwrites, haccounted⟩
    exact hview.append hguarded hmirrors hwrites hinit
      (fun block hblock => hgpu block (List.mem_append_left _ hblock)) hnew haccounted

theorem pushBlock
    (hlookup : state.manager.blockTables.lookup sequence.sequenceId = some blockTable)
    : Yields (appendSlots.pushBlock sequence.sequenceId blockTable) state.manager
        fun _ manager =>
          ∃ viewTables', Viewed initial window viewTables'
            { state with memory := { state.memory with blockManager := manager } } := by
  rcases h.lists.lookup_some _ _ hlookup with ⟨viewTable, hview, hsame⟩
  have hgpu := h.device_eq_gpu hguarded hview
  have hfree := RunInvariant.one_le_of_canAppendSlots hguarded.2.1 hguarded.2.2.1 hguarded.2.2.2
  have hyields := appendSlots.pushBlock_yields h.invariant.accounted hview hgpu hfree
  have htracks := @pushBlock_tracks _ _ _ _ _ sequence.sequenceId blockTable h.mirrors viewTable
  apply Yields.mono (htracks.yields hyields)
  rintro cow manager ⟨view, ⟨block, hmirrors⟩, -, new, -, hnew, -, hwrites, haccounted⟩
  exact h.append hguarded hmirrors hwrites hsame hgpu hnew haccounted

/--
`append_slots` either succeeds, or fails before it changes anything.
-/
theorem appendSlots (hpos : 0 < window)
    (hcounts : Operation.CountsOnce state (.appendSlots group sequence))
    : Yields (BlockSpaceManager.appendSlots sequence.sequenceId (state.heap sequence)) state.manager
          (fun _ manager =>
            ∃ viewTables', Viewed initial window viewTables'
              { state with memory := { state.memory with blockManager := manager } })
        ∨ ∃ error,
            (BlockSpaceManager.appendSlots sequence.sequenceId (state.heap sequence)).run
                state.manager = .error error state.manager
              ∧ ¬ Miscounts error := by
  by_cases hzero : (state.heap sequence).getNumTotalLogicalTokenBlocks = 0
  . right
    refine ⟨.emptySequence, ?_, fun hmiscounts => by cases hmiscounts⟩
    unfold BlockSpaceManager.appendSlots
    simp only [hzero, if_true, run_bind]
    rfl
  cases hlookup : state.manager.blockTables.lookup sequence.sequenceId with
  | none =>
    left
    refine ⟨none, state.manager, ?_, viewTables, h⟩
    unfold BlockSpaceManager.appendSlots
    simp only [hzero, if_false, run_bind, run_get, hlookup]
    rfl
  | some blockTable =>
    rcases Nat.lt_trichotomy (blockTable.length + 1)
        (state.heap sequence).getNumTotalLogicalTokenBlocks with hbehind | hshort | hfull
    . right
      rcases appendSlots_run_of_behind hlookup hbehind with ⟨message, hrun⟩
      exact ⟨_, hrun, fun hmiscounts => by cases hmiscounts⟩
    . left
      by_cases hlt : blockTable.length < window
      . rcases h.pushBlock hguarded hlookup with ⟨cow, manager, hrun, hview⟩
        refine ⟨cow, manager, ?_, hview⟩
        rw [appendSlots_run_of_push h.mirrors hlookup hlt hshort.symm, hrun]
      . have hindex : blockTable.length % window < blockTable.length := by
          have := Nat.mod_lt blockTable.length hpos
          omega
        have hblock := List.getElem?_eq_getElem hindex
        have hmem := List.getElem_mem hindex
        have hcount : (state.manager.blocks blockTable[blockTable.length % window]).refCount = 1 :=
          (hcounts blockTable _ (.inr ⟨hshort.symm, hlookup, window, h.blockSlidingWindow_eq,
            Nat.not_lt.mp hlt, hblock⟩)).resolve_right (not_not_intro hmem)
        rcases h.reuse hlookup hmem hcount with ⟨cow, manager, hrun, hview⟩
        refine ⟨cow, manager, ?_, hview⟩
        rw [appendSlots_run_of_reuse h.mirrors hlookup hpos (Nat.not_lt.mp hlt) hblock hshort.symm,
          hrun]
    . left
      rcases List.eq_nil_or_concat blockTable with rfl | ⟨init, last, hconcat⟩
      . simp only [List.length_nil] at hfull
        omega
      . rw [List.concat_eq_append] at hconcat
        subst hconcat
        rw [List.length_append, List.length_singleton] at hfull
        have hcount := hcounts init last (.inl ⟨by omega, by omega, hlookup⟩)
        rcases h.copyOnWrite hguarded hlookup hcount with ⟨cow, manager, hrun, hview⟩
        refine ⟨cow, manager, ?_, hview⟩
        rw [appendSlots_run_of_full hlookup (by omega) (by simp; omega), hrun]

end AppendSlots

section Swap

variable {group : SequenceGroup}

/--
The view may list the blocks of tables without repetitions in the order of these tables.
-/
theorem reorder_all (h : Viewed initial window viewTables state) {sequenceIds : List Nat}
    (hmoves : Operation.MovesOnce state sequenceIds)
    : ∃ viewTables', Viewed initial window viewTables' state
        ∧ ∀ sequenceId ∈ sequenceIds,
            viewTables'.lookup sequenceId = state.manager.blockTables.lookup sequenceId := by
  induction sequenceIds with
  | nil => exact ⟨viewTables, h, fun _ hid => nomatch hid⟩
  | cons id ids ih =>
    rcases ih fun id' hid' => hmoves id' (List.mem_cons_of_mem _ hid') with ⟨tables, hview, heq⟩
    cases hlookup : state.manager.blockTables.lookup id with
    | none =>
      refine ⟨tables, hview, ?_⟩
      intro id' hid'
      rcases List.mem_cons.mp hid' with rfl | hid'
      . rw [hlookup, hview.lists.lookup_none id' hlookup]
      . exact heq id' hid'
    | some blockTable =>
      refine ⟨_, hview.reorder hlookup (hmoves id List.mem_cons_self blockTable hlookup)
        fun _ => Iff.rfl, ?_⟩
      intro id' hid'
      by_cases hsame : id' = id
      . rw [hsame, AList.lookup_insert, hlookup]
      . rw [AList.lookup_insert_ne hsame]
        exact heq id' ((List.mem_cons.mp hid').resolve_left hsame)

theorem length_getPhysicalBlocks (h : Viewed initial window viewTables state)
    : ((state.manager.unwound viewTables).getPhysicalBlocks group state.heap).length
        = (state.manager.getPhysicalBlocks group state.heap).length := by
  have hlength : ∀ blocks : List SyncPhysicalTokenBlock, (dedupByNumber blocks).length
      = (blocks.map (·.blockNumber)).toFinset.card := by
    intro blocks
    have hmap := dedupByNumber.map_go blocks []
    rw [List.toFinset_nil, Finset.sdiff_empty] at hmap
    rw [← hmap, List.toFinset_card_of_nodup (dedupByNumber.go_spec []).2.1, List.length_map]
    rfl
  unfold getPhysicalBlocks
  rw [hlength, hlength]
  congr 1
  ext number
  rw [List.mem_toFinset, List.mem_toFinset, List.mem_map, List.mem_map]
  have hmem : ∀ block,
      block ∈ ((group.getUnfinishedSequences state.heap).flatMap fun sequence =>
          ((state.manager.unwound viewTables).blockTables.lookup sequence.sequenceId).getD [])
        ↔ block ∈ ((group.getUnfinishedSequences state.heap).flatMap fun sequence =>
          (state.manager.blockTables.lookup sequence.sequenceId).getD []) := by
    intro block
    rw [List.mem_flatMap, List.mem_flatMap]
    change (∃ sequence : SequenceRef, _ ∧ block ∈ (viewTables.lookup sequence.sequenceId).getD [])
      ↔ _
    constructor
    . rintro ⟨sequence, hsequence, hblock⟩
      refine ⟨sequence, hsequence, ?_⟩
      cases hview : viewTables.lookup sequence.sequenceId with
      | none =>
        rw [hview] at hblock
        cases hblock
      | some viewTable =>
        rcases h.lists.exists_of_view hview with ⟨blockTable, hlookup, hsame⟩
        rw [hview] at hblock
        rw [hlookup]
        exact (hsame block).mp hblock
    . rintro ⟨sequence, hsequence, hblock⟩
      refine ⟨sequence, hsequence, ?_⟩
      cases hlookup : state.manager.blockTables.lookup sequence.sequenceId with
      | none =>
        rw [hlookup] at hblock
        cases hblock
      | some blockTable =>
        rcases h.lists.lookup_some _ _ hlookup with ⟨viewTable, hview, hsame⟩
        rw [hlookup] at hblock
        rw [hview]
        exact (hsame block).mpr hblock
  simp only [hmem]

/--
A swap that succeeds in the view, where the tables that it moves are the same.
-/
theorem of_swap {memory view : Memory} {sequenceIds : List Nat}
    (h : Viewed initial window viewTables state)
    (hshares : Memory.Over
      (SharesTables window sequenceIds state.manager.blockTables viewTables) memory view)
    (hinvariant : RunInvariant initial { memory := view, groups := state.groups })
    : ∃ viewTables', Viewed initial window viewTables' { state with memory } := by
  rcases hshares with ⟨hsequences, hmirrors, hsame, hblock, hview⟩
  refine ⟨view.blockManager.blockTables, of_mirrors hmirrors ?_ ?_⟩
  . apply h.lists.of_lookup
    intro id
    by_cases hid : id ∈ sequenceIds
    . rw [hsame id hid]
      cases hlookup : memory.blockManager.blockTables.lookup id with
      | none => exact .inr (.inl ⟨rfl, rfl⟩)
      | some blockTable => exact .inr (.inr ⟨blockTable, blockTable, rfl, rfl, fun _ => Iff.rfl⟩)
    . exact .inl ⟨hview id hid, hblock id hid⟩
  . have heq : { memory with blockManager := view.blockManager } = view := by
      rw [← hsequences]
    rw [heq]
    exact hinvariant

theorem swapOut (h : Viewed initial window viewTables state)
    (hguarded : Operation.Guarded state (.swapOut group))
    (hcounts : Operation.CountsOnce state (.swapOut group))
    : Yields (Memory.swapOut group) state.memory fun _ memory =>
        ∃ viewTables', Viewed initial window viewTables' { state with memory } := by
  rcases hguarded with ⟨hgroup, hcan⟩
  rcases h.reorder_all hcounts with ⟨tables, hview, heq⟩
  have hcan' : (state.manager.unwound tables).canSwapOut group state.heap := by
    unfold canSwapOut at hcan ⊢
    dsimp only at hcan ⊢
    rw [hview.length_getPhysicalBlocks]
    exact hcan
  have hyields := Memory.swapOut_yields hview.invariant.accounted (hview.invariant.nodup_group hgroup)
    (hview.invariant.placed_group hgroup) hcan'
  have hinvariant := hview.invariant.swapOut hgroup hcan'
  have hshares : Memory.Over (SharesTables window
      (group.getSequencesIds state.memory.sequences .running) state.manager.blockTables tables)
      state.memory (state.unwound tables).memory :=
    ⟨rfl, hview.mirrors, heq, fun _ _ => rfl, fun _ _ => rfl⟩
  apply Yields.mono ((Memory.swapOut_tracks hshares).yields hyields)
  rintro numbers memory ⟨view, hover, hrun, -⟩
  rw [finalState_of_run hrun] at hinvariant
  exact hview.of_swap hover hinvariant

theorem swapIn (h : Viewed initial window viewTables state)
    (hguarded : Operation.Guarded state (.swapIn group))
    (hcounts : Operation.CountsOnce state (.swapIn group))
    : Yields (Memory.swapIn group) state.memory fun _ memory =>
        ∃ viewTables', Viewed initial window viewTables' { state with memory } := by
  rcases hguarded with ⟨hgroup, hcan⟩
  rcases h.reorder_all hcounts with ⟨tables, hview, heq⟩
  have hcan' : (state.manager.unwound tables).canSwapIn group state.heap = .ok := by
    unfold canSwapIn at hcan ⊢
    dsimp only at hcan ⊢
    rw [hview.length_getPhysicalBlocks]
    exact hcan
  have hyields := Memory.swapIn_yields hview.invariant.accounted (hview.invariant.nodup_group hgroup)
    (hview.invariant.placed_group hgroup) hcan'
  have hinvariant := hview.invariant.swapIn hgroup hcan'
  have hshares : Memory.Over (SharesTables window
      (group.getSequencesIds state.memory.sequences .swapped) state.manager.blockTables tables)
      state.memory (state.unwound tables).memory :=
    ⟨rfl, hview.mirrors, heq, fun _ _ => rfl, fun _ _ => rfl⟩
  apply Yields.mono ((Memory.swapIn_tracks hshares).yields hyields)
  rintro numbers memory ⟨view, hover, hrun, -⟩
  rw [finalState_of_run hrun] at hinvariant
  exact hview.of_swap hover hinvariant

end Swap

section Call

variable {operation : Operation}

/--
The call does not miscount, and the state that it leaves has a view.
-/
def Keeps (initial : BlockSpaceManager) (window : Nat) (state : RunState) (operation : Operation)
    : Prop :=
  (∃ viewTables, Viewed initial window viewTables (operation.after state))
    ∧ ∀ error memory, (operation.call state).run state.memory = .error error memory →
        ¬ Miscounts error

theorem Keeps.of_yields
    (h : Yields (operation.call state) state.memory fun _ memory =>
      ∃ viewTables, Viewed initial window viewTables { memory, groups := operation.groups state })
    : Keeps initial window state operation := by
  rcases h with ⟨u, memory, hrun, hview⟩
  constructor
  . unfold Operation.after
    rw [finalState_of_run hrun]
    exact hview
  . intro error memory' herror
    rw [hrun] at herror
    cases herror

theorem Keeps.of_error {error : BlockSpaceManagerError} {memory : Memory}
    (hrun : (operation.call state).run state.memory = .error error memory)
    (hnot : ¬ Miscounts error)
    (hview : ∃ viewTables,
      Viewed initial window viewTables { memory, groups := operation.groups state })
    : Keeps initial window state operation := by
  constructor
  . unfold Operation.after finalState
    rw [hrun]
    exact hview
  . intro error' memory' herror
    rw [hrun] at herror
    cases herror
    exact hnot

/--
One case for each operation.
-/
theorem keeps (h : Viewed initial window viewTables state) (hpos : 0 < window)
    (hguarded : operation.Guarded state) (hcounts : operation.CountsOnce state)
    : Keeps initial window state operation := by
  cases operation with
  | allocate group =>
    apply Keeps.of_yields
    apply Yields.bind (Memory.onBlockManager_yields_manager (h.allocate hpos hguarded))
    rintro _ memory ⟨manager, rfl, hview⟩
    exact Yields.of_modify hview
  | appendSlots group sequence =>
    rcases h.appendSlots hguarded hpos hcounts with hyields | ⟨error, hrun, hnot⟩
    . apply Keeps.of_yields
      apply Yields.bind (Memory.onBlockManager_yields_manager hyields)
      rintro cow memory ⟨manager, rfl, hview⟩
      exact Yields.pure hview
    . apply Keeps.of_error _ hnot ⟨viewTables, h⟩
      have hfails := Memory.onBlockManager_run_of_error hrun
      simp only [Operation.call, run_bind, hfails]
  | fork before after group sequences parent child value =>
    rcases h.fork hguarded with hyields | ⟨hrun, hview⟩
    . apply Keeps.of_yields
      apply Yields.modify_bind
      let memory : Memory :=
        { state.memory with sequences := Function.update state.heap child value }
      change Yields _ memory.blockManager _ at hyields
      apply Yields.mono (Memory.onBlockManager_yields_manager hyields)
      rintro _ memory ⟨manager, rfl, hview⟩
      exact hview
    . exact Keeps.of_error (Memory.onBlockManager_run_of_error hrun)
        (fun hmiscounts => nomatch hmiscounts) hview
  | swapOut group =>
    apply Keeps.of_yields
    apply Yields.bind (h.swapOut hguarded hcounts)
    intro _ memory hview
    exact Yields.pure hview
  | swapIn group =>
    apply Keeps.of_yields
    apply Yields.bind (h.swapIn hguarded hcounts)
    intro _ memory hview
    exact Yields.pure hview
  | free sequenceId =>
    apply Keeps.of_yields
    apply Yields.mono (Memory.onBlockManager_yields_manager (h.free sequenceId hcounts))
    rintro _ memory ⟨manager, rfl, hview⟩
    exact hview

end Call

theorem init (blockSize numCpuBlocks numGpuBlocks slidingWindow : Nat) (heap : SequenceHeap)
    : Viewed (BlockSpaceManager.new blockSize numCpuBlocks numGpuBlocks none)
        ((slidingWindow + blockSize - 1) / blockSize) ∅
        (.initWindow blockSize numCpuBlocks numGpuBlocks slidingWindow heap) := by
  refine ⟨rfl, ⟨fun _ _ => rfl, ?_⟩, RunInvariant.init blockSize numCpuBlocks numGpuBlocks heap⟩
  intro sequenceId blockTable hlookup
  cases hlookup

theorem step {state' : RunState} (h : Viewed initial window viewTables state) (hpos : 0 < window)
    (hstep : WindowStep Operation.CountsOnce state state')
    : ∃ viewTables', Viewed initial window viewTables' state' := by
  cases hstep with
  | arrive group heap hfresh _ hheap =>
    exact ⟨viewTables, h.blockSlidingWindow_eq, h.lists, h.invariant.arrive hfresh hheap⟩
  | edit sequence value hstatus =>
    exact ⟨viewTables, h.blockSlidingWindow_eq, h.lists, h.invariant.update hstatus⟩
  | call operation hguarded hcounts => exact (h.keeps hpos hguarded hcounts).1

theorem pool_unwound (manager : BlockSpaceManager)
    : (manager.unwound viewTables).pool = manager.pool := by
  rfl

theorem accountsWindow {blockSize numCpuBlocks numGpuBlocks : Nat}
    (h : Viewed (BlockSpaceManager.new blockSize numCpuBlocks numGpuBlocks none) window viewTables
      state)
    (hpos : 0 < window)
    : AccountsWindow Operation.CountsOnce numCpuBlocks numGpuBlocks state := by
  have haccounted : (state.manager.unwound viewTables).Accounted := h.invariant.accounted
  constructor
  . intro operation hguarded hcounts
    exact (h.keeps hpos hguarded hcounts).2
  . intro sequenceId blockTable hlookup block hblock
    rcases h.lists.lookup_some sequenceId blockTable hlookup with ⟨viewTable, hview, hsame⟩
    have howned : block ∈ (state.manager.unwound viewTables).owned :=
      mem_owned_of_mem hview ((hsame block).mpr hblock)
    have hbalanced := haccounted.balanced
    rw [pool_unwound] at hbalanced
    refine ⟨hbalanced.one_le_refCount howned, ?_⟩
    intro device hfree
    exact ((hbalanced.mem_free device block).mp hfree).2.2 howned
  . intro hnone device
    have hsum := haccounted.length_free_add_card device
    have hnum := h.invariant.sameConfig.numBlocks_eq device
    have hempty : ((state.manager.unwound viewTables).blockTables.entries.flatMap
        (·.2)).toFinset.filter (·.device = device) = ∅ := by
      rw [Finset.eq_empty_iff_forall_notMem]
      intro block hblock
      rw [Finset.mem_filter, List.mem_toFinset, List.mem_flatMap] at hblock
      rcases hblock with ⟨⟨entry, hentry, -⟩, -⟩
      rcases h.lists.exists_of_view (AList.mem_entries_iff.mp hentry) with ⟨blockTable, hlookup, -⟩
      rw [hnone] at hlookup
      cases hlookup
    rw [hempty, Finset.card_empty, Nat.add_zero] at hsum
    change ((state.manager.unwound viewTables).allocator device).numBlocks = _ at hnum
    rw [hnum] at hsum
    have hfree : state.manager.getNumFreeBlocks device
        = BlockAllocator.numCreated (configuredBlocks numCpuBlocks numGpuBlocks device) := by
      cases device <;> exact hsum
    refine ⟨hfree, ?_⟩
    intro hlt
    rw [hfree]
    exact Nat.mod_eq_of_lt hlt

end Viewed

/--
The accounting of the blocks under a sliding window, in every state that is reached by calls that treat
the blocks of a table as one reference each.
-/
theorem accountsWindow_of_countsOnce {blockSize numCpuBlocks numGpuBlocks slidingWindow : Nat}
    {state : RunState} (hsize : 1 ≤ blockSize) (hwindow : 1 ≤ slidingWindow)
    (h : WindowReachable Operation.CountsOnce blockSize numCpuBlocks numGpuBlocks slidingWindow state)
    : AccountsWindow Operation.CountsOnce numCpuBlocks numGpuBlocks state := by
  have hpos := div_pos_of_window hsize hwindow
  have hview : ∃ viewTables, Viewed (BlockSpaceManager.new blockSize numCpuBlocks numGpuBlocks none)
      ((slidingWindow + blockSize - 1) / blockSize) viewTables state := by
    rcases h with ⟨heap, hrun⟩
    induction hrun with
    | refl => exact ⟨∅, Viewed.init _ _ _ _ heap⟩
    | tail _ hstep ih =>
      rcases ih with ⟨viewTables, hview⟩
      exact hview.step hpos hstep
  rcases hview with ⟨viewTables, hview⟩
  exact hview.accountsWindow hpos

/--
A sequence with two tokens, in blocks of size one.
-/
def twoTokens : Sequence :=
  {
    oneToken with
    sequenceData := SequenceData.new [7, 8] []
    logicalTokenBlocks := [
      { blockNumber := 0, blockSize := 1, tokenIds := [7], numTokens := 1 },
      { blockNumber := 1, blockSize := 1, tokenIds := [8], numTokens := 1 }
    ]
  }

/--
A group of one sequence has arrived.
-/
def arrivedWindow (numCpuBlocks numGpuBlocks slidingWindow : Nat) (sequence : Sequence) : RunState :=
  {
    RunState.initWindow 1 numCpuBlocks numGpuBlocks slidingWindow fun _ => sequence with
    groups := [oneTokenGroup [⟨0, 0⟩]]
  }

theorem windowReachable_arrivedWindow {condition : RunState → Operation → Prop}
    (numCpuBlocks numGpuBlocks slidingWindow : Nat) {sequence : Sequence}
    (hwaiting : sequence.sequenceStatus = .waiting)
    : WindowReachable condition 1 numCpuBlocks numGpuBlocks slidingWindow
        (arrivedWindow numCpuBlocks numGpuBlocks slidingWindow sequence) :=
  ⟨fun _ => sequence, Relation.ReflTransGen.refl.tail
    (.arrive (.initWindow 1 numCpuBlocks numGpuBlocks slidingWindow fun _ => sequence)
      (oneTokenGroup [⟨0, 0⟩]) (fun _ => sequence) (by simp [oneTokenGroup, RunState.sequences,
        RunState.initWindow]) (fun _ _ => hwaiting) (fun _ _ => rfl))⟩

/--
The table of two tokens runs around a window of one block, which `free` returns.
-/
theorem accountsWindow_of_countsOnce_two_tokens
    : ∃ state, WindowReachable Operation.CountsOnce 1 1 1 1 state
        ∧ state.groups ≠ []
        ∧ state.manager.getNumFreeBlocks .gpu = 1 := by
  let group := oneTokenGroup [⟨0, 0⟩]
  let arrived := arrivedWindow 1 1 1 twoTokens
  let allocated := (Operation.allocate group).after arrived
  have hlookup : allocated.manager.blockTables.lookup 0 = some [⟨.gpu, 0⟩, ⟨.gpu, 0⟩] := by
    decide +kernel
  have hwindow : allocated.manager.blockSlidingWindow = some 1 := by decide +kernel
  have hallocate : WindowStep Operation.CountsOnce arrived allocated :=
    .call arrived (.allocate group) ⟨List.mem_singleton_self _, by decide, by decide⟩ trivial
  have hcounts : Operation.CountsOnce allocated (.free 0) := by
    intro blockTable blockSlidingWindow hsome hsome'
    rw [hlookup] at hsome
    rw [hwindow] at hsome'
    cases hsome
    cases hsome'
    decide
  have hfree : WindowStep Operation.CountsOnce allocated ((Operation.free 0).after allocated) :=
    .call allocated (.free 0) trivial hcounts
  rcases @windowReachable_arrivedWindow Operation.CountsOnce 1 1 1 twoTokens rfl with ⟨heap, hrun⟩
  have hreach : WindowReachable Operation.CountsOnce 1 1 1 1 ((Operation.free 0).after allocated) :=
    ⟨heap, (hrun.tail hallocate).tail hfree⟩
  have hempty : ((Operation.free 0).after allocated).manager.blockTables.entries = [] := by
    decide +kernel
  have hnone : ∀ sequenceId,
      ((Operation.free 0).after allocated).manager.blockTables.lookup sequenceId = none := by
    intro sequenceId
    unfold AList.lookup
    rw [hempty]
    rfl
  have haccounts := accountsWindow_of_countsOnce (by decide) (by decide) hreach
  exact ⟨_, hreach, by decide, (haccounts.returned hnone .gpu).1⟩

/--
The table of one token is shorter than a window of two blocks, and `free` slices it behind its end.
-/
theorem not_accountsWindow_one_token
    : ¬ ∀ (blockSize numCpuBlocks numGpuBlocks slidingWindow : Nat) (state : RunState),
        1 ≤ blockSize → 1 ≤ slidingWindow →
          WindowReachable (fun _ _ => True) blockSize numCpuBlocks numGpuBlocks slidingWindow state →
            AccountsWindow (fun _ _ => True) numCpuBlocks numGpuBlocks state := by
  intro h
  let group := oneTokenGroup [⟨0, 0⟩]
  let arrived := arrivedWindow 1 1 2 oneToken
  let allocated := (Operation.allocate group).after arrived
  have hallocate : WindowStep (fun _ _ => True) arrived allocated :=
    .call arrived (.allocate group) ⟨List.mem_singleton_self _, by decide, by decide⟩ trivial
  rcases @windowReachable_arrivedWindow (fun _ _ => True) 1 1 2 oneToken rfl with ⟨heap, hrun⟩
  have haccounts := h 1 1 1 2 allocated (by decide) (by decide) ⟨heap, hrun.tail hallocate⟩
  exact haccounts.not_miscounts (.free 0) trivial trivial _ _ rfl .slice

end BlockSpaceManager

end AtomaInfer
