import AtomaInfer.BlockManager.Errors
import AtomaInfer.BlockManager.Ring

/-!
Which blocks of a sequence are computed. The flag is kept at the physical block, which still has it
when it is handed out again.
-/

namespace AtomaInfer

def PhysicalTokenBlock.setComputed (block : PhysicalTokenBlock) (value : Bool)
    : PhysicalTokenBlock :=
  { block with computed := value }

namespace BlockSpaceManager

open EStateM RefPool

/--
The loop of `compute_full_blocks_in_sequence`, which stops at the first block that is computed.
-/
def computeFullBlocksInSequence.setComputed (blocks : BlockHeap) : BlockTable → BlockHeap
  | [] => blocks
  | block :: blockTable =>
    if (blocks block).computed then
      blocks
    else
      setComputed (Function.update blocks block ((blocks block).setComputed true)) blockTable

def computeFullBlocksInSequence (sequenceId : Nat) (sequence : Sequence) : BlockSpaceM Unit := do
  let manager ← get
  match manager.blockTables.lookup sequenceId with
  | none => return ()
  | some blockTable =>
    if manager.blockSize = 0 then
      throw (.panic "attempt to divide by zero")
    else
      let maxFullBlock := sequence.length / manager.blockSize
      if maxFullBlock = 0 then
        return ()
      else
        set {
          manager with
          blocks := computeFullBlocksInSequence.setComputed manager.blocks
            (blockTable.take maxFullBlock).reverse
        }

def getsAllComputedBlocks (manager : BlockSpaceManager) (sequenceId : Nat)
    : Except BlockSpaceManagerError (List Nat) :=
  match manager.blockTables.lookup sequenceId with
  | none => .ok []
  | some blockTable =>
    if blockTable.length = 0 then
      .error (.panic "attempt to subtract with overflow")
    else
      .ok <|
        ((blockTable.take (blockTable.length - 1)).filter fun block =>
          (manager.blocks block).computed).map (·.blockNumber)

section KeepsComputed

/--
No block is marked, and no mark is removed.
-/
def KeepsComputed (manager manager' : BlockSpaceManager) : Prop :=
  ∀ block, (manager'.blocks block).computed = (manager.blocks block).computed

variable {manager manager' : BlockSpaceManager} {device : BlockDevice}
variable {block : SyncPhysicalTokenBlock} {blockTable : BlockTable} {sequenceId : Nat}

theorem KeepsComputed.refl (manager : BlockSpaceManager) : manager.KeepsComputed manager :=
  fun _ => rfl

theorem KeepsComputed.trans {m₁ m₂ m₃ : BlockSpaceManager} (h₁ : m₁.KeepsComputed m₂)
    (h₂ : m₂.KeepsComputed m₃) : m₁.KeepsComputed m₃ :=
  fun block => (h₂ block).trans (h₁ block)

theorem keepsComputed_update (value : PhysicalTokenBlock)
    (hblocks : manager'.blocks = Function.update manager.blocks block value)
    (h : value.computed = (manager.blocks block).computed) : manager.KeepsComputed manager' := by
  intro other
  rw [hblocks]
  by_cases heq : other = block
  . rw [heq, Function.update_self, h]
  . rw [Function.update_of_ne heq]

theorem respects_allocateBlock (device : BlockDevice)
    : Respects KeepsComputed (allocateBlock device) := by
  intro manager
  apply Ends.get_bind
  unfold BlockAllocator.allocate
  cases (manager.allocator device).freeBlocks with
  | nil => exact Ends.throw (.refl manager)
  | cons block freeBlocks =>
    exact keepsComputed_update (manager.blocks block).incrementRefCount rfl rfl

theorem respects_freeBlock (device : BlockDevice) (block : SyncPhysicalTokenBlock)
    : Respects KeepsComputed (freeBlock device block) := by
  intro manager
  apply Ends.get_bind
  cases hfree : (manager.allocator device).free manager.blocks block with
  | error e => exact Ends.throw (.refl manager)
  | ok freed =>
    have hblocks : ∃ refCount, freed.2
        = Function.update manager.blocks block { manager.blocks block with refCount } := by
      unfold BlockAllocator.free PhysicalTokenBlock.decreaseRefCount at hfree
      split at hfree
      . cases hfree
      . split at hfree
        . cases hfree
        . next hdecrease =>
          split at hdecrease
          . cases hdecrease
            dsimp only at hfree
            split at hfree <;> cases hfree <;> exact ⟨_, rfl⟩
          . cases hdecrease
    rcases hblocks with ⟨refCount, hblocks⟩
    exact keepsComputed_update { manager.blocks block with refCount } hblocks rfl

theorem respects_writeBlock {f : PhysicalTokenBlock → PhysicalTokenBlock}
    (h : ∀ value, (f value).computed = value.computed) (block : SyncPhysicalTokenBlock)
    : Respects KeepsComputed (writeBlock block f) := by
  intro manager
  exact keepsComputed_update (f (manager.blocks block)) rfl (h _)

/--
The rule for a sequence of steps.
-/
theorem respects_bind {α β : Type} {x : BlockSpaceM α} {f : α → BlockSpaceM β}
    (hx : Respects KeepsComputed x) (hf : ∀ a, Respects KeepsComputed (f a))
    : Respects KeepsComputed (x >>= f) :=
  Respects.bind (R := KeepsComputed) .trans hx hf

theorem respects_pure {α : Type} (a : α) : Respects KeepsComputed (pure a : BlockSpaceM α) :=
  Respects.pure KeepsComputed.refl a

theorem respects_modifyTables {f : BlockSpaceManager → BlockSpaceManager}
    (h : ∀ manager, (f manager).blocks = manager.blocks)
    : Respects KeepsComputed (modify f : BlockSpaceM PUnit) :=
  Respects.modify fun manager block => by rw [h]

theorem blocks_insertTables (sequenceIds : List Nat)
    : (manager.insertTables sequenceIds blockTable).blocks = manager.blocks := by
  unfold insertTables
  induction sequenceIds generalizing manager with
  | nil => rfl
  | cons sequenceId sequenceIds ih => exact ih

theorem respects_allocate (group : SequenceGroup) (heap : SequenceHeap)
    : Respects KeepsComputed (allocate group heap) := by
  have hwrite : ∀ refCount (table : BlockTable) block, Respects KeepsComputed (do
      writeBlock block (·.setRefCountBy refCount)
      return table ++ [block]) :=
    fun refCount table block =>
      respects_bind (respects_writeBlock (f := (·.setRefCountBy refCount)) (fun _ => rfl) block)
        fun _ => respects_pure _
  unfold allocate
  split
  . exact respects_pure _
  . refine respects_bind (Respects.foldlM KeepsComputed.refl KeepsComputed.trans ?_ _ _) fun _ =>
      respects_modifyTables fun _ => blocks_insertTables _
    intro table logicalIdx
    unfold allocate.logicalBlock
    apply Respects.get_bind
    intro current
    split
    . split
      . split
        . exact Respects.throw KeepsComputed.refl _
        . split
          . exact hwrite _ _ _
          . exact Respects.throw KeepsComputed.refl _
      . exact respects_bind (respects_allocateBlock .gpu) (hwrite _ _)
    . exact respects_bind (respects_allocateBlock .gpu) (hwrite _ _)

theorem respects_pushBlock (sequenceId : Nat) (blockTable : BlockTable)
    : Respects KeepsComputed (appendSlots.pushBlock sequenceId blockTable) :=
  respects_bind (respects_allocateBlock .gpu) fun _ =>
    respects_bind (respects_modifyTables fun _ => rfl) fun _ => respects_pure _

theorem respects_copyOnWrite (sequenceId : Nat) (blockTable : BlockTable)
    : Respects KeepsComputed (appendSlots.copyOnWrite sequenceId blockTable) := by
  unfold appendSlots.copyOnWrite
  split
  . exact Respects.throw KeepsComputed.refl _
  . apply Respects.get_bind
    intro current
    split
    . exact respects_pure _
    . exact respects_bind (respects_allocateBlock .gpu) fun _ =>
        respects_bind (respects_freeBlock _ _) fun _ =>
          respects_bind (respects_modifyTables fun _ => rfl) fun _ => respects_pure _

theorem respects_appendSlots (sequenceId : Nat) (sequence : Sequence)
    : Respects KeepsComputed (appendSlots sequenceId sequence) := by
  unfold appendSlots
  dsimp only
  split
  . exact fun manager => KeepsComputed.refl manager
  . apply Respects.get_bind
    intro current
    split
    . exact respects_pure _
    . split
      . split
        . exact Respects.throw KeepsComputed.refl _
        . split
          . exact respects_pushBlock _ _
          . split
            . split
              . exact Respects.throw KeepsComputed.refl _
              . split
                . exact Respects.throw KeepsComputed.refl _
                . exact respects_bind (respects_modifyTables fun _ => rfl) fun _ =>
                    respects_copyOnWrite _ _
            . exact respects_pushBlock _ _
      . exact respects_copyOnWrite _ _

theorem respects_freeBlockTable (blockTable : BlockTable)
    : Respects KeepsComputed (freeBlockTable blockTable) := by
  have hloop : ∀ blocks : BlockTable, Respects KeepsComputed (do
      let _ ← blocks.foldlM freeBlockTable.freeUnseen []) := by
    intro blocks
    refine respects_bind (Respects.foldlM KeepsComputed.refl KeepsComputed.trans ?_ _ _) fun _ =>
      respects_pure _
    intro blockIds block
    unfold freeBlockTable.freeUnseen
    split
    . exact respects_pure _
    . exact respects_bind (respects_freeBlock _ _) fun _ => respects_pure _
  unfold freeBlockTable
  apply Respects.get_bind
  intro current
  split
  . exact hloop _
  . split
    . exact hloop _
    . exact Respects.throw KeepsComputed.refl _

theorem respects_free (sequenceId : Nat) : Respects KeepsComputed (free sequenceId) := by
  unfold free
  apply Respects.get_bind
  intro current
  split
  . exact respects_pure _
  . exact respects_bind (respects_freeBlockTable _) fun _ => respects_modifyTables fun _ => rfl

end KeepsComputed

section Marked

variable {manager manager' : BlockSpaceManager} {sequenceId full : Nat}
variable {block : SyncPhysicalTokenBlock} {blockTable : BlockTable}

/--
The first `full` blocks of a table are computed, and no others. No other table has them.
-/
structure Marked (manager : BlockSpaceManager) (sequenceId full : Nat) (blockTable : BlockTable)
    : Prop where
  length_pos : 1 ≤ blockTable.length
  le_length : full ≤ blockTable.length
  computed : ∀ block ∈ blockTable.take full, (manager.blocks block).computed = true
  notComputed : ∀ block ∈ blockTable.drop full, (manager.blocks block).computed = false
  exclusive : ∀ block ∈ blockTable.take full, ∀ sequenceId', sequenceId' ≠ sequenceId →
    ∀ blockTable', manager.blockTables.lookup sequenceId' = some blockTable' →
      block ∉ blockTable'

theorem Marked.congr (h : manager.Marked sequenceId full blockTable)
    (hcomputed : ∀ block ∈ blockTable,
      (manager'.blocks block).computed = (manager.blocks block).computed)
    (hexclusive : ∀ block ∈ blockTable.take full, ∀ sequenceId', sequenceId' ≠ sequenceId →
      ∀ blockTable', manager'.blockTables.lookup sequenceId' = some blockTable' →
        block ∉ blockTable')
    : manager'.Marked sequenceId full blockTable := by
  refine ⟨h.length_pos, h.le_length, ?_, ?_, hexclusive⟩
  . intro block hblock
    rw [hcomputed block (List.mem_of_mem_take hblock)]
    exact h.computed block hblock
  . intro block hblock
    rw [hcomputed block (List.mem_of_mem_drop hblock)]
    exact h.notComputed block hblock

theorem Marked.getsAllComputedBlocks_eq (h : manager.Marked sequenceId full blockTable)
    (hlookup : manager.blockTables.lookup sequenceId = some blockTable)
    : manager.getsAllComputedBlocks sequenceId
        = .ok ((blockTable.take (min full (blockTable.length - 1))).map (·.blockNumber)) := by
  have hpos := h.length_pos
  have hfirst : ∀ block ∈ (blockTable.take (blockTable.length - 1)).take full,
      (manager.blocks block).computed = true := by
    intro block hblock
    rw [List.take_take] at hblock
    exact h.computed block (List.take_subset_take_left _ (Nat.min_le_left _ _) hblock)
  have hrest : ∀ block ∈ (blockTable.take (blockTable.length - 1)).drop full,
      ¬ (manager.blocks block).computed = true := by
    intro block hblock
    rw [List.drop_take] at hblock
    rw [h.notComputed block (List.mem_of_mem_take hblock)]
    exact Bool.false_ne_true
  unfold getsAllComputedBlocks
  rw [hlookup]
  dsimp only
  rw [if_neg (by omega), ← List.take_append_drop full (blockTable.take (blockTable.length - 1)),
    List.filter_append, List.filter_eq_self.mpr hfirst, List.filter_eq_nil_iff.mpr hrest,
    List.append_nil, List.take_take]

/--
A block that one table references once is in no other table.
-/
theorem Accounted.notMem_of_refCount_eq_one (h : manager.Accounted)
    (hlookup : manager.blockTables.lookup sequenceId = some blockTable) (hblock : block ∈ blockTable)
    (hcount : manager.pool.refCount block = 1) {sequenceId' : Nat} (hne : sequenceId' ≠ sequenceId)
    {blockTable' : BlockTable} (hlookup' : manager.blockTables.lookup sequenceId' = some blockTable')
    : block ∉ blockTable' := by
  intro hblock'
  have hown := mem_owned_of_mem hlookup hblock
  rw [h.balanced.refCount_eq block (h.balanced.mem_univ block hown), owned_eq hlookup,
    Multiset.count_add] at hcount
  have hfirst : 1 ≤ Multiset.count block (blockTable : Multiset SyncPhysicalTokenBlock) :=
    Multiset.one_le_count_iff_mem.mpr hblock
  have hother : 1 ≤ Multiset.count block (manager.ownedByOthers sequenceId) := by
    apply Multiset.one_le_count_iff_mem.mpr
    have herase : ({ manager with blockTables := manager.blockTables.erase sequenceId }
        : BlockSpaceManager).blockTables.lookup sequenceId' = some blockTable' := by
      change (manager.blockTables.erase sequenceId).lookup sequenceId' = _
      rw [AList.lookup_erase_ne hne, hlookup']
    exact mem_owned_of_mem herase hblock'
  omega

/--
A block that no other table has is referenced once.
-/
theorem Accounted.refCount_eq_one (h : manager.Accounted)
    (hlookup : manager.blockTables.lookup sequenceId = some blockTable) (hblock : block ∈ blockTable)
    (hexclusive : ∀ sequenceId', sequenceId' ≠ sequenceId →
      ∀ blockTable', manager.blockTables.lookup sequenceId' = some blockTable' →
        block ∉ blockTable')
    : manager.pool.refCount block = 1 := by
  have hown := mem_owned_of_mem hlookup hblock
  rw [h.balanced.refCount_eq block (h.balanced.mem_univ block hown), owned_eq hlookup,
    Multiset.count_add, Multiset.coe_count,
    List.count_eq_one_of_mem (h.nodup sequenceId blockTable hlookup) hblock]
  have hothers : block ∉ manager.ownedByOthers sequenceId := by
    intro hmem
    have hmem : block ∈ ({ manager with blockTables := manager.blockTables.erase sequenceId }
        : BlockSpaceManager).owned := hmem
    rcases mem_owned_iff_lookup.mp hmem with ⟨sequenceId', blockTable', hlookup', hblock'⟩
    change (manager.blockTables.erase sequenceId).lookup sequenceId' = _ at hlookup'
    by_cases hid : sequenceId' = sequenceId
    . rw [hid, AList.lookup_erase] at hlookup'
      cases hlookup'
    . rw [AList.lookup_erase_ne hid] at hlookup'
      exact hexclusive sequenceId' hid blockTable' hlookup' hblock'
  rw [Multiset.count_eq_zero_of_notMem hothers]

end Marked

section Taken

variable {manager manager' : BlockSpaceManager} {group : SequenceGroup} {heap : SequenceHeap}
variable {sequenceId : Nat} {sequence : Sequence} {cow : Option (Nat × Nat)}

/--
The table that `allocate` makes is the front of the free list.
-/
theorem allocate_takesFront (hwindow : manager.blockSlidingWindow = none)
    : Ends (allocate group heap) manager
        (fun _ manager' => ∀ sequenceId ∈ group.getSequencesIds heap .waiting,
          ∃ blockTable rest,
            manager'.blockTables.lookup sequenceId = some blockTable
              ∧ manager.pool.free .gpu = blockTable ++ rest)
        (fun _ => True) := by
  unfold allocate
  split
  . next hnone =>
    intro sequenceId hid
    rw [SequenceGroup.getSequencesIds_eq_nil hnone] at hid
    cases hid
  . apply Ends.bind (Ends.foldlM (fun blockTable current =>
      current.blockSlidingWindow = none
        ∧ manager.pool.free .gpu = blockTable ++ current.pool.free .gpu) ?_ ⟨hwindow, rfl⟩)
    . rintro blockTable current ⟨-, hfree⟩
      apply Ends.of_modify
      intro sequenceId hid
      refine ⟨blockTable, current.pool.free .gpu, ?_, hfree⟩
      rw [lookup_insertTables, if_pos hid]
    . rintro logicalIdx - blockTable current ⟨hwindow, hfree⟩
      unfold allocate.logicalBlock
      apply Ends.get_bind
      simp only [hwindow]
      apply Ends.bind (Ends.mono (allocateBlock_ends .gpu) (fun _ _ h => h) fun _ _ => trivial)
      rintro block taken ⟨rest, hrest, htaken⟩
      apply Ends.bind ((setRefCountBy_yields _).ends _)
      rintro _ written hwritten
      refine Ends.pure ⟨?_, ?_⟩
      . rw [hwritten.blockSlidingWindow_eq, htaken.blockSlidingWindow_eq, hwindow]
      . rw [hwritten.pool_eq, htaken.pool_eq, hfree, hrest]
        simp [RefPool.setCount, RefPool.take]

/--
`append_slots` takes a block from the free list, for the end of the table or for the copy of its last
block.
-/
def TakesBlock (manager : BlockSpaceManager) (sequenceId : Nat) (sequence : Sequence) : Prop :=
  ∃ blockTable,
    manager.blockTables.lookup sequenceId = some blockTable
      ∧ (blockTable.length < sequence.getNumTotalLogicalTokenBlocks
        ∨ ∃ block, blockTable.getLast? = some block ∧ manager.pool.refCount block ≠ 1)

theorem appendSlots_takesFirst (hwindow : manager.blockSlidingWindow = none)
    (hrun : (appendSlots sequenceId sequence).run manager = .ok cow manager')
    : manager' = manager
        ∨ manager.TakesBlock sequenceId sequence
          ∧ ∃ block rest init,
              manager.pool.free .gpu = block :: rest
                ∧ manager'.blockTables.lookup sequenceId = some (init ++ [block]) := by
  cases appendSlots_cases hrun with
  | missing _ hmanager => exact .inl hmanager
  | push blockTable hlookup hlength hrun =>
    simp only [appendSlots.pushBlock, bind_run_eq_ok] at hrun
    rcases hrun with ⟨block, _, hallocate, _, _, hmodify, hpure⟩
    cases hmodify
    cases hpure
    rcases sameTables_of_allocateBlock hallocate with ⟨rest, hrest, -⟩
    refine .inr ⟨⟨blockTable, hlookup, .inl (by omega)⟩, block, rest, blockTable, hrest, ?_⟩
    rw [lookup_insertTable, if_pos rfl]
  | reuse blockTable block blockSlidingWindow hlookup hsome =>
    rw [hwindow] at hsome
    cases hsome
  | full blockTable hlookup hlength hrun =>
    unfold appendSlots.copyOnWrite at hrun
    split at hrun
    . cases hrun
    . next last hlast =>
      simp only [bind_run_eq_ok] at hrun
      rcases hrun with ⟨_, _, hget, hrun⟩
      cases hget
      split at hrun
      . cases hrun
        exact .inl rfl
      . next hcount =>
        simp only [bind_run_eq_ok] at hrun
        rcases hrun with ⟨block, _, hallocate, _, _, -, _, _, hmodify, hpure⟩
        cases hmodify
        cases hpure
        rcases sameTables_of_allocateBlock hallocate with ⟨rest, hrest, -⟩
        refine .inr ⟨⟨blockTable, hlookup, .inr ⟨last, hlast, hcount⟩⟩, block, rest,
          blockTable.dropLast, hrest, ?_⟩
        rw [lookup_insertTable, if_pos rfl]

/--
The table keeps its front and gets a new block at its end. The blocks that leave it are shared.
-/
structure PutsLast (manager manager' : BlockSpaceManager) (sequenceId : Nat) (init rest : BlockTable)
    (block : SyncPhysicalTokenBlock) : Prop where
  lookup_eq : manager.blockTables.lookup sequenceId = some (init ++ rest)
  shared : ∀ last ∈ rest, 2 ≤ manager.pool.refCount last
  device_eq : block.device = .gpu
  notMem_owned : block ∉ manager.owned
  writesTable : manager.WritesTable manager' sequenceId (init ++ [block])

theorem Appended.eq_or_putsLast (h : Appended manager manager' sequenceId sequence cow)
    : manager' = manager ∨ ∃ init rest block, PutsLast manager manager' sequenceId init rest block := by
  cases h with
  | keep hmanager => exact .inl hmanager
  | push blockTable block hlookup _ hdevice hnew hwrites =>
    exact .inr ⟨blockTable, [], block, by simpa using hlookup, by simp, hdevice, hnew, hwrites⟩
  | copy init last block hlookup _ _ hcount hdevice hnew hwrites =>
    exact .inr ⟨init, [last], block, hlookup, by simpa using hcount, hdevice, hnew, hwrites⟩

/--
The new block is the first of the free list.
-/
theorem PutsLast.takesFirst {init rest : BlockTable} {block : SyncPhysicalTokenBlock}
    (h : PutsLast manager manager' sequenceId init rest block)
    (hwindow : manager.blockSlidingWindow = none)
    (hrun : (appendSlots sequenceId sequence).run manager = .ok cow manager')
    : manager.TakesBlock sequenceId sequence ∧ (manager.pool.free .gpu).head? = some block := by
  have hlookup : manager'.blockTables.lookup sequenceId = some (init ++ [block]) := by
    rw [h.writesTable.2, if_pos rfl]
  rcases appendSlots_takesFirst hwindow hrun with rfl | ⟨htakes, first, others, init', hfree, hlast⟩
  . exact absurd (mem_owned_of_mem hlookup (by simp)) h.notMem_owned
  . rw [hlookup] at hlast
    have hblock : block = first := by
      simpa using (List.append_inj' (Option.some.inj hlast) rfl).2
    rw [hfree, hblock]
    exact ⟨htakes, rfl⟩

end Taken

section SetComputed

variable {blocks : BlockHeap} {marked rest : BlockTable}

/--
The loop marks the blocks up to the first one that is computed.
-/
theorem computeFullBlocksInSequence.setComputed_append (hnodup : marked.Nodup)
    (hmarked : ∀ block ∈ marked, (blocks block).computed = false)
    (hrest : ∀ block ∈ rest.head?, (blocks block).computed = true)
    : setComputed blocks (marked ++ rest)
        = fun block =>
            if block ∈ marked then (blocks block).setComputed true else blocks block := by
  induction marked generalizing blocks with
  | nil =>
    have hstop : setComputed blocks rest = blocks := by
      cases rest with
      | nil => rfl
      | cons block rest =>
        unfold setComputed
        rw [if_pos (hrest block rfl)]
    simpa using hstop
  | cons head marked ih =>
    rw [List.nodup_cons] at hnodup
    have hhead := hmarked head List.mem_cons_self
    have hne : ∀ block, (blocks block).computed = true → block ≠ head := by
      rintro block hblock rfl
      rw [hhead] at hblock
      cases hblock
    rw [List.cons_append]
    unfold setComputed
    rw [hhead, if_neg Bool.false_ne_true, ih hnodup.2]
    . funext block
      by_cases heq : block = head
      . subst heq
        simp [hnodup.1]
      . simp [heq]
    . intro block hblock
      have hne : block ≠ head := by
        rintro rfl
        exact hnodup.1 hblock
      rw [Function.update_of_ne hne]
      exact hmarked block (List.mem_cons_of_mem _ hblock)
    . intro block hblock
      rw [Function.update_of_ne (hne block (hrest block hblock))]
      exact hrest block hblock

end SetComputed

inductive ComputedCall where
  | allocate (group : SequenceGroup) (heap : SequenceHeap)
  | appendSlots (group : SequenceGroup) (heap : SequenceHeap) (sequence : SequenceRef)
  | free (sequenceId : Nat)
  | computeFullBlocksInSequence (sequenceId : Nat) (sequence : Sequence)

/--
A manager, and the number of full blocks that each sequence had when they were computed last.
-/
structure ComputedRun where
  manager : BlockSpaceManager
  fullBlocks : Nat → Nat

namespace ComputedRun

def init (blockSize numCpuBlocks numGpuBlocks : Nat) : ComputedRun where
  manager := BlockSpaceManager.new blockSize numCpuBlocks numGpuBlocks none
  fullBlocks := fun _ => 0

/--
The state after a call.
-/
def call (run : ComputedRun) (call : ComputedCall) : ComputedRun :=
  match call with
  | .allocate group heap => {
    manager := (BlockSpaceManager.allocate group heap).finalState run.manager
    fullBlocks := fun sequenceId =>
      if sequenceId ∈ group.getSequencesIds heap .waiting then 0 else run.fullBlocks sequenceId
  }
  | .appendSlots _ heap sequence => {
    run with
    manager := (BlockSpaceManager.appendSlots sequence.sequenceId (heap sequence)).finalState
      run.manager
  }
  | .free sequenceId => {
    run with
    manager := (BlockSpaceManager.free sequenceId).finalState run.manager
  }
  | .computeFullBlocksInSequence sequenceId sequence => {
    manager := (BlockSpaceManager.computeFullBlocksInSequence sequenceId sequence).finalState
      run.manager
    fullBlocks := Function.update run.fullBlocks sequenceId
      (sequence.length / run.manager.blockSize)
  }

/--
What the callers see to: the guards of the operations hold, and a sequence does not lose tokens.
-/
def Guarded (run : ComputedRun) (call : ComputedCall) : Prop :=
  match call with
  | .allocate group heap =>
    (group.getSequencesIds heap .waiting).Nodup
      ∧ (∀ sequenceId ∈ group.getSequencesIds heap .waiting,
          run.manager.blockTables.lookup sequenceId = none)
      ∧ run.manager.canAllocate group heap = .ok
  | .appendSlots group heap sequence =>
    sequence ∈ group.getSeqs heap .running ∧ run.manager.canAppendSlots group heap
  | .free _ => True
  | .computeFullBlocksInSequence sequenceId sequence =>
    sequenceId ∈ run.manager.blockTables →
      run.fullBlocks sequenceId ≤ sequence.length / run.manager.blockSize

/--
The blocks that a call takes from the free list are not marked, a table that is made is not empty,
and the blocks that are to be marked are there and belong to one table only.
-/
def Unmarked (run : ComputedRun) (call : ComputedCall) : Prop :=
  match call with
  | .allocate group heap =>
    ∀ sequence, group.getFirstSequence heap .waiting = some sequence →
      1 ≤ (heap sequence).getNumTotalLogicalTokenBlocks
        ∧ ∀ block ∈ (run.manager.pool.free .gpu).take (heap sequence).getNumTotalLogicalTokenBlocks,
            (run.manager.blocks block).computed = false
  | .appendSlots _ heap sequence =>
    run.manager.TakesBlock sequence.sequenceId (heap sequence) →
      ∀ block ∈ (run.manager.pool.free .gpu).head?, (run.manager.blocks block).computed = false
  | .free _ => True
  | .computeFullBlocksInSequence sequenceId sequence =>
    ∀ blockTable, run.manager.blockTables.lookup sequenceId = some blockTable →
      sequence.length / run.manager.blockSize ≤ blockTable.length
        ∧ ∀ block ∈ blockTable.take (sequence.length / run.manager.blockSize),
            (run.manager.blocks block).computed = false → (run.manager.blocks block).refCount = 1

/--
The first full blocks of the sequence are reported, without the last block of its table.
-/
def ReportsFull (run : ComputedRun) (sequenceId : Nat) : Prop :=
  run.manager.getsAllComputedBlocks sequenceId
    = .ok (match run.manager.blockTables.lookup sequenceId with
      | none => []
      | some blockTable =>
        (blockTable.take (min (run.fullBlocks sequenceId) (blockTable.length - 1))).map
          (·.blockNumber))

structure Invariant (run : ComputedRun) : Prop where
  accounted : run.manager.Accounted
  device_eq : ∀ sequenceId blockTable,
    run.manager.blockTables.lookup sequenceId = some blockTable →
      ∀ block ∈ blockTable, block.device = .gpu
  marked : ∀ sequenceId blockTable,
    run.manager.blockTables.lookup sequenceId = some blockTable →
      run.manager.Marked sequenceId (run.fullBlocks sequenceId) blockTable

variable {run : ComputedRun} {group : SequenceGroup} {heap : SequenceHeap}

theorem invariant_init (blockSize numCpuBlocks numGpuBlocks : Nat)
    : (init blockSize numCpuBlocks numGpuBlocks).Invariant := by
  refine ⟨accounted_new blockSize numCpuBlocks numGpuBlocks, ?_, ?_⟩
  . intro sequenceId blockTable hlookup
    cases hlookup
  . intro sequenceId blockTable hlookup
    cases hlookup

theorem Invariant.reportsFull (h : run.Invariant) (sequenceId : Nat)
    : run.ReportsFull sequenceId := by
  unfold ReportsFull
  cases hlookup : run.manager.blockTables.lookup sequenceId with
  | none =>
    unfold getsAllComputedBlocks
    rw [hlookup]
  | some blockTable => exact (h.marked sequenceId blockTable hlookup).getsAllComputedBlocks_eq hlookup

theorem Invariant.allocate (h : run.Invariant) (hguarded : run.Guarded (.allocate group heap))
    (hunmarked : run.Unmarked (.allocate group heap))
    : (run.call (.allocate group heap)).Invariant := by
  rcases hguarded with ⟨hnodup, hnone, hcan⟩
  rcases (allocate_yields h.accounted hnodup hnone hcan) with
    ⟨_, manager', hrun, sequence, blockTable, hfirst, hlength, -, hnew, -, hlookup, haccounted⟩
  have hkeeps : run.manager.KeepsComputed manager' := by
    have := respects_allocate group heap run.manager
    unfold Ends at this
    rwa [hrun] at this
  have htakes : ∀ sequenceId ∈ group.getSequencesIds heap .waiting,
      ∃ blockTable rest,
        manager'.blockTables.lookup sequenceId = some blockTable
          ∧ run.manager.pool.free .gpu = blockTable ++ rest := by
    have := @allocate_takesFront run.manager group heap h.accounted.blockSlidingWindow_eq
    unfold Ends at this
    rwa [hrun] at this
  have hfinal : (BlockSpaceManager.allocate group heap).finalState run.manager = manager' := by
    unfold EStateM.finalState
    rw [hrun]
  unfold ComputedRun.call
  dsimp only
  rw [hfinal]
  refine ⟨haccounted, ?_, ?_⟩
  . intro sequenceId table hsome
    change manager'.blockTables.lookup sequenceId = some table at hsome
    rw [hlookup] at hsome
    split at hsome
    . cases hsome
      exact fun block hblock => (hnew block hblock).1
    . exact h.device_eq sequenceId table hsome
  . intro sequenceId table hsome
    change manager'.blockTables.lookup sequenceId = some table at hsome
    change manager'.Marked sequenceId
      (if sequenceId ∈ group.getSequencesIds heap .waiting then 0 else run.fullBlocks sequenceId)
      table
    by_cases hid : sequenceId ∈ group.getSequencesIds heap .waiting
    . rw [if_pos hid]
      rcases htakes sequenceId hid with ⟨table', rest, hlookup', hfree⟩
      rw [hlookup'] at hsome
      cases hsome
      rw [hlookup, if_pos hid] at hlookup'
      cases hlookup'
      rcases hunmarked sequence hfirst with ⟨hpos, hunmarked⟩
      rw [← hlength, hfree, List.take_left] at hunmarked
      refine ⟨by omega, Nat.zero_le _, by simp, ?_, by simp⟩
      intro block hblock
      rw [hkeeps]
      exact hunmarked block hblock
    . rw [if_neg hid]
      have hold := hsome
      rw [hlookup, if_neg hid] at hold
      have hmarked := h.marked sequenceId table hold
      apply hmarked.congr fun block _ => hkeeps block
      intro block hblock sequenceId' hne table' hlookup'
      rw [hlookup] at hlookup'
      split at hlookup'
      . cases hlookup'
        intro hmem
        exact (hnew block hmem).2 (mem_owned_of_mem hold (List.mem_of_mem_take hblock))
      . exact hmarked.exclusive block hblock sequenceId' hne table' hlookup'

/--
The marked blocks of a table are not shared, so that they stay in it.
-/
theorem Invariant.le_length (h : run.Invariant) {manager' : BlockSpaceManager} {sequenceId : Nat}
    {init rest : BlockTable} {block : SyncPhysicalTokenBlock}
    (hputs : PutsLast run.manager manager' sequenceId init rest block)
    : run.fullBlocks sequenceId ≤ init.length := by
  have hmarked := h.marked sequenceId _ hputs.lookup_eq
  by_contra hlt
  have hle := hmarked.le_length
  cases rest with
  | nil =>
    rw [List.append_nil] at hle
    exact hlt hle
  | cons last rest =>
    have hmem : last ∈ (init ++ last :: rest).take (run.fullBlocks sequenceId) := by
      rw [List.take_append, List.mem_append]
      right
      obtain ⟨n, hn⟩ : ∃ n, run.fullBlocks sequenceId - init.length = n + 1 :=
        ⟨run.fullBlocks sequenceId - init.length - 1, by omega⟩
      rw [hn, List.take_succ_cons]
      exact List.mem_cons_self
    have hone := h.accounted.refCount_eq_one hputs.lookup_eq (List.mem_of_mem_take hmem)
      (hmarked.exclusive last hmem)
    have := hputs.shared last List.mem_cons_self
    omega

theorem Invariant.of_putsLast (h : run.Invariant) {manager' : BlockSpaceManager} {sequenceId : Nat}
    {init rest : BlockTable} {block : SyncPhysicalTokenBlock}
    (hputs : PutsLast run.manager manager' sequenceId init rest block)
    (haccounted : manager'.Accounted) (hkeeps : run.manager.KeepsComputed manager')
    (hunmarked : (run.manager.blocks block).computed = false)
    : Invariant { run with manager := manager' } := by
  have hlookup := hputs.writesTable.2
  have hmarked := h.marked sequenceId _ hputs.lookup_eq
  have hle := h.le_length hputs
  -- a block that had a table before is in the same tables as before
  have hold : ∀ other ∈ run.manager.owned, ∀ sequenceId' table',
      manager'.blockTables.lookup sequenceId' = some table' → other ∈ table' →
        ∃ table, run.manager.blockTables.lookup sequenceId' = some table ∧ other ∈ table := by
    intro other hown sequenceId' table' hsome hmem
    rw [hlookup] at hsome
    split at hsome
    . next hid =>
      cases hsome
      refine ⟨init ++ rest, hid ▸ hputs.lookup_eq, ?_⟩
      rcases List.mem_append.mp hmem with hmem | hmem
      . exact List.mem_append_left _ hmem
      . rw [List.mem_singleton.mp hmem] at hown
        exact absurd hown hputs.notMem_owned
    . exact ⟨table', hsome, hmem⟩
  refine ⟨haccounted, ?_, ?_⟩
  . intro sequenceId' table hsome
    change manager'.blockTables.lookup sequenceId' = some table at hsome
    rw [hlookup] at hsome
    split at hsome
    . cases hsome
      intro other hother
      rcases List.mem_append.mp hother with hother | hother
      . exact h.device_eq sequenceId _ hputs.lookup_eq other (List.mem_append_left _ hother)
      . rw [List.mem_singleton.mp hother]
        exact hputs.device_eq
    . exact h.device_eq sequenceId' table hsome
  . intro sequenceId' table hsome
    change manager'.blockTables.lookup sequenceId' = some table at hsome
    change manager'.Marked sequenceId' (run.fullBlocks sequenceId') table
    rw [hlookup] at hsome
    split at hsome
    . next hid =>
      subst hid
      cases hsome
      have htake : (init ++ [block]).take (run.fullBlocks sequenceId')
          = (init ++ rest).take (run.fullBlocks sequenceId') := by
        rw [List.take_append_of_le_length hle, List.take_append_of_le_length hle]
      refine ⟨by simp, by simp; omega, ?_, ?_, ?_⟩
      . intro other hother
        rw [hkeeps]
        exact hmarked.computed other (htake ▸ hother)
      . intro other hother
        rw [hkeeps]
        rw [List.drop_append_of_le_length hle] at hother
        rcases List.mem_append.mp hother with hother | hother
        . apply hmarked.notComputed other
          rw [List.drop_append_of_le_length hle]
          exact List.mem_append_left _ hother
        . rw [List.mem_singleton.mp hother]
          exact hunmarked
      . intro other hother id' hne table' hsome' hmem
        rw [htake] at hother
        have hown := mem_owned_of_mem hputs.lookup_eq (List.mem_of_mem_take hother)
        rcases hold other hown id' table' hsome' hmem with ⟨table, hlookup', hmem'⟩
        exact hmarked.exclusive other hother id' hne table hlookup' hmem'
    . have hother := h.marked sequenceId' table hsome
      apply hother.congr fun other _ => hkeeps other
      intro other hmem id' hne table' hsome' hmem'
      have hown := mem_owned_of_mem hsome (List.mem_of_mem_take hmem)
      rcases hold other hown id' table' hsome' hmem' with ⟨table, hlookup', hmem''⟩
      exact hother.exclusive other hmem id' hne table hlookup' hmem''

theorem Invariant.appendSlots {sequence : SequenceRef} (h : run.Invariant)
    (hunmarked : run.Unmarked (.appendSlots group heap sequence))
    : (run.call (.appendSlots group heap sequence)).Invariant := by
  have hends : Ends (BlockSpaceManager.appendSlots sequence.sequenceId (heap sequence)) run.manager
      (fun _ _ => True) (· = run.manager) :=
    appendSlots_ends h.accounted
  have hkeeps := respects_appendSlots sequence.sequenceId (heap sequence) run.manager
  unfold Ends at hends hkeeps
  unfold ComputedRun.call EStateM.finalState
  dsimp only
  cases hrun : (BlockSpaceManager.appendSlots sequence.sequenceId (heap sequence)).run run.manager with
  | error e manager' =>
    rw [hrun] at hends
    dsimp only at hends ⊢
    rw [hends]
    exact h
  | ok cow manager' =>
    rw [hrun] at hkeeps
    have happended := appended_of_run h.accounted (h.device_eq sequence.sequenceId) hrun
    rcases happended.eq_or_putsLast with rfl | ⟨init, rest, block, hputs⟩
    . exact h
    . rcases hputs.takesFirst h.accounted.blockSlidingWindow_eq hrun with ⟨htakes, hfirst⟩
      exact h.of_putsLast hputs (happended.accounted' h.accounted) hkeeps
        (hunmarked htakes block hfirst)

theorem Invariant.free (h : run.Invariant) (sequenceId : Nat)
    : (run.call (.free sequenceId)).Invariant := by
  rcases free_yields h.accounted sequenceId with ⟨_, manager', hrun, -, hlookup, haccounted⟩
  have hkeeps : run.manager.KeepsComputed manager' := by
    have := respects_free sequenceId run.manager
    unfold Ends at this
    rwa [hrun] at this
  have hfinal : (BlockSpaceManager.free sequenceId).finalState run.manager = manager' := by
    unfold EStateM.finalState
    rw [hrun]
  have hold : ∀ sequenceId' table, manager'.blockTables.lookup sequenceId' = some table →
      run.manager.blockTables.lookup sequenceId' = some table := by
    intro sequenceId' table hsome
    rw [hlookup] at hsome
    split at hsome
    . cases hsome
    . exact hsome
  unfold ComputedRun.call
  dsimp only
  rw [hfinal]
  refine ⟨haccounted, fun sequenceId' table hsome => h.device_eq sequenceId' table (hold _ _ hsome),
    ?_⟩
  intro sequenceId' table hsome
  have hmarked := h.marked sequenceId' table (hold _ _ hsome)
  apply hmarked.congr fun block _ => hkeeps block
  intro block hblock id' hne table' hsome'
  exact hmarked.exclusive block hblock id' hne table' (hold _ _ hsome')

/--
The state of `run` after `marked` are marked.
-/
def mark (run : ComputedRun) (sequenceId full : Nat) (marked : BlockTable) : ComputedRun where
  manager := {
    run.manager with
    blocks := fun block =>
      if block ∈ marked then (run.manager.blocks block).setComputed true
      else run.manager.blocks block
  }
  fullBlocks := Function.update run.fullBlocks sequenceId full

theorem pool_mark (sequenceId full : Nat) (marked : BlockTable)
    : (run.mark sequenceId full marked).manager.pool = run.manager.pool := by
  have hcount : ∀ block, ((run.mark sequenceId full marked).manager.blocks block).refCount
      = (run.manager.blocks block).refCount := by
    intro block
    unfold mark
    dsimp only
    split <;> rfl
  unfold BlockSpaceManager.pool
  congr 1
  funext block
  exact hcount block

theorem accounted_mark (h : run.manager.Accounted) (sequenceId full : Nat) (marked : BlockTable)
    : (run.mark sequenceId full marked).manager.Accounted := by
  have hconfig : run.manager.SameConfig (run.mark sequenceId full marked).manager :=
    ⟨rfl, rfl, rfl, fun device => by cases device <;> rfl⟩
  apply h.of_tables hconfig
  . rw [pool_mark]
    exact h.balanced
  . exact fun _ _ hlookup => .inl hlookup

/--
The blocks of a table up to `full` are marked. They belong to this table only.
-/
theorem Invariant.mark (h : run.Invariant) {sequenceId full : Nat} {blockTable : BlockTable}
    (hlookup : run.manager.blockTables.lookup sequenceId = some blockTable)
    (hgrows : run.fullBlocks sequenceId ≤ full) (hle : full ≤ blockTable.length)
    (hunshared : ∀ block ∈ blockTable.take full, (run.manager.blocks block).computed = false →
      (run.manager.blocks block).refCount = 1)
    : (run.mark sequenceId full
        ((blockTable.take full).drop (run.fullBlocks sequenceId))).Invariant := by
  have hmarked := h.marked sequenceId blockTable hlookup
  have htake : (blockTable.take full).take (run.fullBlocks sequenceId)
      = blockTable.take (run.fullBlocks sequenceId) := by
    rw [List.take_take, Nat.min_eq_left hgrows]
  have hnodup := h.accounted.nodup sequenceId blockTable hlookup
  have hexclusive : ∀ block ∈ (blockTable.take full).drop (run.fullBlocks sequenceId),
      ∀ sequenceId', sequenceId' ≠ sequenceId → ∀ blockTable',
        run.manager.blockTables.lookup sequenceId' = some blockTable' → block ∉ blockTable' := by
    intro block hblock sequenceId' hne blockTable' hlookup'
    have hfull := List.mem_of_mem_drop hblock
    refine h.accounted.notMem_of_refCount_eq_one hlookup (List.mem_of_mem_take hfull)
      (hunshared block hfull ?_) hne hlookup'
    rw [List.drop_take] at hblock
    exact hmarked.notComputed block (List.mem_of_mem_take hblock)
  refine ⟨accounted_mark h.accounted _ _ _, h.device_eq, ?_⟩
  intro sequenceId' table hsome
  change run.manager.blockTables.lookup sequenceId' = some table at hsome
  change Marked _ sequenceId' (Function.update run.fullBlocks sequenceId full sequenceId') table
  by_cases hid : sequenceId' = sequenceId
  . subst hid
    rw [hlookup] at hsome
    cases hsome
    rw [Function.update_self]
    refine ⟨hmarked.length_pos, hle, ?_, ?_, ?_⟩
    . intro block hblock
      unfold ComputedRun.mark
      dsimp only
      split
      . rfl
      . next hold =>
        rw [← List.take_append_drop (run.fullBlocks sequenceId') (blockTable.take full), htake,
          List.mem_append] at hblock
        exact hmarked.computed block (hblock.resolve_right hold)
    . intro block hblock
      unfold ComputedRun.mark
      dsimp only
      have hnot : block ∉ (blockTable.take full).drop (run.fullBlocks sequenceId') := by
        intro hmem
        exact (List.disjoint_take_drop hnodup le_rfl) (List.mem_of_mem_drop hmem) hblock
      rw [if_neg hnot]
      exact hmarked.notComputed block (List.drop_subset_drop_left _ hgrows hblock)
    . intro block hblock id' hne table' hlookup'
      rw [← List.take_append_drop (run.fullBlocks sequenceId') (blockTable.take full), htake,
        List.mem_append] at hblock
      rcases hblock with hblock | hblock
      . exact hmarked.exclusive block hblock id' hne table' hlookup'
      . exact hexclusive block hblock id' hne table' hlookup'
  . rw [Function.update_of_ne hid]
    have hother := h.marked sequenceId' table hsome
    refine hother.congr ?_ fun block hblock => hother.exclusive block hblock
    intro block hblock
    unfold ComputedRun.mark
    dsimp only
    rw [if_neg fun hmem => hexclusive block hmem sequenceId' hid table hsome hblock]

/--
The state after the full blocks are marked: those that were not marked before.
-/
theorem Invariant.computeFullBlocksInSequence_run (h : run.Invariant) {sequenceId : Nat}
    {sequence : Sequence} {blockTable : BlockTable}
    (hlookup : run.manager.blockTables.lookup sequenceId = some blockTable)
    (hle : run.fullBlocks sequenceId ≤ sequence.length / run.manager.blockSize)
    : (BlockSpaceManager.computeFullBlocksInSequence sequenceId sequence).finalState run.manager = {
        run.manager with
        blocks := fun block =>
          if block ∈ (blockTable.take (sequence.length / run.manager.blockSize)).drop
              (run.fullBlocks sequenceId) then
            (run.manager.blocks block).setComputed true
          else
            run.manager.blocks block } := by
  have hmarked := h.marked sequenceId blockTable hlookup
  generalize hfull : sequence.length / run.manager.blockSize = full at *
  have hsplit : (blockTable.take full).reverse
      = ((blockTable.take full).drop (run.fullBlocks sequenceId)).reverse
        ++ (blockTable.take (run.fullBlocks sequenceId)).reverse := by
    rw [← List.reverse_append]
    congr 1
    have htake : blockTable.take (run.fullBlocks sequenceId)
        = (blockTable.take full).take (run.fullBlocks sequenceId) := by
      rw [List.take_take, Nat.min_eq_left hle]
    rw [htake, List.take_append_drop]
  have hset : computeFullBlocksInSequence.setComputed run.manager.blocks (blockTable.take full).reverse
      = fun block =>
          if block ∈ (blockTable.take full).drop (run.fullBlocks sequenceId) then
            (run.manager.blocks block).setComputed true
          else
            run.manager.blocks block := by
    rw [hsplit, computeFullBlocksInSequence.setComputed_append]
    . simp only [List.mem_reverse]
    . rw [List.nodup_reverse]
      exact (h.accounted.nodup sequenceId blockTable hlookup).sublist
        ((List.drop_sublist _ _).trans (List.take_sublist _ _))
    . intro block hblock
      rw [List.mem_reverse, List.drop_take] at hblock
      exact hmarked.notComputed block (List.mem_of_mem_take hblock)
    . intro block hblock
      exact hmarked.computed block (List.mem_reverse.mp (List.mem_of_head? hblock))
  have hnothing : full = 0 →
      (fun block =>
        if block ∈ (blockTable.take full).drop (run.fullBlocks sequenceId) then
          (run.manager.blocks block).setComputed true
        else
          run.manager.blocks block) = run.manager.blocks := by
    rintro rfl
    simp
  unfold EStateM.finalState BlockSpaceManager.computeFullBlocksInSequence
  simp only [run_bind, run_get, hlookup]
  by_cases hsize : run.manager.blockSize = 0
  . rw [if_pos hsize]
    rw [hsize, Nat.div_zero] at hfull
    rw [hnothing hfull.symm]
    rfl
  . rw [if_neg hsize, hfull]
    by_cases hzero : full = 0
    . rw [if_pos hzero, hnothing hzero]
      rfl
    . rw [if_neg hzero, hset]
      rfl

theorem Invariant.computeFullBlocksInSequence (h : run.Invariant) {sequenceId : Nat}
    {sequence : Sequence} (hguarded : run.Guarded (.computeFullBlocksInSequence sequenceId sequence))
    (hunmarked : run.Unmarked (.computeFullBlocksInSequence sequenceId sequence))
    : (run.call (.computeFullBlocksInSequence sequenceId sequence)).Invariant := by
  unfold ComputedRun.call
  dsimp only
  cases hlookup : run.manager.blockTables.lookup sequenceId with
  | none =>
    have hfinal : (BlockSpaceManager.computeFullBlocksInSequence sequenceId sequence).finalState
        run.manager = run.manager := by
      unfold EStateM.finalState BlockSpaceManager.computeFullBlocksInSequence
      simp only [run_bind, run_get, hlookup]
      rfl
    rw [hfinal]
    refine ⟨h.accounted, h.device_eq, ?_⟩
    intro sequenceId' table hsome
    change run.manager.blockTables.lookup sequenceId' = some table at hsome
    have hne : sequenceId' ≠ sequenceId := by
      rintro rfl
      rw [hlookup] at hsome
      cases hsome
    change run.manager.Marked sequenceId' (Function.update run.fullBlocks sequenceId _ sequenceId') table
    rw [Function.update_of_ne hne]
    exact h.marked sequenceId' table hsome
  | some blockTable =>
    have hmem : sequenceId ∈ run.manager.blockTables := by
      rw [← AList.lookup_isSome, hlookup]
      rfl
    have hgrows := hguarded hmem
    rcases hunmarked blockTable hlookup with ⟨hle, hunshared⟩
    rw [h.computeFullBlocksInSequence_run hlookup hgrows]
    exact h.mark hlookup hgrows hle hunshared

/--
A run of calls that meet the condition in the state that they are made in.
-/
def Reaches (condition : ComputedRun → ComputedCall → Prop) (run run' : ComputedRun) : Prop :=
  Relation.ReflTransGen (fun run run' => ∃ call, condition run call ∧ run' = run.call call) run run'

theorem invariant_of_reaches {blockSize numCpuBlocks numGpuBlocks : Nat}
    (h : Reaches (fun run call => run.Guarded call ∧ run.Unmarked call)
      (init blockSize numCpuBlocks numGpuBlocks) run)
    : run.Invariant := by
  induction h with
  | refl => exact invariant_init blockSize numCpuBlocks numGpuBlocks
  | tail _ hstep ih =>
    rcases hstep with ⟨call, ⟨hguarded, hunmarked⟩, rfl⟩
    cases call with
    | allocate group heap => exact ih.allocate hguarded hunmarked
    | appendSlots group heap sequence => exact ih.appendSlots hunmarked
    | free sequenceId => exact ih.free sequenceId
    | computeFullBlocksInSequence sequenceId sequence =>
      exact ih.computeFullBlocksInSequence hguarded hunmarked

/--
The blocks that are reported are the full ones, as long as no block is handed out that is still
marked.
-/
theorem reportsFull_of_reaches {blockSize numCpuBlocks numGpuBlocks : Nat}
    (h : Reaches (fun run call => run.Guarded call ∧ run.Unmarked call)
      (init blockSize numCpuBlocks numGpuBlocks) run) (sequenceId : Nat)
    : run.ReportsFull sequenceId :=
  (invariant_of_reaches h).reportsFull sequenceId

/--
The blocks of a sequence with three tokens are allocated and marked.
-/
def marking : ComputedRun :=
  ((init 1 3 3).call (.allocate (oneTokenGroup [⟨0, 0⟩]) fun _ => threeTokens)).call
    (.computeFullBlocksInSequence 0 threeTokens)

theorem reaches_marking
    : Reaches (fun run call => run.Guarded call ∧ run.Unmarked call) (init 1 3 3) marking := by
  refine (Relation.ReflTransGen.refl.tail ⟨.allocate (oneTokenGroup [⟨0, 0⟩]) fun _ => threeTokens,
    ⟨⟨by decide, fun _ _ => rfl, by decide +kernel⟩, ?_⟩, rfl⟩).tail
    ⟨.computeFullBlocksInSequence 0 threeTokens, ⟨fun _ => Nat.zero_le _, ?_⟩, rfl⟩
  . intro sequence hsequence
    cases hsequence
    exact ⟨by decide, by decide +kernel⟩
  . intro blockTable hlookup
    cases hlookup
    exact ⟨by decide +kernel, by decide +kernel⟩

theorem reportsFull_of_reaches_marking
    : marking.ReportsFull 0 ∧ marking.manager.getsAllComputedBlocks 0 = .ok [2, 1] :=
  ⟨reportsFull_of_reaches reaches_marking 0, by decide +kernel⟩

/--
The marked blocks are freed, and allocated to another sequence.
-/
def reusing : ComputedRun :=
  (marking.call (.free 0)).call (.allocate (oneTokenGroup [⟨1, 1⟩]) fun _ => threeTokens)

/--
Two blocks are reported for the sequence 1, of which no block has been computed.
-/
theorem not_reportsFull_reusing
    : Reaches Guarded (init 1 3 3) reusing
        ∧ reusing.fullBlocks 1 = 0
        ∧ reusing.manager.getsAllComputedBlocks 1 = .ok [0, 1]
        ∧ ¬ reusing.ReportsFull 1 := by
  have hgets : reusing.manager.getsAllComputedBlocks 1 = .ok [0, 1] := by
    decide +kernel
  refine ⟨?_, rfl, hgets, ?_⟩
  . have hmarking : Reaches Guarded (init 1 3 3) marking := by
      refine Relation.ReflTransGen.mono ?_ _ _ reaches_marking
      rintro run run' ⟨call, hcall, heq⟩
      exact ⟨call, hcall.1, heq⟩
    refine (hmarking.tail ⟨.free 0, trivial, rfl⟩).tail
      ⟨.allocate (oneTokenGroup [⟨1, 1⟩]) fun _ => threeTokens, ⟨by decide, ?_, by decide +kernel⟩,
        rfl⟩
    decide +kernel
  . intro hreports
    unfold ReportsFull at hreports
    rw [hgets] at hreports
    exact absurd hreports (by decide +kernel)

end ComputedRun

end BlockSpaceManager

end AtomaInfer
