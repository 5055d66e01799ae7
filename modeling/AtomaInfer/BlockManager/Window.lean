import AtomaInfer.BlockManager.Frame
import AtomaInfer.BlockManager.Run

/-!
A block manager with a sliding window and a view of it without one. The view has the same blocks, and
its tables list every block once. An operation that treats every block of a table as one reference does
to the manager what it does to the view.
-/

namespace AtomaInfer

namespace BlockSpaceManager

open EStateM RefPool

abbrev BlockTables := AList fun _ : Nat => BlockTable

/--
The manager without a window and with other tables.
-/
def unwound (manager : BlockSpaceManager) (blockTables : BlockTables) : BlockSpaceManager :=
  { manager with blockTables, blockSlidingWindow := none }

/--
`view` is the manager without its window. The tables of the two are `blockTables` and `viewTables`.
-/
structure Mirrors (window : Nat) (blockTables viewTables : BlockTables)
    (manager view : BlockSpaceManager) : Prop where
  blockSlidingWindow_eq : manager.blockSlidingWindow = some window
  blockTables_eq : manager.blockTables = blockTables
  view_eq : view = manager.unwound viewTables

section Primitives

variable {window : Nat} {blockTables viewTables : BlockTables} {manager view : BlockSpaceManager}
variable {device : BlockDevice} {block : SyncPhysicalTokenBlock}
variable (h : Mirrors window blockTables viewTables manager view)
include h

theorem Mirrors.allocator_eq (device : BlockDevice)
    : view.allocator device = manager.allocator device := by
  rw [h.view_eq]
  cases device <;> rfl

theorem Mirrors.setAllocator {allocator : BlockAllocator} {blocks : BlockHeap}
    : Mirrors window blockTables viewTables { manager.setAllocator device allocator with blocks }
        { view.setAllocator device allocator with blocks } := by
  constructor
  . rw [← h.blockSlidingWindow_eq]
    cases device <;> rfl
  . rw [← h.blockTables_eq]
    cases device <;> rfl
  . rw [h.view_eq]
    cases device <;> rfl

theorem allocateBlock_tracks
    : Tracks (allocateBlock device) (allocateBlock device) (Mirrors window blockTables viewTables)
        manager view := by
  unfold allocateBlock
  apply Tracks.get_bind
  have hblocks : view.blocks = manager.blocks := by rw [h.view_eq]; rfl
  rw [h.allocator_eq, hblocks]
  cases (manager.allocator device).allocate manager.blocks with
  | error e =>
    intro b v' hrun
    cases hrun
  | ok result =>
    intro b v' hrun
    cases hrun
    exact ⟨_, rfl, h.setAllocator⟩

theorem freeBlock_tracks
    : Tracks (freeBlock device block) (freeBlock device block) (Mirrors window blockTables viewTables)
        manager view := by
  unfold freeBlock
  apply Tracks.get_bind
  have hblocks : view.blocks = manager.blocks := by rw [h.view_eq]; rfl
  rw [h.allocator_eq, hblocks]
  cases (manager.allocator device).free manager.blocks block with
  | error e =>
    intro b v' hrun
    cases hrun
  | ok result =>
    intro b v' hrun
    cases hrun
    exact ⟨_, rfl, h.setAllocator⟩

theorem writeBlock_tracks {f : PhysicalTokenBlock → PhysicalTokenBlock}
    : Tracks (writeBlock block f) (writeBlock block f) (Mirrors window blockTables viewTables)
        manager view := by
  apply Tracks.of_modify
  refine ⟨h.blockSlidingWindow_eq, h.blockTables_eq, ?_⟩
  rw [h.view_eq]
  rfl

theorem Mirrors.insertTable (sequenceId : Nat) (blockTable viewTable : BlockTable)
    : Mirrors window (blockTables.insert sequenceId blockTable)
        (viewTables.insert sequenceId viewTable)
        (manager.insertTable sequenceId blockTable) (view.insertTable sequenceId viewTable) := by
  constructor
  . exact h.blockSlidingWindow_eq
  . rw [← h.blockTables_eq]
    rfl
  . rw [h.view_eq]
    rfl

end Primitives

section Dedup

/--
A loop that acts on the blocks whose number it has not seen yet acts on every block once.
-/
theorem foldlM_eq_forM {f : List Nat → SyncPhysicalTokenBlock → BlockSpaceM (List Nat)}
    {act : SyncPhysicalTokenBlock → BlockSpaceM PUnit}
    (hseen : ∀ (seen : List Nat) (block : SyncPhysicalTokenBlock), block.blockNumber ∈ seen →
      ∃ seen' : List Nat, f seen block = pure seen' ∧ ∀ number, number ∈ seen' ↔ number ∈ seen)
    (hnew : ∀ (seen : List Nat) (block : SyncPhysicalTokenBlock), block.blockNumber ∉ seen →
      f seen block = do
        act block
        return seen ++ [block.blockNumber])
    (blocks : List SyncPhysicalTokenBlock) {seen blockIds : List Nat}
    (hsame : ∀ number, number ∈ seen ↔ number ∈ blockIds)
    : (blocks.foldlM f seen >>= fun _ => pure ⟨⟩) = (dedupByNumber.go blockIds blocks).forM act := by
  induction blocks generalizing seen blockIds with
  | nil => rfl
  | cons block blocks ih =>
    rw [List.foldlM_cons, dedupByNumber.go]
    by_cases hmem : block.blockNumber ∈ blockIds
    . rcases hseen seen block ((hsame _).mpr hmem) with ⟨seen', heq, hsame'⟩
      rw [if_pos hmem, heq, pure_bind]
      exact ih fun number => (hsame' number).trans (hsame number)
    . have hnot : block.blockNumber ∉ seen := fun h => hmem ((hsame _).mp h)
      rw [if_neg hmem, hnew seen block hnot, bind_assoc, bind_assoc]
      change _ = act block >>= fun _ => List.forM _ act
      congr 1
      funext _
      rw [pure_bind]
      apply ih
      intro number
      rw [List.mem_append, List.mem_append, hsame]

theorem freeUnseen_eq_forM (blocks : List SyncPhysicalTokenBlock)
    : (blocks.foldlM freeBlockTable.freeUnseen [] >>= fun _ => pure ⟨⟩)
        = (dedupByNumber blocks).forM fun block => freeBlock block.device block := by
  apply foldlM_eq_forM _ _ blocks fun _ => Iff.rfl
  . intro seen block hmem
    refine ⟨seen, ?_, fun _ => Iff.rfl⟩
    unfold freeBlockTable.freeUnseen
    rw [if_pos hmem]
  . intro seen block hmem
    unfold freeBlockTable.freeUnseen
    rw [if_neg hmem]

theorem incrementBlock_eq_forM (blocks : List SyncPhysicalTokenBlock)
    : (blocks.foldlM fork.incrementBlock [] >>= fun _ => pure ⟨⟩)
        = (dedupByNumber blocks).forM fun block => writeBlock block (·.incrementRefCount) := by
  apply foldlM_eq_forM _ _ blocks fun _ => Iff.rfl
  . intro seen block hmem
    refine ⟨seen ++ [block.blockNumber], ?_, ?_⟩
    . unfold fork.incrementBlock
      rw [if_neg (not_not_intro hmem)]
    . intro number
      rw [List.mem_append, List.mem_singleton]
      constructor
      . rintro (hnumber | rfl)
        . exact hnumber
        . exact hmem
      . exact .inl
  . intro seen block hmem
    unfold fork.incrementBlock
    rw [if_pos hmem]

variable {blocks : List SyncPhysicalTokenBlock} {device : BlockDevice}

theorem dedupByNumber.go_spec (blockIds : List Nat)
    : (dedupByNumber.go blockIds blocks).Sublist blocks
        ∧ ((dedupByNumber.go blockIds blocks).map (·.blockNumber)).Nodup
        ∧ ∀ number, number ∈ (dedupByNumber.go blockIds blocks).map (·.blockNumber)
            ↔ number ∈ blocks.map (·.blockNumber) ∧ number ∉ blockIds := by
  induction blocks generalizing blockIds with
  | nil => simp [dedupByNumber.go]
  | cons block blocks ih =>
    rw [dedupByNumber.go]
    split
    . next hmem =>
      rcases ih blockIds with ⟨hsub, hnodup, hiff⟩
      refine ⟨hsub.cons _, hnodup, ?_⟩
      intro number
      rw [hiff, List.map_cons, List.mem_cons]
      grind
    . next hmem =>
      rcases ih (blockIds ++ [block.blockNumber]) with ⟨hsub, hnodup, hiff⟩
      refine ⟨hsub.cons_cons _, ?_, ?_⟩
      . rw [List.map_cons, List.nodup_cons]
        refine ⟨?_, hnodup⟩
        rw [hiff]
        simp
      . intro number
        rw [List.map_cons, List.mem_cons, hiff, List.map_cons, List.mem_cons, List.mem_append,
          List.mem_singleton]
        grind

theorem nodup_dedupByNumber : (dedupByNumber blocks).Nodup :=
  List.Nodup.of_map _ (dedupByNumber.go_spec []).2.1

/--
On one device the blocks are the same ones.
-/
theorem mem_dedupByNumber (hdevice : ∀ block ∈ blocks, block.device = device)
    {block : SyncPhysicalTokenBlock} : block ∈ dedupByNumber blocks ↔ block ∈ blocks := by
  rcases @dedupByNumber.go_spec blocks [] with ⟨hsub, -, hiff⟩
  constructor
  . exact fun hmem => hsub.mem hmem
  . intro hmem
    have hnumber : block.blockNumber ∈ (dedupByNumber blocks).map (·.blockNumber) :=
      (hiff _).mpr ⟨List.mem_map_of_mem hmem, List.not_mem_nil⟩
    rcases List.mem_map.mp hnumber with ⟨other, hother, heq⟩
    have : other = block :=
      SyncPhysicalTokenBlock.ext ((hdevice other (hsub.mem hother)).trans (hdevice block hmem).symm)
        heq
    rwa [← this]

theorem dedupByNumber.go_eq_self {blockIds : List Nat} (hnodup : (blocks.map (·.blockNumber)).Nodup)
    (hnew : ∀ block ∈ blocks, block.blockNumber ∉ blockIds)
    : dedupByNumber.go blockIds blocks = blocks := by
  induction blocks generalizing blockIds with
  | nil => rfl
  | cons block blocks ih =>
    rw [List.map_cons, List.nodup_cons] at hnodup
    rw [dedupByNumber.go, if_neg (hnew block List.mem_cons_self)]
    congr 1
    apply ih hnodup.2
    intro other hother hmem
    rcases List.mem_append.mp hmem with hmem | hmem
    . exact hnew other (List.mem_cons_of_mem _ hother) hmem
    . apply hnodup.1
      rw [← List.mem_singleton.mp hmem]
      exact List.mem_map_of_mem hother

theorem dedupByNumber_idem (blocks : List SyncPhysicalTokenBlock)
    : dedupByNumber (dedupByNumber blocks) = dedupByNumber blocks :=
  dedupByNumber.go_eq_self (dedupByNumber.go_spec []).2.1 fun _ _ => List.not_mem_nil

end Dedup

section Operations

variable {window : Nat} {blockTables viewTables : BlockTables} {manager view : BlockSpaceManager}
variable {sequenceId : Nat} {blockTable : BlockTable}
variable (h : Mirrors window blockTables viewTables manager view)
include h

theorem freeBlockTable_tracks (hle : window ≤ blockTable.length)
    : Tracks (freeBlockTable blockTable) (freeBlockTable (dedupByNumber (blockTable.drop window)))
        (Mirrors window blockTables viewTables) manager view := by
  have hview : view.blockSlidingWindow = none := by rw [h.view_eq]; rfl
  unfold freeBlockTable
  apply Tracks.get_bind
  simp only [h.blockSlidingWindow_eq, if_pos hle, hview, pure_bind]
  rw [freeUnseen_eq_forM, freeUnseen_eq_forM, dedupByNumber_idem]
  exact Tracks.forM (fun _ _ _ _ h => freeBlock_tracks h) h

theorem free_tracks (hlookup : blockTables.lookup sequenceId = some blockTable)
    (hle : window ≤ blockTable.length)
    (hview : viewTables.lookup sequenceId = some (dedupByNumber (blockTable.drop window)))
    : Tracks (free sequenceId) (free sequenceId)
        (Mirrors window (blockTables.erase sequenceId) (viewTables.erase sequenceId)) manager view := by
  have hmanager : manager.blockTables.lookup sequenceId = some blockTable := by
    rw [h.blockTables_eq, hlookup]
  have hview : view.blockTables.lookup sequenceId
      = some (dedupByNumber (blockTable.drop window)) := by
    rw [h.view_eq]
    exact hview
  unfold free
  apply Tracks.get_bind
  simp only [hmanager, hview]
  apply Tracks.bind (freeBlockTable_tracks h hle)
  intro _ m v hmirrors
  apply Tracks.of_modify
  constructor
  . exact hmirrors.blockSlidingWindow_eq
  . rw [← hmirrors.blockTables_eq]
  . rw [hmirrors.view_eq]
    rfl

theorem fork_tracks {childSequenceId : Nat} (hlookup : blockTables.lookup sequenceId = some blockTable)
    (hview : viewTables.lookup sequenceId = some (dedupByNumber blockTable))
    : Tracks (fork sequenceId childSequenceId) (fork sequenceId childSequenceId)
        (Mirrors window (blockTables.insert childSequenceId blockTable)
          (viewTables.insert childSequenceId (dedupByNumber blockTable))) manager view := by
  have hmanager : manager.blockTables.lookup sequenceId = some blockTable := by
    rw [h.blockTables_eq, hlookup]
  have hview : view.blockTables.lookup sequenceId = some (dedupByNumber blockTable) := by
    rw [h.view_eq]
    exact hview
  unfold fork
  apply Tracks.get_bind
  simp only [hmanager, hview]
  apply Tracks.modify_bind
  rw [incrementBlock_eq_forM, incrementBlock_eq_forM, dedupByNumber_idem]
  exact Tracks.forM (fun _ _ _ _ h => writeBlock_tracks h) (h.insertTable _ _ _)

theorem pushBlock_tracks {viewTable : BlockTable}
    : Tracks (appendSlots.pushBlock sequenceId blockTable) (appendSlots.pushBlock sequenceId viewTable)
        (fun m v => ∃ block, Mirrors window (blockTables.insert sequenceId (blockTable ++ [block]))
          (viewTables.insert sequenceId (viewTable ++ [block])) m v) manager view := by
  unfold appendSlots.pushBlock
  apply Tracks.bind (allocateBlock_tracks h)
  intro block m v hmirrors
  apply Tracks.modify_bind
  exact Tracks.pure ⟨block, hmirrors.insertTable _ _ _⟩

theorem copyOnWrite_tracks {init viewInit : BlockTable} {last : SyncPhysicalTokenBlock}
    (hcount : manager.pool.refCount last ≠ 1)
    : Tracks (appendSlots.copyOnWrite sequenceId (init ++ [last]))
        (appendSlots.copyOnWrite sequenceId (viewInit ++ [last]))
        (fun m v => ∃ block, Mirrors window (blockTables.insert sequenceId (init ++ [block]))
          (viewTables.insert sequenceId (viewInit ++ [block])) m v) manager view := by
  have hview : (view.blocks last).refCount ≠ 1 := by
    rw [h.view_eq]
    exact hcount
  change (manager.blocks last).refCount ≠ 1 at hcount
  unfold appendSlots.copyOnWrite
  simp only [List.getLast?_concat]
  apply Tracks.get_bind
  rw [if_neg hcount, if_neg hview]
  apply Tracks.bind (allocateBlock_tracks h)
  intro block m v hmirrors
  apply Tracks.bind (freeBlock_tracks hmirrors)
  intro _ m' v' hmirrors'
  apply Tracks.modify_bind
  simp only [List.dropLast_concat]
  exact Tracks.pure ⟨block, hmirrors'.insertTable _ _ _⟩

theorem appendSlots_run_of_push {sequence : Sequence}
    (hlookup : blockTables.lookup sequenceId = some blockTable) (hlt : blockTable.length < window)
    (hshort : sequence.getNumTotalLogicalTokenBlocks = blockTable.length + 1)
    : (appendSlots sequenceId sequence).run manager
        =
      (appendSlots.pushBlock sequenceId blockTable).run manager := by
  have hmanager : manager.blockTables.lookup sequenceId = some blockTable := by
    rw [h.blockTables_eq, hlookup]
  have hne : sequence.getNumTotalLogicalTokenBlocks ≠ 0 := by omega
  have hless : blockTable.length < sequence.getNumTotalLogicalTokenBlocks := by omega
  have hone : ¬ blockTable.length ≠ sequence.getNumTotalLogicalTokenBlocks - 1 := by omega
  unfold appendSlots
  simp only [hne, if_false, run_bind, run_get, hmanager, hless, if_true, hone,
    h.blockSlidingWindow_eq, if_neg (Nat.not_le.mpr hlt)]

theorem appendSlots_run_of_reuse {sequence : Sequence} {block : SyncPhysicalTokenBlock}
    (hlookup : blockTables.lookup sequenceId = some blockTable) (hpos : 0 < window)
    (hle : window ≤ blockTable.length)
    (hblock : blockTable[blockTable.length % window]? = some block)
    (hshort : sequence.getNumTotalLogicalTokenBlocks = blockTable.length + 1)
    : (appendSlots sequenceId sequence).run manager
        =
      (appendSlots.copyOnWrite sequenceId (blockTable ++ [block])).run
        (manager.insertTable sequenceId (blockTable ++ [block])) := by
  have hmanager : manager.blockTables.lookup sequenceId = some blockTable := by
    rw [h.blockTables_eq, hlookup]
  have hne : sequence.getNumTotalLogicalTokenBlocks ≠ 0 := by omega
  have hless : blockTable.length < sequence.getNumTotalLogicalTokenBlocks := by omega
  have hone : ¬ blockTable.length ≠ sequence.getNumTotalLogicalTokenBlocks - 1 := by omega
  unfold appendSlots
  simp only [hne, if_false, run_bind, run_get, hmanager, hless, if_true, hone,
    h.blockSlidingWindow_eq, if_pos hle, if_neg (Nat.ne_of_gt hpos), hblock]
  rfl

end Operations

section Allocate

variable {window refCount : Nat} {blockTables viewTables : BlockTables}
variable {manager view : BlockSpaceManager} {blockTable : BlockTable}

/--
Before the window is full, `allocate` takes a new block.
-/
theorem allocate.logicalBlock_tracks (h : Mirrors window blockTables viewTables manager view)
    {logicalIdx : Nat} (hlt : logicalIdx < window)
    : Tracks (allocate.logicalBlock refCount blockTable logicalIdx)
        (allocate.logicalBlock refCount blockTable logicalIdx)
        (Mirrors window blockTables viewTables) manager view := by
  have hview : view.blockSlidingWindow = none := by rw [h.view_eq]; rfl
  unfold allocate.logicalBlock
  apply Tracks.get_bind
  simp only [h.blockSlidingWindow_eq, hview, if_neg (Nat.not_le.mpr hlt)]
  apply Tracks.bind (allocateBlock_tracks h)
  intro block m v hmirrors
  apply Tracks.bind (writeBlock_tracks hmirrors)
  intro _ m' v' hmirrors'
  exact Tracks.pure hmirrors'

/--
From then on it takes the blocks of the window again, and sets their counts to what they are.
-/
theorem allocate.foldlM_reuses (hwindow : manager.blockSlidingWindow = some window)
    (hpos : 0 < window) (hlength : window ≤ blockTable.length)
    (hcount : ∀ block ∈ blockTable, (manager.blocks block).refCount = refCount)
    (logicalIdxs : List Nat) (hpast : ∀ logicalIdx ∈ logicalIdxs, window ≤ logicalIdx)
    : Yields (logicalIdxs.foldlM (allocate.logicalBlock refCount) blockTable) manager
        fun blockTable' manager' =>
          manager' = manager ∧ ∀ block, block ∈ blockTable' ↔ block ∈ blockTable := by
  let I : List Nat → BlockTable → BlockSpaceManager → Prop := fun rest blockTable' manager' =>
    (∀ logicalIdx ∈ rest, window ≤ logicalIdx)
      ∧ manager' = manager
      ∧ window ≤ blockTable'.length
      ∧ ∀ block, block ∈ blockTable' ↔ block ∈ blockTable
  have hloop := Yields.foldlM I (f := allocate.logicalBlock refCount)
  apply Yields.mono (hloop ?_ logicalIdxs blockTable manager ?_)
  . rintro blockTable' manager' ⟨-, hmanager, -, hsame⟩
    exact ⟨hmanager, hsame⟩
  . rintro idx rest blockTable' m ⟨hpast, rfl, hlength, hsame⟩
    have hindex : idx % window < blockTable'.length :=
      (Nat.mod_lt idx hpos).trans_le hlength
    have hmem : blockTable'[idx % window] ∈ blockTable := (hsame _).mp (List.getElem_mem hindex)
    unfold allocate.logicalBlock
    apply Yields.get_bind
    simp only [hwindow, if_pos (hpast idx List.mem_cons_self), if_neg (Nat.ne_of_gt hpos),
      List.getElem?_eq_getElem hindex, pure_bind]
    have hwrite : (writeBlock blockTable'[idx % window] (·.setRefCountBy refCount)).run m
        = .ok () m := by
      have hset : (m.blocks blockTable'[idx % window]).setRefCountBy refCount
          = m.blocks blockTable'[idx % window] := by
        unfold PhysicalTokenBlock.setRefCountBy
        rw [← hcount _ hmem]
      rw [writeBlock_run, hset, Function.update_eq_self]
    apply Yields.bind_of_run hwrite
    apply Yields.pure
    refine ⟨fun i hi => hpast i (List.mem_cons_of_mem _ hi), rfl, ?_, ?_⟩
    . rw [List.length_append]
      omega
    . intro block
      rw [List.mem_append, List.mem_singleton, hsame]
      constructor
      . rintro (hold | rfl)
        . exact hold
        . exact hmem
      . exact .inl
  . exact ⟨hpast, rfl, hlength, fun _ => Iff.rfl⟩

/--
The loop of `allocate` leaves what the loop over one window leaves in the view.
-/
theorem allocate.foldlM_windowed (h : Mirrors window blockTables viewTables manager view)
    (haccounted : view.Accounted) (hpos : 0 < window) (hcount : 1 ≤ refCount) (numBlocks : Nat)
    (hfree : min numBlocks window ≤ view.getNumFreeBlocks .gpu)
    : Yields ((List.range numBlocks).foldlM (allocate.logicalBlock refCount) []) manager
        fun blockTable manager' =>
          ∃ (viewTable : BlockTable) (view' : BlockSpaceManager),
            Mirrors window blockTables viewTables manager' view'
              ∧ (∀ block, block ∈ viewTable ↔ block ∈ blockTable)
              ∧ viewTable.Nodup
              ∧ (∀ block ∈ viewTable, block.device = .gpu)
              ∧ view.SameConfig view'
              ∧ view'.blockTables = view.blockTables
              ∧ Balanced (·.device) view.created view'.pool
                  (view.owned + refCount • (viewTable : Multiset SyncPhysicalTokenBlock)) := by
  have hfirst : Tracks
      ((List.range (min numBlocks window)).foldlM (allocate.logicalBlock refCount) [])
      ((List.range (min numBlocks window)).foldlM (allocate.logicalBlock refCount) [])
      (Mirrors window blockTables viewTables) manager view := by
    refine Tracks.foldlM ?_ h
    intro idx hidx blockTable m v hmirrors
    rw [List.mem_range] at hidx
    exact allocate.logicalBlock_tracks hmirrors (by omega)
  have hview := hfirst.yields (allocate.foldlM_yields (List.range (min numBlocks window))
    haccounted.blockSlidingWindow_eq hcount haccounted.balanced (by rwa [List.length_range]))
  have hsplit : List.range numBlocks
      = List.range (min numBlocks window)
        ++ (List.range (numBlocks - window)).map (min numBlocks window + ·) := by
    rw [← List.range_add]
    congr 1
    omega
  rw [hsplit, List.foldlM_append]
  apply Yields.bind hview
  rintro viewTable m ⟨v, hmirrors, -, hnodup, hlength, hnew, hconfig, htables, hbalanced⟩
  have hgpu : ∀ block ∈ viewTable, block.device = .gpu := fun block hblock => (hnew block hblock).1
  by_cases hle : window ≤ numBlocks
  . have hcounts : ∀ block ∈ viewTable, (m.blocks block).refCount = refCount := by
      intro block hblock
      have hmem : block ∈ view.owned + refCount • (viewTable : Multiset SyncPhysicalTokenBlock) := by
        rw [Multiset.mem_add, Multiset.mem_nsmul]
        exact .inr ⟨by omega, hblock⟩
      have hrefs := hbalanced.refCount_eq block (hbalanced.mem_univ block hmem)
      rw [Multiset.count_add, Multiset.count_nsmul, Multiset.coe_count,
        List.count_eq_one_of_mem hnodup hblock,
        Multiset.count_eq_zero_of_notMem (hnew block hblock).2, hmirrors.view_eq] at hrefs
      change (m.blocks block).refCount = _ at hrefs
      omega
    have hfull : window ≤ viewTable.length := by
      rw [hlength, List.length_range]
      omega
    apply Yields.mono (allocate.foldlM_reuses hmirrors.blockSlidingWindow_eq hpos hfull hcounts _ ?_)
    . rintro blockTable m' ⟨rfl, hsame⟩
      exact ⟨viewTable, v, hmirrors, fun block => (hsame block).symm, hnodup, hgpu, hconfig, htables,
        hbalanced⟩
    . intro idx hidx
      rcases List.mem_map.mp hidx with ⟨i, -, rfl⟩
      omega
  . have hnil : numBlocks - window = 0 := by omega
    rw [hnil]
    apply Yields.pure
    exact ⟨viewTable, v, hmirrors, fun _ => Iff.rfl, hnodup, hgpu, hconfig, htables, hbalanced⟩

variable {group : SequenceGroup} {heap : SequenceHeap}

theorem Mirrors.insertTables (h : Mirrors window blockTables viewTables manager view)
    (sequenceIds : List Nat) (blockTable viewTable : BlockTable)
    : view.insertTables sequenceIds viewTable
        = (manager.insertTables sequenceIds blockTable).unwound
            (view.insertTables sequenceIds viewTable).blockTables := by
  unfold BlockSpaceManager.insertTables
  induction sequenceIds generalizing manager view blockTables viewTables with
  | nil =>
    rw [h.view_eq]
    rfl
  | cons sequenceId sequenceIds ih => exact ih (h.insertTable sequenceId blockTable viewTable)

/--
`allocate` succeeds under its guard, and the view gets a table with the same blocks.
-/
theorem allocate_windowed (h : Mirrors window blockTables viewTables manager view)
    (haccounted : view.Accounted) (hpos : 0 < window)
    (hnodup : (group.getSequencesIds heap .waiting).Nodup)
    (hnone : ∀ sequenceId ∈ group.getSequencesIds heap .waiting,
      view.blockTables.lookup sequenceId = none)
    (hcan : manager.canAllocate group heap = .ok)
    : Yields (allocate group heap) manager fun _ manager' =>
        ∃ (blockTable viewTable : BlockTable) (view' : BlockSpaceManager),
          view' = manager'.unwound view'.blockTables
            ∧ manager'.blockSlidingWindow = some window
            ∧ (∀ block, block ∈ viewTable ↔ block ∈ blockTable)
            ∧ (∀ block ∈ viewTable, block.device = .gpu)
            ∧ (∀ sequenceId, manager'.blockTables.lookup sequenceId
                =
              if sequenceId ∈ group.getSequencesIds heap .waiting then some blockTable
              else blockTables.lookup sequenceId)
            ∧ view.SameConfig view'
            ∧ (∀ sequenceId, view'.blockTables.lookup sequenceId
                =
              if sequenceId ∈ group.getSequencesIds heap .waiting then some viewTable
              else view.blockTables.lookup sequenceId)
            ∧ view'.Accounted := by
  rcases canAllocate_eq_ok_iff.mp hcan with ⟨sequence, hfirst, hle⟩
  have hcount : 1 ≤ group.getNumSequences heap .waiting :=
    List.length_pos_of_mem (SequenceGroup.mem_getSeqs_of_getFirstSequence hfirst)
  have hfree : min (heap sequence).getNumTotalLogicalTokenBlocks window
      ≤ view.getNumFreeBlocks .gpu := by
    unfold windowed at hle
    rw [h.blockSlidingWindow_eq] at hle
    rw [h.view_eq]
    exact hle
  unfold allocate
  simp only [hfirst]
  apply Yields.bind (allocate.foldlM_windowed h haccounted hpos hcount _ hfree)
  rintro blockTable m ⟨viewTable, v, hmirrors, hsame, hblocks, hgpu, hconfig, htables, hbalanced⟩
  apply Yields.of_modify
  refine ⟨blockTable, viewTable, v.insertTables (group.getSequencesIds heap .waiting) viewTable,
    hmirrors.insertTables _ _ _, ?_, hsame, hgpu, ?_, ?_⟩
  . rw [(sameConfig_insertTables _).blockSlidingWindow_eq, hmirrors.blockSlidingWindow_eq]
  . intro sequenceId
    rw [lookup_insertTables, hmirrors.blockTables_eq]
  . apply haccounted.insertTables hnodup hnone hblocks hgpu hconfig htables
    rwa [SequenceGroup.getSequencesIds, List.length_map]

end Allocate

section Swap

variable {window : Nat} {blockTables viewTables : BlockTables} {manager view : BlockSpaceManager}
variable {source target : BlockDevice} {mapping : SwapMapping} {sequenceId : Nat}

theorem swapBlock_tracks (h : Mirrors window blockTables viewTables manager view)
    (acc : SwapMapping × BlockTable) (block : SyncPhysicalTokenBlock)
    : Tracks (swapBlock source target acc block) (swapBlock source target acc block)
        (Mirrors window blockTables viewTables) manager view := by
  have hnew : Tracks (swapBlock.newBlock target acc.1 block.blockNumber)
      (swapBlock.newBlock target acc.1 block.blockNumber) (Mirrors window blockTables viewTables)
      manager view := by
    unfold swapBlock.newBlock
    cases acc.1.lookup block.blockNumber with
    | none =>
      apply Tracks.bind (allocateBlock_tracks h)
      intro newBlock m v hmirrors
      exact Tracks.pure hmirrors
    | some newBlock =>
      apply Tracks.bind (writeBlock_tracks h)
      intro _ m v hmirrors
      exact Tracks.pure hmirrors
  unfold swapBlock
  apply Tracks.bind hnew
  intro result m v hmirrors
  apply Tracks.bind (freeBlock_tracks hmirrors)
  intro _ m' v' hmirrors'
  exact Tracks.pure hmirrors'

/--
The tables of `sequenceIds` are the same ones, and the others are those of `blockTables` and
`viewTables`.
-/
structure SharesTables (window : Nat) (sequenceIds : List Nat) (blockTables viewTables : BlockTables)
    (manager view : BlockSpaceManager) : Prop where
  mirrors : Mirrors window manager.blockTables view.blockTables manager view
  lookup_eq : ∀ sequenceId ∈ sequenceIds,
    view.blockTables.lookup sequenceId = manager.blockTables.lookup sequenceId
  blockTables_eq : ∀ sequenceId, sequenceId ∉ sequenceIds →
    manager.blockTables.lookup sequenceId = blockTables.lookup sequenceId
  viewTables_eq : ∀ sequenceId, sequenceId ∉ sequenceIds →
    view.blockTables.lookup sequenceId = viewTables.lookup sequenceId

theorem swapTable_tracks {sequenceIds : List Nat}
    (h : SharesTables window sequenceIds blockTables viewTables manager view) (hid : sequenceId ∈ sequenceIds)
    : Tracks (swapTable source target mapping sequenceId) (swapTable source target mapping sequenceId)
        (SharesTables window sequenceIds blockTables viewTables) manager view := by
  unfold swapTable
  apply Tracks.get_bind
  rw [h.lookup_eq sequenceId hid]
  cases manager.blockTables.lookup sequenceId with
  | none => exact Tracks.pure h
  | some blockTable =>
    apply Tracks.bind (Tracks.foldlM (fun _ _ acc _ _ h => swapBlock_tracks h acc _) h.mirrors)
    intro result m v hmirrors
    apply Tracks.modify_bind
    apply Tracks.pure
    have hview : v.blockTables = view.blockTables := by rw [hmirrors.view_eq]; rfl
    refine ⟨⟨hmirrors.blockSlidingWindow_eq, rfl, ?_⟩, ?_, ?_, ?_⟩
    . rw [hmirrors.view_eq]
      rfl
    . intro id hmem
      rw [lookup_insertTable, lookup_insertTable, hview, hmirrors.blockTables_eq,
        h.lookup_eq id hmem]
    . intro id hnot
      rw [lookup_insertTable, if_neg (ne_of_mem_of_not_mem hid hnot).symm, hmirrors.blockTables_eq,
        h.blockTables_eq id hnot]
    . intro id hnot
      rw [lookup_insertTable, if_neg (ne_of_mem_of_not_mem hid hnot).symm, hview, h.viewTables_eq id hnot]

end Swap

end BlockSpaceManager

namespace Memory

open EStateM BlockSpaceManager

variable {window : Nat} {blockTables viewTables : BlockTables}
variable {group : SequenceGroup} {memory view : Memory}
variable {sequenceIds : List Nat}

/--
Two memories with the same sequences, whose managers are related by `R`.
-/
def Over (R : BlockSpaceManager → BlockSpaceManager → Prop) (memory view : Memory) : Prop :=
  view.sequences = memory.sequences ∧ R memory.blockManager view.blockManager

theorem onBlockManager_yields_manager {α : Type} {x : BlockSpaceM α}
    {Q : α → BlockSpaceManager → Prop} (h : Yields x memory.blockManager Q)
    : Yields (onBlockManager x) memory fun a memory' =>
        ∃ manager, memory' = { memory with blockManager := manager } ∧ Q a manager := by
  rcases h with ⟨a, manager, hrun, hQ⟩
  refine ⟨a, { memory with blockManager := manager }, ?_, manager, rfl, hQ⟩
  change onBlockManager x memory = _
  unfold onBlockManager
  rw [hrun]

theorem onBlockManager_run_of_error {α : Type} {x : BlockSpaceM α} {error : BlockSpaceManagerError}
    (h : x.run memory.blockManager = .error error memory.blockManager)
    : (onBlockManager x).run memory = .error error memory := by
  change onBlockManager x memory = _
  unfold onBlockManager
  rw [h]

theorem onBlockManager_tracks {α : Type} {x y : BlockSpaceM α}
    {R S : BlockSpaceManager → BlockSpaceManager → Prop} (h : Over R memory view)
    (hx : Tracks x y S memory.blockManager view.blockManager)
    : Tracks (onBlockManager x) (onBlockManager y) (Over S) memory view := by
  intro a view' hrun
  change onBlockManager y view = .ok a view' at hrun
  unfold onBlockManager at hrun
  split at hrun
  . next a manager hy =>
    cases hrun
    rcases hx a manager hy with ⟨manager', hx', hS⟩
    refine ⟨{ memory with blockManager := manager' }, ?_, h.1, hS⟩
    change onBlockManager x memory = _
    unfold onBlockManager
    rw [hx']
  . cases hrun

theorem swap_tracks {source target : BlockDevice} {before : SequenceStatus}
    {setStatus : Nat → MemoryM Unit}
    (hset : ∀ (sequenceId : Nat) (R : BlockSpaceManager → BlockSpaceManager → Prop)
      (memory view : Memory), Over R memory view →
        Tracks (setStatus sequenceId) (setStatus sequenceId) (Over R) memory view)
    (h : Over (SharesTables window (group.getSequencesIds memory.sequences before) blockTables viewTables)
      memory view)
    : Tracks (swap group source target before setStatus) (swap group source target before setStatus)
        (Over (SharesTables window (group.getSequencesIds memory.sequences before) blockTables viewTables))
        memory view := by
  unfold swap
  apply Tracks.get_bind
  rw [h.1]
  generalize hids : group.getSequencesIds memory.sequences before = ids at *
  apply Tracks.bind (Tracks.foldlM (R := Over (SharesTables window ids blockTables viewTables)) ?_ h)
  . intro mapping m v hover
    exact Tracks.pure hover
  . intro sequenceId hid mapping m v hover
    apply Tracks.bind (onBlockManager_tracks hover (swapTable_tracks hover.2 hid))
    intro mapping' m' v' hover'
    apply Tracks.bind (hset sequenceId _ m' v' hover')
    intro _ m'' v'' hover''
    exact Tracks.pure hover''

theorem swapIn_tracks
    (h : Over (SharesTables window (group.getSequencesIds memory.sequences .swapped) blockTables viewTables)
      memory view)
    : Tracks (swapIn group) (swapIn group)
        (Over (SharesTables window (group.getSequencesIds memory.sequences .swapped) blockTables viewTables))
        memory view := by
  apply swap_tracks _ h
  intro sequenceId R m v hover
  apply Tracks.of_modify
  refine ⟨?_, hover.2⟩
  rw [hover.1]

theorem swapOut_tracks
    (h : Over (SharesTables window (group.getSequencesIds memory.sequences .running) blockTables viewTables)
      memory view)
    : Tracks (swapOut group) (swapOut group)
        (Over (SharesTables window (group.getSequencesIds memory.sequences .running) blockTables viewTables))
        memory view := by
  apply swap_tracks _ h
  intro sequenceId R m v hover
  cases group.getSequenceFromId sequenceId with
  | none =>
    intro a v' hrun
    cases hrun
  | some sequence =>
    apply Tracks.of_modify
    refine ⟨?_, hover.2⟩
    rw [hover.1]

end Memory

end AtomaInfer
