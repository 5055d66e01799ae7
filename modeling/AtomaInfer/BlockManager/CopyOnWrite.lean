import AtomaInfer.BlockManager.Swap

/-!
The calls of `append_slots` for the sequences of a group, one after the other, and the copies that
they ask for. A sequence whose last block is shared leaves that block, so that the next sequence sees
a smaller reference count.
-/

namespace AtomaInfer

namespace BlockSpaceManager

open EStateM RefPool

variable {manager manager' : BlockSpaceManager} {sequenceId : Nat} {sequence : Sequence}
variable {blockTable blockTable' : BlockTable} {block : SyncPhysicalTokenBlock}

theorem WritesTable.ownedByOthers_eq (h : manager.WritesTable manager' sequenceId blockTable)
    : manager'.ownedByOthers sequenceId = manager.ownedByOthers sequenceId := by
  apply AList.sumValues_congr
  intro id
  by_cases hid : id = sequenceId
  . rw [hid, AList.lookup_erase, AList.lookup_erase]
  . rw [AList.lookup_erase_ne hid, AList.lookup_erase_ne hid, h.2, if_neg hid]

/--
Only the references of one table to a block change.
-/
theorem WritesTable.refCount_eq (h : manager.WritesTable manager' sequenceId blockTable')
    (haccounted : manager.Accounted) (haccounted' : manager'.Accounted)
    (hlookup : manager.blockTables.lookup sequenceId = some blockTable)
    (hcreated : block ∈ manager.created)
    : manager'.pool.refCount block + blockTable.count block
        = manager.pool.refCount block + blockTable'.count block := by
  have hcreated' : block ∈ manager'.created := by
    rw [h.1.created_eq]
    exact hcreated
  have hlookup' : manager'.blockTables.lookup sequenceId = some blockTable' := by
    rw [h.2, if_pos rfl]
  rw [haccounted.balanced.refCount_eq block hcreated,
    haccounted'.balanced.refCount_eq block hcreated', owned_eq hlookup, owned_eq hlookup',
    h.ownedByOthers_eq, Multiset.count_add, Multiset.count_add, Multiset.coe_count,
    Multiset.coe_count]
  omega

/--
The table of the sequence is long enough for its tokens, and its last block is `block`.
-/
def FillsLast (manager : BlockSpaceManager) (sequenceId : Nat) (sequence : Sequence)
    (block : SyncPhysicalTokenBlock) : Prop :=
  ∃ init,
    manager.blockTables.lookup sequenceId = some (init ++ [block])
      ∧ sequence.getNumTotalLogicalTokenBlocks ≤ init.length + 1

theorem FillsLast.mem_owned (h : manager.FillsLast sequenceId sequence block)
    : block ∈ manager.owned := by
  rcases h with ⟨init, hlookup, -⟩
  exact mem_owned_of_mem hlookup (by simp)

/--
What a call of `append_slots` that succeeds does to the tables and returns.
-/
inductive Appended (manager manager' : BlockSpaceManager) (sequenceId : Nat) (sequence : Sequence)
    : Option (Nat × Nat) → Prop where
  | keep (hmanager : manager' = manager)
      (hcount : ∀ block, manager.FillsLast sequenceId sequence block →
        manager.pool.refCount block = 1)
    : Appended manager manager' sequenceId sequence none
  | push (blockTable : BlockTable) (block : SyncPhysicalTokenBlock)
      (hlookup : manager.blockTables.lookup sequenceId = some blockTable)
      (hlength : blockTable.length < sequence.getNumTotalLogicalTokenBlocks)
      (hdevice : block.device = .gpu) (hnew : block ∉ manager.owned)
      (hwrites : manager.WritesTable manager' sequenceId (blockTable ++ [block]))
      (haccounted : manager'.Accounted)
    : Appended manager manager' sequenceId sequence none
  | copy (init : BlockTable) (last block : SyncPhysicalTokenBlock)
      (hlookup : manager.blockTables.lookup sequenceId = some (init ++ [last]))
      (hfull : sequence.getNumTotalLogicalTokenBlocks ≤ init.length + 1)
      (hlast : last.device = .gpu) (hcount : 2 ≤ manager.pool.refCount last)
      (hdevice : block.device = .gpu) (hnew : block ∉ manager.owned)
      (hwrites : manager.WritesTable manager' sequenceId (init ++ [block]))
      (haccounted : manager'.Accounted)
    : Appended manager manager' sequenceId sequence (some (last.blockNumber, block.blockNumber))

theorem one_le_of_allocateBlock {device : BlockDevice}
    (h : (allocateBlock device).run manager = .ok block manager')
    : 1 ≤ manager.getNumFreeBlocks device := by
  by_contra hzero
  rw [allocateBlock_run_of_eq_zero (by omega)] at h
  cases h

/--
The last part of `append_slots`, when the table ends with `last`.
-/
theorem appended_of_copyOnWrite {init : BlockTable} {last : SyncPhysicalTokenBlock}
    {cow : Option (Nat × Nat)} (h : manager.Accounted)
    (hlookup : manager.blockTables.lookup sequenceId = some (init ++ [last]))
    (hgpu : ∀ block ∈ init ++ [last], block.device = .gpu)
    (hfull : sequence.getNumTotalLogicalTokenBlocks ≤ init.length + 1)
    (hrun : (appendSlots.copyOnWrite sequenceId (init ++ [last])).run manager = .ok cow manager')
    : Appended manager manager' sequenceId sequence cow := by
  by_cases hcount : manager.pool.refCount last = 1
  . rw [appendSlots.copyOnWrite_run init last hcount] at hrun
    cases hrun
    refine .keep rfl ?_
    rintro block ⟨init', hlookup', -⟩
    rw [hlookup] at hlookup'
    have hlast : last = block := by simpa using (List.append_inj' (Option.some.inj hlookup') rfl).2
    rw [← hlast]
    exact hcount
  . have hfree : 1 ≤ manager.getNumFreeBlocks .gpu := by
      have hcount' : (manager.blocks last).refCount ≠ 1 := hcount
      unfold appendSlots.copyOnWrite at hrun
      simp only [List.getLast?_concat, run_bind, run_get, if_neg hcount'] at hrun
      split at hrun
      . next block next halloc => exact one_le_of_allocateBlock halloc
      . cases hrun
    have hown : 1 ≤ manager.pool.refCount last :=
      h.balanced.one_le_refCount (mem_owned_of_mem hlookup (by simp))
    rcases appendSlots.copyOnWrite_yields h hlookup hgpu hfree hcount
      with ⟨_, _, hrun', block, rfl, hdevice, hnew, hwrites, haccounted⟩
    rw [hrun'] at hrun
    cases hrun
    exact .copy init last block hlookup hfull (hgpu last (by simp)) (by omega) hdevice hnew hwrites
      haccounted

theorem appended_of_run {cow : Option (Nat × Nat)} (h : manager.Accounted)
    (hgpu : ∀ blockTable, manager.blockTables.lookup sequenceId = some blockTable →
      ∀ block ∈ blockTable, block.device = .gpu)
    (hrun : (appendSlots sequenceId sequence).run manager = .ok cow manager')
    : Appended manager manager' sequenceId sequence cow := by
  have hpos : sequence.getNumTotalLogicalTokenBlocks ≠ 0 := by
    intro hzero
    unfold appendSlots at hrun
    simp only [hzero, if_true, run_bind] at hrun
    cases hrun
  cases hlookup : manager.blockTables.lookup sequenceId with
  | none =>
    unfold appendSlots at hrun
    simp only [hpos, if_false, run_bind, run_get, hlookup] at hrun
    cases hrun
    refine .keep rfl ?_
    rintro block ⟨init, hsome, -⟩
    rw [hlookup] at hsome
    cases hsome
  | some blockTable =>
    have hgpu := hgpu blockTable hlookup
    rcases Nat.lt_trichotomy (blockTable.length + 1) sequence.getNumTotalLogicalTokenBlocks
      with hbehind | hshort | hfull
    . rcases appendSlots_run_of_behind hlookup hbehind with ⟨e, herror⟩
      rw [herror] at hrun
      cases hrun
    . rw [appendSlots_run_of_short hlookup h.blockSlidingWindow_eq hshort.symm] at hrun
      have hfree : 1 ≤ manager.getNumFreeBlocks .gpu := by
        simp only [appendSlots.pushBlock, bind_run_eq_ok] at hrun
        rcases hrun with ⟨block, next, halloc, -⟩
        exact one_le_of_allocateBlock halloc
      rcases appendSlots.pushBlock_yields h hlookup hgpu hfree
        with ⟨_, _, hrun', block, rfl, hdevice, hnew, hwrites, haccounted⟩
      rw [hrun'] at hrun
      cases hrun
      exact .push blockTable block hlookup (by omega) hdevice hnew hwrites haccounted
    . rw [appendSlots_run_of_full hlookup (by omega) (by omega)] at hrun
      rcases List.eq_nil_or_concat blockTable with rfl | ⟨init, last, hconcat⟩
      . simp only [List.length_nil] at hfull
        omega
      . rw [List.concat_eq_append] at hconcat
        subst hconcat
        rw [List.length_append, List.length_singleton] at hfull
        exact appended_of_copyOnWrite h hlookup hgpu (by omega) hrun

namespace Appended

variable {cow : Option (Nat × Nat)} (h : Appended manager manager' sequenceId sequence cow)
include h

theorem sameConfig : manager.SameConfig manager' := by
  cases h with
  | keep hmanager =>
    rw [hmanager]
    exact SameConfig.refl _
  | push _ _ _ _ _ _ hwrites => exact hwrites.1
  | copy _ _ _ _ _ _ _ _ _ hwrites => exact hwrites.1

theorem accounted' (haccounted : manager.Accounted) : manager'.Accounted := by
  cases h with
  | keep hmanager =>
    rw [hmanager]
    exact haccounted
  | push _ _ _ _ _ _ _ haccounted' => exact haccounted'
  | copy _ _ _ _ _ _ _ _ _ _ haccounted' => exact haccounted'

theorem lookup_of_ne {id : Nat} (hid : id ≠ sequenceId)
    : manager'.blockTables.lookup id = manager.blockTables.lookup id := by
  cases h with
  | keep hmanager => rw [hmanager]
  | push _ _ _ _ _ _ hwrites => rw [hwrites.2, if_neg hid]
  | copy _ _ _ _ _ _ _ _ _ hwrites => rw [hwrites.2, if_neg hid]

theorem isSome_lookup (id : Nat)
    : (manager'.blockTables.lookup id).isSome = (manager.blockTables.lookup id).isSome := by
  by_cases hid : id = sequenceId
  . subst hid
    cases h with
    | keep hmanager => rw [hmanager]
    | push blockTable block hlookup _ _ _ hwrites => rw [hwrites.2, if_pos rfl, hlookup]; rfl
    | copy init last block hlookup _ _ _ _ _ hwrites => rw [hwrites.2, if_pos rfl, hlookup]; rfl
  . rw [h.lookup_of_ne hid]

theorem fillsLast_iff_of_ne {id : Nat} (hid : id ≠ sequenceId) {other : Sequence}
    : manager'.FillsLast id other block ↔ manager.FillsLast id other block := by
  unfold FillsLast
  rw [h.lookup_of_ne hid]

theorem copies_of_fillsLast (hfills : manager.FillsLast sequenceId sequence block)
    (hcount : 2 ≤ manager.pool.refCount block) : ∃ target, cow = some (block.blockNumber, target) := by
  rcases hfills with ⟨init', hlookup', hfull'⟩
  cases h with
  | keep _ hkeep =>
    have := hkeep block ⟨init', hlookup', hfull'⟩
    omega
  | push blockTable new hlookup hlength =>
    rw [hlookup] at hlookup'
    cases hlookup'
    rw [List.length_append, List.length_singleton] at hlength
    omega
  | copy init last new hlookup =>
    rw [hlookup] at hlookup'
    have hlast : last = block := by simpa using (List.append_inj' (Option.some.inj hlookup') rfl).2
    rw [hlast]
    exact ⟨new.blockNumber, rfl⟩

theorem refCount_of_ne (haccounted : manager.Accounted) (hown : block ∈ manager.owned)
    (hne : ∀ source target, cow = some (source, target) → block ≠ ⟨.gpu, source⟩)
    : manager'.pool.refCount block = manager.pool.refCount block := by
  have hcreated := haccounted.balanced.mem_univ block hown
  cases h with
  | keep hmanager => rw [hmanager]
  | push blockTable new hlookup _ _ hnew hwrites haccounted' =>
    have hcount := hwrites.refCount_eq haccounted haccounted' hlookup hcreated
    have hblock : new ≠ block := fun heq => hnew (heq ▸ hown)
    rw [List.count_append, List.count_singleton, beq_eq_false_iff_ne.mpr hblock] at hcount
    simp only [Bool.false_eq_true, if_false] at hcount
    omega
  | copy init last new hlookup _ hlast _ _ hnew hwrites haccounted' =>
    have hcount := hwrites.refCount_eq haccounted haccounted' hlookup hcreated
    have hblock : new ≠ block := fun heq => hnew (heq ▸ hown)
    have hsource : last ≠ block := by
      intro heq
      apply hne _ _ rfl
      rw [← heq, ← hlast]
    rw [List.count_append, List.count_append, List.count_singleton, List.count_singleton,
      beq_eq_false_iff_ne.mpr hblock, beq_eq_false_iff_ne.mpr hsource] at hcount
    omega

omit h in
/--
The block that is copied loses one of its references, and the copy is a new block.
-/
theorem exists_of_some {source target : Nat}
    (h : Appended manager manager' sequenceId sequence (some (source, target)))
    (haccounted : manager.Accounted)
    : manager.FillsLast sequenceId sequence ⟨.gpu, source⟩
        ∧ 2 ≤ manager.pool.refCount ⟨.gpu, source⟩
        ∧ manager'.pool.refCount ⟨.gpu, source⟩ + 1 = manager.pool.refCount ⟨.gpu, source⟩
        ∧ ⟨.gpu, target⟩ ∉ manager.owned
        ∧ ⟨.gpu, target⟩ ∈ manager'.owned := by
  cases h with
  | copy init last new hlookup hfull hlast hcount hdevice hnew hwrites haccounted' =>
    have hlastEq : last = ⟨.gpu, last.blockNumber⟩ := SyncPhysicalTokenBlock.ext hlast rfl
    have hnewEq : new = ⟨.gpu, new.blockNumber⟩ := SyncPhysicalTokenBlock.ext hdevice rfl
    rw [← hlastEq, ← hnewEq]
    have hown : last ∈ manager.owned := mem_owned_of_mem hlookup (by simp)
    have hnodup := haccounted.nodup _ _ hlookup
    rw [← List.concat_eq_append, List.nodup_concat] at hnodup
    have hrefs := hwrites.refCount_eq haccounted haccounted' hlookup
      (haccounted.balanced.mem_univ last hown)
    have hblock : new ≠ last := fun heq => hnew (heq ▸ hown)
    rw [List.count_append, List.count_append, List.count_singleton, List.count_singleton,
      beq_eq_false_iff_ne.mpr hblock, List.count_eq_zero_of_not_mem hnodup.1] at hrefs
    simp only [BEq.rfl, if_true, Bool.false_eq_true, if_false] at hrefs
    have hlookup' : manager'.blockTables.lookup sequenceId = some (init ++ [new]) := by
      rw [hwrites.2, if_pos rfl]
    exact ⟨⟨init, hlookup, hfull⟩, hcount, by omega, hnew, mem_owned_of_mem hlookup' (by simp)⟩

/--
No block is released that a table holds.
-/
theorem owned_subset (haccounted : manager.Accounted) (hown : block ∈ manager.owned)
    : block ∈ manager'.owned := by
  have hcreated := haccounted.balanced.mem_univ block hown
  have hpos : 1 ≤ manager'.pool.refCount block := by
    by_cases hsource : ∃ source target, cow = some (source, target) ∧ block = ⟨.gpu, source⟩
    . rcases hsource with ⟨source, target, rfl, rfl⟩
      have := h.exists_of_some haccounted
      omega
    . have heq := h.refCount_of_ne haccounted hown
        fun source target hcow hblock => hsource ⟨source, target, hcow, hblock⟩
      have := haccounted.balanced.one_le_refCount hown
      omega
  have hcreated' : block ∈ manager'.created := by
    rw [h.sameConfig.created_eq]
    exact hcreated
  rw [(h.accounted' haccounted).balanced.refCount_eq block hcreated'] at hpos
  exact Multiset.one_le_count_iff_mem.mp hpos

theorem refCount_le (haccounted : manager.Accounted) (hown : block ∈ manager.owned)
    : manager'.pool.refCount block ≤ manager.pool.refCount block := by
  by_cases hsource : ∃ source target, cow = some (source, target) ∧ block = ⟨.gpu, source⟩
  . rcases hsource with ⟨source, target, rfl, rfl⟩
    have := h.exists_of_some haccounted
    omega
  . exact Nat.le_of_eq <| h.refCount_of_ne haccounted hown
      fun source target hcow hblock => hsource ⟨source, target, hcow, hblock⟩

end Appended

/--
What the calls of `append_slots` for `seqs`, in this order, return.
-/
def appendSlotsOf (heap : SequenceHeap) : List SequenceRef → BlockSpaceM (List (Nat × Nat))
  | [] => return []
  | seq :: seqs => do
    let cow ← appendSlots seq.sequenceId (heap seq)
    let cows ← appendSlotsOf heap seqs
    return cow.toList ++ cows

/--
No two of the sequences write to the same last block, unless at most two tables hold it.
-/
def CopiesOnce (manager : BlockSpaceManager) (heap : SequenceHeap) (seqs : List SequenceRef) : Prop :=
  ∀ seq ∈ seqs, ∀ other ∈ seqs, seq ≠ other → ∀ block,
    manager.FillsLast seq.sequenceId (heap seq) block
      → manager.FillsLast other.sequenceId (heap other) block
      → (manager.blocks block).refCount ≤ 2

/--
The sequences are different ones, and their tables are on the GPU.
-/
structure Appendable (manager : BlockSpaceManager) (seqs : List SequenceRef) : Prop where
  accounted : manager.Accounted
  nodup : (seqs.map (·.sequenceId)).Nodup
  device_eq : ∀ seq ∈ seqs, ∀ blockTable,
    manager.blockTables.lookup seq.sequenceId = some blockTable →
      ∀ block ∈ blockTable, block.device = .gpu

section AppendSlotsOf

variable {heap : SequenceHeap} {seq other : SequenceRef} {seqs : List SequenceRef}
variable {pairs : List (Nat × Nat)}

theorem Appendable.ne_of_mem (h : manager.Appendable (seq :: seqs)) (hother : other ∈ seqs)
    : other.sequenceId ≠ seq.sequenceId := by
  have hnodup := (List.nodup_cons.mp h.nodup).1
  intro heq
  apply hnodup
  change seq.sequenceId ∈ _
  rw [← heq]
  exact List.mem_map_of_mem hother

theorem Appendable.of_appended {cow : Option (Nat × Nat)} (h : manager.Appendable (seq :: seqs))
    (happended : Appended manager manager' seq.sequenceId (heap seq) cow)
    : manager'.Appendable seqs := by
  refine ⟨happended.accounted' h.accounted, (List.nodup_cons.mp h.nodup).2, ?_⟩
  intro other hother blockTable hlookup
  rw [happended.lookup_of_ne (h.ne_of_mem hother)] at hlookup
  exact h.device_eq other (List.mem_cons_of_mem _ hother) blockTable hlookup

/--
The first call, and the calls for the other sequences, which find their tables as they were.
-/
theorem appendSlotsOf_cons (h : manager.Appendable (seq :: seqs))
    (hrun : (appendSlotsOf heap (seq :: seqs)).run manager = .ok pairs manager')
    : ∃ cow next cows,
        Appended manager next seq.sequenceId (heap seq) cow
          ∧ next.Appendable seqs
          ∧ (appendSlotsOf heap seqs).run next = .ok cows manager'
          ∧ pairs = cow.toList ++ cows := by
  simp only [appendSlotsOf, bind_run_eq_ok] at hrun
  rcases hrun with ⟨cow, next, hfirst, cows, last, hrest, hpure⟩
  cases hpure
  have happended := appended_of_run h.accounted (h.device_eq seq List.mem_cons_self) hfirst
  exact ⟨cow, next, cows, happended, h.of_appended happended, hrest, rfl⟩

theorem CopiesOnce.of_appended {cow : Option (Nat × Nat)} (h : manager.CopiesOnce heap (seq :: seqs))
    (happendable : manager.Appendable (seq :: seqs))
    (happended : Appended manager manager' seq.sequenceId (heap seq) cow)
    : manager'.CopiesOnce heap seqs := by
  intro first hfirst second hsecond hne block hfills hfills'
  rw [happended.fillsLast_iff_of_ne (happendable.ne_of_mem hfirst)] at hfills
  rw [happended.fillsLast_iff_of_ne (happendable.ne_of_mem hsecond)] at hfills'
  have hown : block ∈ manager.owned := hfills.mem_owned
  calc (manager'.blocks block).refCount
    _ ≤ (manager.blocks block).refCount := happended.refCount_le happendable.accounted hown
    _ ≤ 2 := h first (List.mem_cons_of_mem _ hfirst) second (List.mem_cons_of_mem _ hsecond) hne
      block hfills hfills'

variable (h : manager.Appendable seqs)
variable (hrun : (appendSlotsOf heap seqs).run manager = .ok pairs manager')
include h hrun

theorem isSome_lookup_of_appendSlotsOf (id : Nat)
    : (manager'.blockTables.lookup id).isSome = (manager.blockTables.lookup id).isSome := by
  induction seqs generalizing manager pairs with
  | nil =>
    cases hrun
    rfl
  | cons seq seqs ih =>
    rcases appendSlotsOf_cons h hrun with ⟨cow, next, cows, happended, hnext, hrest, -⟩
    exact (ih hnext hrest).trans (happended.isSome_lookup id)

theorem owned_subset_of_appendSlotsOf (hown : block ∈ manager.owned) : block ∈ manager'.owned := by
  induction seqs generalizing manager pairs with
  | nil =>
    cases hrun
    exact hown
  | cons seq seqs ih =>
    rcases appendSlotsOf_cons h hrun with ⟨cow, next, cows, happended, hnext, hrest, -⟩
    exact ih hnext hrest (happended.owned_subset h.accounted hown)

/--
The source of a copy is the last block of one of the tables, and shared. Its destination is a new
block.
-/
theorem of_mem_appendSlotsOf {source target : Nat} (hmem : (source, target) ∈ pairs)
    : (∃ seq ∈ seqs, manager.FillsLast seq.sequenceId (heap seq) ⟨.gpu, source⟩)
        ∧ 2 ≤ manager.pool.refCount ⟨.gpu, source⟩
        ∧ ⟨.gpu, target⟩ ∉ manager.owned
        ∧ ⟨.gpu, target⟩ ∈ manager'.owned := by
  induction seqs generalizing manager pairs with
  | nil =>
    cases hrun
    cases hmem
  | cons seq seqs ih =>
    rcases appendSlotsOf_cons h hrun with ⟨cow, next, cows, happended, hnext, hrest, rfl⟩
    rcases List.mem_append.mp hmem with hmem | hmem
    . rw [Option.mem_toList] at hmem
      subst hmem
      rcases happended.exists_of_some h.accounted with ⟨hfills, hcount, -, hnew, hown⟩
      exact ⟨⟨seq, List.mem_cons_self, hfills⟩, hcount, hnew,
        owned_subset_of_appendSlotsOf hnext hrest hown⟩
    . rcases ih hnext hrest hmem with ⟨⟨other, hother, hfills⟩, hcount, hnew, hown⟩
      rw [happended.fillsLast_iff_of_ne (h.ne_of_mem hother)] at hfills
      have hsource : ⟨.gpu, source⟩ ∈ manager.owned := hfills.mem_owned
      refine ⟨⟨other, List.mem_cons_of_mem _ hother, hfills⟩, ?_, ?_, hown⟩
      . exact hcount.trans (happended.refCount_le h.accounted hsource)
      . intro hold
        exact hnew (happended.owned_subset h.accounted hold)

theorem nodup_targets_of_appendSlotsOf : (pairs.map (·.2)).Nodup := by
  induction seqs generalizing manager pairs with
  | nil =>
    cases hrun
    exact List.nodup_nil
  | cons seq seqs ih =>
    rcases appendSlotsOf_cons h hrun with ⟨cow, next, cows, happended, hnext, hrest, rfl⟩
    cases cow with
    | none => exact ih hnext hrest
    | some pair =>
      rw [Option.toList_some, List.singleton_append, List.map_cons, List.nodup_cons]
      refine ⟨?_, ih hnext hrest⟩
      intro hmem
      rcases List.mem_map.mp hmem with ⟨later, hlater, heq⟩
      -- the later destination is new at a time when the first one is in a table
      have hnew := (of_mem_appendSlotsOf hnext hrest hlater).2.2.1
      rw [heq] at hnew
      exact hnew (happended.exists_of_some h.accounted).2.2.2.2

theorem nodup_sources_of_appendSlotsOf (honce : manager.CopiesOnce heap seqs)
    : (pairs.map (·.1)).Nodup := by
  induction seqs generalizing manager pairs with
  | nil =>
    cases hrun
    exact List.nodup_nil
  | cons seq seqs ih =>
    rcases appendSlotsOf_cons h hrun with ⟨cow, next, cows, happended, hnext, hrest, rfl⟩
    have hrestOnce := honce.of_appended h happended
    cases cow with
    | none => exact ih hnext hrest hrestOnce
    | some pair =>
      rw [Option.toList_some, List.singleton_append, List.map_cons, List.nodup_cons]
      refine ⟨?_, ih hnext hrest hrestOnce⟩
      intro hmem
      rcases List.mem_map.mp hmem with ⟨later, hlater, heq⟩
      -- the later copy leaves a block that is shared even after the first one has left it
      rcases of_mem_appendSlotsOf hnext hrest hlater with ⟨⟨other, hother, hfills'⟩, hcount', -⟩
      rcases happended.exists_of_some h.accounted with ⟨hfills, -, hcount, -⟩
      rw [happended.fillsLast_iff_of_ne (h.ne_of_mem hother), heq] at hfills'
      rw [heq] at hcount'
      have hne : seq ≠ other := by
        rintro rfl
        exact h.ne_of_mem hother rfl
      have hle : manager.pool.refCount ⟨.gpu, pair.1⟩ ≤ 2 :=
        honce seq List.mem_cons_self other (List.mem_cons_of_mem _ hother) hne _ hfills hfills'
      omega

/--
A shared last block is copied when one of the sequences writes to it.
-/
theorem exists_mem_appendSlotsOf (hother : other ∈ seqs)
    (hfills : manager.FillsLast other.sequenceId (heap other) block)
    (hcount : 2 ≤ manager.pool.refCount block)
    : ∃ target, (block.blockNumber, target) ∈ pairs := by
  induction seqs generalizing manager pairs with
  | nil => cases hother
  | cons seq seqs ih =>
    rcases appendSlotsOf_cons h hrun with ⟨cow, next, cows, happended, hnext, hrest, rfl⟩
    by_cases hcow : ∃ target, cow = some (block.blockNumber, target)
    . rcases hcow with ⟨target, rfl⟩
      exact ⟨target, by simp⟩
    . have hown : block ∈ manager.owned := hfills.mem_owned
      have hsame : next.pool.refCount block = manager.pool.refCount block := by
        apply happended.refCount_of_ne h.accounted hown
        rintro source target rfl rfl
        exact hcow ⟨target, rfl⟩
      have hmem : other ∈ seqs := by
        rcases List.mem_cons.mp hother with rfl | hmem
        . exfalso
          exact hcow (happended.copies_of_fillsLast hfills hcount)
        . exact hmem
      rw [← happended.fillsLast_iff_of_ne (h.ne_of_mem hmem)] at hfills
      rcases ih hnext hrest hmem hfills (hsame ▸ hcount) with ⟨target, htarget⟩
      exact ⟨target, List.mem_append_right _ htarget⟩

/--
When two sequences write to a last block that three tables hold, it is copied twice.
-/
theorem exists_twice_of_not_copiesOnce (honce : ¬ manager.CopiesOnce heap seqs)
    : ∃ source target target', (source, target) ∈ pairs ∧ (source, target') ∈ pairs
        ∧ target ≠ target' := by
  simp only [CopiesOnce, not_forall, not_le] at honce
  rcases honce with ⟨first, hfirst, second, hsecond, hne, block, hfills, hfills', hcount⟩
  change 2 < manager.pool.refCount block at hcount
  have hown : block ∈ manager.owned := hfills.mem_owned
  have hgpu : (⟨.gpu, block.blockNumber⟩ : SyncPhysicalTokenBlock) = block := by
    rcases hfills with ⟨init, hlookup, -⟩
    exact SyncPhysicalTokenBlock.ext (h.device_eq first hfirst _ hlookup block (by simp)).symm rfl
  induction seqs generalizing manager pairs with
  | nil => cases hfirst
  | cons seq seqs ih =>
    rcases appendSlotsOf_cons h hrun with ⟨cow, next, cows, happended, hnext, hrest, rfl⟩
    by_cases hcow : ∃ target, cow = some (block.blockNumber, target)
    . rcases hcow with ⟨target, rfl⟩
      rcases happended.exists_of_some h.accounted with ⟨hfillsSeq, -, hless, -, htarget⟩
      rw [hgpu] at hless
      -- the first copy leaves two tables with the block, and one of the two sequences is still to come
      have hlater : ∃ other ∈ seqs, manager.FillsLast other.sequenceId (heap other) block := by
        rcases List.mem_cons.mp hfirst with rfl | hmem
        . rcases List.mem_cons.mp hsecond with rfl | hmem
          . exact absurd rfl hne
          . exact ⟨second, hmem, hfills'⟩
        . exact ⟨first, hmem, hfills⟩
      rcases hlater with ⟨other, hother, hfillsOther⟩
      rw [← happended.fillsLast_iff_of_ne (h.ne_of_mem hother)] at hfillsOther
      rcases exists_mem_appendSlotsOf hnext hrest hother hfillsOther (by omega)
        with ⟨target', htarget'⟩
      refine ⟨block.blockNumber, target, target', by simp, List.mem_append_right _ htarget', ?_⟩
      rintro rfl
      exact (of_mem_appendSlotsOf hnext hrest htarget').2.2.1 htarget
    . have hsame : next.pool.refCount block = manager.pool.refCount block := by
        apply happended.refCount_of_ne h.accounted hown
        rintro source target rfl rfl
        exact hcow ⟨target, rfl⟩
      have htail : ∀ other ∈ seq :: seqs, manager.FillsLast other.sequenceId (heap other) block →
          other ∈ seqs ∧ next.FillsLast other.sequenceId (heap other) block := by
        intro other hother hfillsOther
        rcases List.mem_cons.mp hother with rfl | hmem
        . exfalso
          exact hcow (happended.copies_of_fillsLast hfillsOther (by omega))
        . rw [happended.fillsLast_iff_of_ne (h.ne_of_mem hmem)]
          exact ⟨hmem, hfillsOther⟩
      rcases htail first hfirst hfills with ⟨hfirst, hfills⟩
      rcases htail second hsecond hfills' with ⟨hsecond, hfills'⟩
      rcases ih hnext hrest hfirst hsecond hfills hfills' (by omega)
          (happended.owned_subset h.accounted hown)
        with ⟨source, target, target', hmem, hmem', htargets⟩
      exact ⟨source, target, target', List.mem_append_right _ hmem, List.mem_append_right _ hmem',
        htargets⟩

end AppendSlotsOf

end BlockSpaceManager

end AtomaInfer
