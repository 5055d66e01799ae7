import AtomaInfer.BlockManager.Accounting

/-!
Swapping the tables of a sequence group from one device to the other. Blocks that are shared before
the swap are shared in the same way after it.
-/

theorem List.Forall₂.exists_of_mem_right {α β : Type} {R : α → β → Prop} {as : List α} {bs : List β}
    (h : List.Forall₂ R as bs) {b : β} (hb : b ∈ bs) : ∃ a ∈ as, R a b := by
  induction h with
  | nil => cases hb
  | @cons a b' as bs hab _ ih =>
    rcases List.mem_cons.mp hb with rfl | hb
    . exact ⟨a, List.mem_cons_self, hab⟩
    . rcases ih hb with ⟨a', ha', hab'⟩
      exact ⟨a', List.mem_cons_of_mem _ ha', hab'⟩

theorem Option.Rel.imp {α β : Type} {R S : α → β → Prop} (hRS : ∀ a b, R a b → S a b)
    {a : Option α} {b : Option β} (h : Option.Rel R a b) : Option.Rel S a b := by
  cases h with
  | none => exact .none
  | some h => exact .some (hRS _ _ h)

namespace AtomaInfer

namespace BlockSpaceManager

open EStateM RefPool

section Mapping

variable {target : BlockDevice} {numbers : Finset Nat}
variable {before own : Multiset SyncPhysicalTokenBlock} {mapping mapping' : SwapMapping}

/--
The mapping of a swap to `target`: it is defined on some of `numbers`, and different numbers go to
different blocks, which were free `before` the swap and are referenced now.
-/
structure SwapMapping.Valid (target : BlockDevice) (numbers : Finset Nat)
    (before own : Multiset SyncPhysicalTokenBlock) (mapping : SwapMapping) : Prop where
  mem_numbers : ∀ number block, mapping.lookup number = some block → number ∈ numbers
  device_eq : ∀ number block, mapping.lookup number = some block → block.device = target
  notMem_before : ∀ number block, mapping.lookup number = some block → block ∉ before
  mem_own : ∀ number block, mapping.lookup number = some block → block ∈ own
  injective : ∀ number number' block,
    mapping.lookup number = some block → mapping.lookup number' = some block → number = number'

/--
`mapping'` extends `mapping`.
-/
def SwapMapping.Extends (mapping mapping' : SwapMapping) : Prop :=
  ∀ number block, mapping.lookup number = some block → mapping'.lookup number = some block

/--
`block'` is where the mapping sends `block`.
-/
def SwapMapping.Sends (mapping : SwapMapping) (block block' : SyncPhysicalTokenBlock) : Prop :=
  mapping.lookup block.blockNumber = some block'

theorem SwapMapping.Extends.trans {mapping'' : SwapMapping} (h : mapping.Extends mapping')
    (h' : mapping'.Extends mapping'') : mapping.Extends mapping'' := by
  intro number block hlookup
  exact h' number block (h number block hlookup)

theorem SwapMapping.Valid.empty
    : SwapMapping.Valid target numbers before own ∅ := by
  constructor <;> simp

theorem SwapMapping.Valid.mono {own' : Multiset SyncPhysicalTokenBlock}
    (h : SwapMapping.Valid target numbers before own mapping)
    (hown : ∀ block ∈ own, block.device = target → block ∈ own')
    : SwapMapping.Valid target numbers before own' mapping := by
  refine ⟨h.mem_numbers, h.device_eq, h.notMem_before, ?_, h.injective⟩
  intro number block hlookup
  exact hown block (h.mem_own number block hlookup) (h.device_eq number block hlookup)

theorem SwapMapping.Valid.insert {number : Nat} {block : SyncPhysicalTokenBlock}
    (h : SwapMapping.Valid target numbers before own mapping) (hnumber : number ∈ numbers)
    (hdevice : block.device = target) (hbefore : block ∉ before) (hown : block ∉ own)
    : SwapMapping.Valid target numbers before (block ::ₘ own) (mapping.insert number block) := by
  have hlookup : ∀ n, (mapping.insert number block).lookup n
      = if n = number then some block else mapping.lookup n := by
    intro n
    split
    . next hn => rw [hn, AList.lookup_insert]
    . next hn => rw [AList.lookup_insert_ne hn]
  constructor
  . intro n b hn
    have := h.mem_numbers n b
    grind
  . intro n b hn
    have := h.device_eq n b
    grind
  . intro n b hn
    have := h.notMem_before n b
    grind
  . intro n b hn
    have := h.mem_own n b
    rw [Multiset.mem_cons]
    grind
  . intro n n' b hn hn'
    have h₁ := h.mem_own n b
    have h₂ := h.mem_own n' b
    have h₃ := h.injective n n' b
    rw [hlookup] at hn hn'
    split at hn <;> split at hn' <;> grind

theorem SwapMapping.Valid.keys_length_lt {number : Nat}
    (h : SwapMapping.Valid target numbers before own mapping) (hnumber : number ∈ numbers)
    (hnone : mapping.lookup number = none) : mapping.keys.length < numbers.card := by
  rw [← List.toFinset_card_of_nodup (AList.keys_nodup mapping)]
  apply Finset.card_lt_card
  rw [Finset.ssubset_iff_of_subset]
  . refine ⟨number, hnumber, ?_⟩
    rw [List.mem_toFinset, ← AList.mem_keys]
    exact AList.lookup_eq_none.mp hnone
  . intro n hn
    rw [List.mem_toFinset, ← AList.mem_keys] at hn
    rcases Option.isSome_iff_exists.mp (AList.lookup_isSome.mpr hn) with ⟨block, hlookup⟩
    exact h.mem_numbers n block hlookup

end Mapping

section Table

variable {source target : BlockDevice} {numbers : Finset Nat}
variable {manager : BlockSpaceManager} {univ : Set SyncPhysicalTokenBlock}
variable {before own : Multiset SyncPhysicalTokenBlock} {mapping : SwapMapping}

/--
There are enough free blocks for the numbers that are not mapped yet.
-/
def HasRoom (manager : BlockSpaceManager) (target : BlockDevice) (numbers : Finset Nat)
    (mapping : SwapMapping) : Prop :=
  numbers.card ≤ manager.getNumFreeBlocks target + mapping.keys.length

theorem getNumFreeBlocks_release {manager' : BlockSpaceManager} {block : SyncPhysicalTokenBlock}
    (hne : source ≠ target) (h : manager'.pool = manager.pool.release source block)
    : manager'.getNumFreeBlocks target = manager.getNumFreeBlocks target := by
  rw [getNumFreeBlocks_eq, getNumFreeBlocks_eq, h]
  simp only [RefPool.release]
  split
  . rw [Function.update_of_ne hne.symm]
  . rfl

theorem swapBlock.newBlock_yields {number : Nat}
    (hbalanced : Balanced (·.device) univ manager.pool own)
    (hbefore : ∀ block ∈ before, block.device = target → block ∈ own)
    (hnumber : number ∈ numbers)
    (hvalid : SwapMapping.Valid target numbers before own mapping)
    (hroom : manager.HasRoom target numbers mapping)
    : Yields (swapBlock.newBlock target mapping number) manager fun acc manager' =>
        acc.1.lookup number = some acc.2
          ∧ mapping.Extends acc.1
          ∧ SwapMapping.Valid target numbers before (acc.2 ::ₘ own) acc.1
          ∧ manager'.HasRoom target numbers acc.1
          ∧ Balanced (·.device) univ manager'.pool (acc.2 ::ₘ own)
          ∧ manager.SameConfig manager'
          ∧ manager'.blockTables = manager.blockTables := by
  unfold HasRoom at *
  unfold swapBlock.newBlock
  cases hlookup : mapping.lookup number with
  | none =>
    have hlt := hvalid.keys_length_lt hnumber hlookup
    apply Yields.bind (allocateBlock_yields (by omega))
    rintro newBlock m ⟨rest, hrest, hsame⟩
    apply Yields.pure
    have ⟨hdevice, _, hown⟩ := hbalanced.head_free hrest
    refine ⟨AList.lookup_insert mapping, ?_, ?_, ?_, ?_, hsame.toSameConfig, hsame.blockTables_eq⟩
    . intro n block hn
      have : n ≠ number := by
        rintro rfl
        rw [hlookup] at hn
        cases hn
      rw [AList.lookup_insert_ne this]
      exact hn
    . exact hvalid.insert hnumber hdevice (fun hmem => hown (hbefore newBlock hmem hdevice)) hown
    . rw [getNumFreeBlocks_eq, hrest, List.length_cons] at hroom
      rw [getNumFreeBlocks_eq, hsame.pool_eq]
      have hkeys : (mapping.insert number newBlock).keys.length = mapping.keys.length + 1 := by
        rw [AList.keys_insert, List.length_cons,
          List.erase_of_not_mem (AList.mem_keys.not.mp (AList.lookup_eq_none.mp hlookup))]
      simp only [RefPool.take, Function.update_self]
      omega
    . rw [hsame.pool_eq]
      exact hbalanced.take hrest
  | some newBlock =>
    apply Yields.bind incrementRefCount_yields
    rintro _ m hsame
    apply Yields.pure
    refine ⟨hlookup, fun _ _ hn => hn, ?_, ?_, ?_, hsame.toSameConfig, hsame.blockTables_eq⟩
    . exact hvalid.mono fun block hblock _ => Multiset.mem_cons_of_mem hblock
    . rw [getNumFreeBlocks_eq] at *
      rw [hsame.pool_eq]
      exact hroom
    . rw [hsame.pool_eq]
      exact hbalanced.share (hvalid.mem_own number newBlock hlookup)

theorem swapBlock_yields {newBlockTable : BlockTable} {block : SyncPhysicalTokenBlock}
    (hne : source ≠ target) (hbalanced : Balanced (·.device) univ manager.pool own)
    (hbefore : ∀ block ∈ before, block.device = target → block ∈ own)
    (hblock : block ∈ own) (hsource : block.device = source)
    (hnumber : block.blockNumber ∈ numbers)
    (hvalid : SwapMapping.Valid target numbers before own mapping)
    (hroom : manager.HasRoom target numbers mapping)
    : Yields (swapBlock source target (mapping, newBlockTable) block) manager fun acc manager' =>
        ∃ newBlock,
          acc.2 = newBlockTable ++ [newBlock]
            ∧ acc.1.Sends block newBlock
            ∧ mapping.Extends acc.1
            ∧ SwapMapping.Valid target numbers before (newBlock ::ₘ own.erase block) acc.1
            ∧ manager'.HasRoom target numbers acc.1
            ∧ Balanced (·.device) univ manager'.pool (newBlock ::ₘ own.erase block)
            ∧ manager.SameConfig manager'
            ∧ manager'.blockTables = manager.blockTables := by
  unfold swapBlock
  apply Yields.bind (swapBlock.newBlock_yields hbalanced hbefore hnumber hvalid hroom)
  rintro ⟨mapping', newBlock⟩ m ⟨hsends, hextends, hvalid', hroom', hbalanced', hconfig, htables⟩
  have hmem : block ∈ newBlock ::ₘ own := Multiset.mem_cons_of_mem hblock
  have hnew : newBlock.device = target := hvalid'.device_eq _ _ hsends
  have hneq : newBlock ≠ block := by
    rintro rfl
    exact hne (hsource.symm.trans hnew)
  apply Yields.bind (freeBlock_yields (hbalanced'.one_le_refCount hmem))
  rintro _ m' hsame
  apply Yields.pure
  have herase : (newBlock ::ₘ own).erase block = newBlock ::ₘ own.erase block :=
    Multiset.erase_cons_tail _ hneq
  refine ⟨newBlock, rfl, hsends, hextends, ?_, ?_, ?_, hconfig.trans hsame.toSameConfig, ?_⟩
  . apply hvalid'.mono
    intro c hc hdevice
    have : c ≠ block := by
      rintro rfl
      exact hne (hsource.symm.trans hdevice)
    rw [← herase, Multiset.mem_erase_of_ne this]
    exact hc
  . unfold HasRoom at *
    rw [getNumFreeBlocks_release hne hsame.pool_eq]
    exact hroom'
  . rw [hsame.pool_eq, ← herase]
    exact hbalanced'.release hmem hsource
  . rw [hsame.blockTables_eq, htables]

/--
The inner loop of a swap moves the references of `blockTable` to the new table.
-/
theorem swapBlock.foldlM_yields {others : Multiset SyncPhysicalTokenBlock} (blockTable : BlockTable)
    (hne : source ≠ target)
    (hbalanced : Balanced (·.device) univ manager.pool (blockTable + others))
    (hbefore : ∀ block ∈ before, block.device = target → block ∈ others)
    (hsource : ∀ block ∈ blockTable, block.device = source)
    (hnumbers : ∀ block ∈ blockTable, block.blockNumber ∈ numbers)
    (hvalid : SwapMapping.Valid target numbers before others mapping)
    (hroom : manager.HasRoom target numbers mapping)
    : Yields (blockTable.foldlM (swapBlock source target) (mapping, [])) manager fun acc manager' =>
        List.Forall₂ acc.1.Sends blockTable acc.2
          ∧ mapping.Extends acc.1
          ∧ SwapMapping.Valid target numbers before (acc.2 + others) acc.1
          ∧ manager'.HasRoom target numbers acc.1
          ∧ Balanced (·.device) univ manager'.pool (acc.2 + others)
          ∧ manager.SameConfig manager'
          ∧ manager'.blockTables = manager.blockTables := by
  let I : BlockTable → SwapMapping × BlockTable → BlockSpaceManager → Prop :=
    fun rest acc manager' =>
      ∃ done,
        blockTable = done ++ rest
          ∧ List.Forall₂ acc.1.Sends done acc.2
          ∧ mapping.Extends acc.1
          ∧ SwapMapping.Valid target numbers before (rest + (acc.2 + others)) acc.1
          ∧ manager'.HasRoom target numbers acc.1
          ∧ Balanced (·.device) univ manager'.pool (rest + (acc.2 + others))
          ∧ manager.SameConfig manager'
          ∧ manager'.blockTables = manager.blockTables
  have hloop := Yields.foldlM I (f := swapBlock source target)
  apply Yields.mono (hloop ?_ blockTable (mapping, []) manager ?_)
  . rintro ⟨mapping', newBlockTable⟩ m ⟨done, hdone, hsends, hextends, hvalid, hroom, hbalanced, h⟩
    rw [List.append_nil] at hdone
    subst hdone
    simp only [Multiset.coe_nil, zero_add] at hvalid hbalanced
    exact ⟨hsends, hextends, hvalid, hroom, hbalanced, h⟩
  . rintro block rest ⟨mapping', newBlockTable⟩ m
      ⟨done, hdone, hsends, hextends, hvalid, hroom, hbalanced, hconfig, htables⟩
    have hmem : block ∈ blockTable := by simp [hdone]
    have hown : block ∈ ((block :: rest : BlockTable) : Multiset SyncPhysicalTokenBlock)
        + (newBlockTable + others) :=
      Multiset.mem_add.mpr (.inl (by simp))
    have hbefore' : ∀ c ∈ before, c.device = target →
        c ∈ ((block :: rest : BlockTable) : Multiset SyncPhysicalTokenBlock)
          + (newBlockTable + others) := by
      intro c hc hdevice
      have := hbefore c hc hdevice
      rw [Multiset.mem_add, Multiset.mem_add]
      exact .inr (.inr this)
    apply Yields.mono (swapBlock_yields hne hbalanced hbefore' hown (hsource block hmem)
      (hnumbers block hmem) hvalid hroom)
    rintro ⟨mapping'', _⟩ m' ⟨newBlock, rfl, hsend, hextends', hvalid', hroom', hbalanced', h'⟩
    have hown' : newBlock ::ₘ (((block :: rest : BlockTable) : Multiset SyncPhysicalTokenBlock)
          + (newBlockTable + others)).erase block
        = rest + ((newBlockTable ++ [newBlock] : BlockTable) + others) := by
      rw [← Multiset.cons_coe, Multiset.cons_add, Multiset.erase_cons_head]
      simp only [← Multiset.coe_add, Multiset.coe_singleton, ← Multiset.singleton_add]
      abel
    rw [hown'] at hvalid' hbalanced'
    refine ⟨done ++ [block], by simp [hdone], ?_, hextends.trans hextends', hvalid', hroom',
      hbalanced', hconfig.trans h'.1, ?_⟩
    . apply List.rel_append
      . exact hsends.imp fun c c' hc => hextends' _ _ hc
      . exact List.Forall₂.cons hsend List.Forall₂.nil
    . rw [h'.2, htables]
  . refine ⟨[], rfl, List.Forall₂.nil, fun _ _ h => h, ?_, hroom, ?_, SameConfig.refl _, rfl⟩
    . apply hvalid.mono
      intro c hc _
      rw [Multiset.mem_add, Multiset.mem_add]
      exact .inr (.inr hc)
    . simpa using hbalanced

/--
A table without repetitions is moved to one without repetitions.
-/
theorem SwapMapping.Valid.nodup_of_forall₂ {blockTable newBlockTable : BlockTable}
    (hvalid : SwapMapping.Valid target numbers before own mapping)
    (hsource : ∀ block ∈ blockTable, block.device = source) (hnodup : blockTable.Nodup)
    (hsends : List.Forall₂ mapping.Sends blockTable newBlockTable) : newBlockTable.Nodup := by
  induction hsends with
  | nil => exact List.nodup_nil
  | @cons block block' rest rest' hsend hsends ih =>
    rw [List.nodup_cons] at hnodup ⊢
    have hrest : ∀ c ∈ rest, c.device = source := fun c hc => hsource c (List.mem_cons_of_mem _ hc)
    refine ⟨?_, ih hrest hnodup.2⟩
    intro hmem
    rcases hsends.exists_of_mem_right hmem with ⟨c, hc, hsend'⟩
    have hnumber := hvalid.injective _ _ _ hsend hsend'
    have hdevice := (hsource block List.mem_cons_self).trans (hrest c hc).symm
    have : block = c := SyncPhysicalTokenBlock.ext hdevice hnumber
    exact hnodup.1 (this ▸ hc)

theorem swapTable_yields {sequenceId : Nat} {blockTable : BlockTable} (hne : source ≠ target)
    (h : manager.Accounted)
    (hlookup : manager.blockTables.lookup sequenceId = some blockTable)
    (hbefore : ∀ block ∈ before, block.device = target → block ∈ manager.owned)
    (hsource : ∀ block ∈ blockTable, block.device = source)
    (hnumbers : ∀ block ∈ blockTable, block.blockNumber ∈ numbers)
    (hvalid : SwapMapping.Valid target numbers before manager.owned mapping)
    (hroom : manager.HasRoom target numbers mapping)
    : Yields (swapTable source target mapping sequenceId) manager fun mapping' manager' =>
        ∃ newBlockTable,
          List.Forall₂ mapping'.Sends blockTable newBlockTable
            ∧ manager.WritesTable manager' sequenceId newBlockTable
            ∧ mapping.Extends mapping'
            ∧ SwapMapping.Valid target numbers before manager'.owned mapping'
            ∧ manager'.HasRoom target numbers mapping'
            ∧ (∀ block ∈ manager.owned, block.device = target → block ∈ manager'.owned)
            ∧ manager'.Accounted := by
  -- the blocks on `target` are not blocks of the table
  have hothers : ∀ block ∈ manager.owned, block.device = target →
      block ∈ manager.ownedByOthers sequenceId := by
    intro block hblock hdevice
    rw [owned_eq hlookup, Multiset.mem_add] at hblock
    rcases hblock with hblock | hblock
    . exact absurd ((hsource block hblock).symm.trans hdevice) hne
    . exact hblock
  have hbalanced := h.balanced
  rw [owned_eq hlookup] at hbalanced
  unfold swapTable
  apply Yields.get_bind
  simp only [hlookup]
  apply Yields.bind (swapBlock.foldlM_yields blockTable hne hbalanced
    (fun block hblock hdevice => hothers block (hbefore block hblock hdevice) hdevice) hsource
    hnumbers (hvalid.mono hothers) hroom)
  rintro ⟨mapping', newBlockTable⟩ m
    ⟨hsends, hextends, hvalid', hroom', hbalanced', hconfig, htables⟩
  apply Yields.modify_bind
  apply Yields.pure
  have howned : (m.insertTable sequenceId newBlockTable).owned
      = newBlockTable + manager.ownedByOthers sequenceId := by
    rw [owned_insertTable]
    unfold ownedByOthers
    rw [htables]
  have hwrites : manager.WritesTable (m.insertTable sequenceId newBlockTable) sequenceId
      newBlockTable := by
    refine ⟨hconfig.trans sameConfig_insertTable, ?_⟩
    intro id
    rw [lookup_insertTable, htables]
  refine ⟨newBlockTable, hsends, hwrites, hextends, ?_, hroom', ?_, ?_⟩
  . rwa [howned]
  . intro block hblock hdevice
    rw [howned, Multiset.mem_add]
    exact .inr (hothers block hblock hdevice)
  . apply h.of_tables hwrites.1
    . rw [pool_insertTable, howned]
      exact hbalanced'
    . intro id table hsome
      rw [hwrites.2] at hsome
      split at hsome
      . cases hsome
        right
        refine ⟨hvalid'.nodup_of_forall₂ hsource (h.nodup _ _ hlookup) hsends, target, ?_⟩
        intro block hblock
        rcases hsends.exists_of_mem_right hblock with ⟨c, -, hsend⟩
        exact hvalid'.device_eq _ _ hsend
      . exact .inl hsome

/--
`swapTable` for a sequence that may have no table.
-/
theorem swapTable_yields_rel {sequenceId : Nat} (hne : source ≠ target) (h : manager.Accounted)
    (hbefore : ∀ block ∈ before, block.device = target → block ∈ manager.owned)
    (hsource : ∀ blockTable, manager.blockTables.lookup sequenceId = some blockTable →
      ∀ block ∈ blockTable, block.device = source)
    (hnumbers : ∀ blockTable, manager.blockTables.lookup sequenceId = some blockTable →
      ∀ block ∈ blockTable, block.blockNumber ∈ numbers)
    (hvalid : SwapMapping.Valid target numbers before manager.owned mapping)
    (hroom : manager.HasRoom target numbers mapping)
    : Yields (swapTable source target mapping sequenceId) manager fun mapping' manager' =>
        manager.SameConfig manager'
          ∧ manager'.Accounted
          ∧ mapping.Extends mapping'
          ∧ SwapMapping.Valid target numbers before manager'.owned mapping'
          ∧ manager'.HasRoom target numbers mapping'
          ∧ (∀ block ∈ manager.owned, block.device = target → block ∈ manager'.owned)
          ∧ (∀ sequenceId', sequenceId' ≠ sequenceId →
              manager'.blockTables.lookup sequenceId' = manager.blockTables.lookup sequenceId')
          ∧ Option.Rel (List.Forall₂ mapping'.Sends) (manager.blockTables.lookup sequenceId)
              (manager'.blockTables.lookup sequenceId) := by
  cases hlookup : manager.blockTables.lookup sequenceId with
  | none =>
    unfold swapTable
    apply Yields.get_bind
    simp only [hlookup]
    apply Yields.pure
    refine ⟨SameConfig.refl _, h, fun _ _ h => h, hvalid, hroom, fun _ h _ => h, fun _ _ => rfl, ?_⟩
    rw [hlookup]
    exact Option.Rel.none
  | some blockTable =>
    apply Yields.mono (swapTable_yields hne h hlookup hbefore (hsource blockTable hlookup)
      (hnumbers blockTable hlookup) hvalid hroom)
    rintro mapping' manager' ⟨newBlockTable, hsends, hwrites, hextends, hvalid', hroom', hkept,
      haccounted⟩
    refine ⟨hwrites.1, haccounted, hextends, hvalid', hroom', hkept, ?_, ?_⟩
    . intro id hne
      rw [hwrites.2, if_neg hne]
    . rw [hwrites.2, if_pos rfl]
      exact Option.Rel.some hsends

end Table

/--
The numbers of the blocks in the tables of `sequenceIds`.
-/
def tableNumbers (manager : BlockSpaceManager) (sequenceIds : List Nat) : Finset Nat :=
  ((sequenceIds.flatMap fun sequenceId => (manager.blockTables.lookup sequenceId).getD []).map
    (·.blockNumber)).toFinset

theorem mem_tableNumbers {manager : BlockSpaceManager} {sequenceIds : List Nat} {sequenceId : Nat}
    {blockTable : BlockTable} {block : SyncPhysicalTokenBlock} (hid : sequenceId ∈ sequenceIds)
    (hlookup : manager.blockTables.lookup sequenceId = some blockTable) (hblock : block ∈ blockTable)
    : block.blockNumber ∈ manager.tableNumbers sequenceIds := by
  unfold tableNumbers
  rw [List.mem_toFinset, List.mem_map]
  refine ⟨block, ?_, rfl⟩
  rw [List.mem_flatMap]
  exact ⟨sequenceId, hid, by rwa [hlookup]⟩

section Guards

theorem dedupByNumber.map_go (blocks : List SyncPhysicalTokenBlock) (blockIds : List Nat)
    : ((dedupByNumber.go blockIds blocks).map (·.blockNumber)).toFinset
        =
      (blocks.map (·.blockNumber)).toFinset \ blockIds.toFinset := by
  induction blocks generalizing blockIds with
  | nil => simp [dedupByNumber.go]
  | cons block blocks ih =>
    rw [dedupByNumber.go]
    split
    . next hmem =>
      rw [ih]
      ext number
      simp only [Finset.mem_sdiff, List.mem_toFinset, List.map_cons, List.mem_cons]
      grind
    . next hmem =>
      rw [List.map_cons, List.toFinset_cons, ih]
      ext number
      simp only [Finset.mem_sdiff, List.mem_toFinset, List.map_cons, List.mem_cons,
        Finset.mem_insert, List.mem_append]
      grind

/--
A group has at least as many physical blocks as there are blocks in the tables of its sequences
with a given status.
-/
theorem card_tableNumbers_le (manager : BlockSpaceManager) (group : SequenceGroup)
    (heap : SequenceHeap) {status : SequenceStatus} (hstatus : status.isFinished = false)
    : (manager.tableNumbers (group.getSequencesIds heap status)).card
        ≤
      (manager.getPhysicalBlocks group heap).length := by
  unfold getPhysicalBlocks
  generalize hblocks : ((group.getUnfinishedSequences heap).flatMap fun sequence =>
    (manager.blockTables.lookup sequence.sequenceId).getD []) = blocks
  have hall := dedupByNumber.map_go blocks []
  simp only [List.toFinset_nil, Finset.sdiff_empty] at hall
  calc (manager.tableNumbers (group.getSequencesIds heap status)).card
    _ ≤ (blocks.map (·.blockNumber)).toFinset.card := by
      apply Finset.card_le_card
      intro number hnumber
      unfold tableNumbers at hnumber
      rw [List.mem_toFinset, List.mem_map] at *
      rcases hnumber with ⟨block, hblock, hnumber⟩
      refine ⟨block, ?_, hnumber⟩
      rcases List.mem_flatMap.mp hblock with ⟨sequenceId, hid, hblock⟩
      rcases List.mem_map.mp hid with ⟨sequence, hsequence, rfl⟩
      rw [SequenceGroup.mem_getSeqs] at hsequence
      rw [← hblocks, List.mem_flatMap]
      refine ⟨sequence, ?_, hblock⟩
      unfold SequenceGroup.getUnfinishedSequences Sequence.isFinished
      rw [List.mem_filter]
      exact ⟨hsequence.1, by simp [hsequence.2, hstatus]⟩
    _ = ((dedupByNumber blocks).map (·.blockNumber)).toFinset.card := by
      rw [dedupByNumber, hall]
    _ ≤ (dedupByNumber blocks).length := by
      have := List.toFinset_card_le ((dedupByNumber blocks).map (·.blockNumber))
      rwa [List.length_map] at this

end Guards

end BlockSpaceManager

namespace Memory

open EStateM BlockSpaceManager

theorem onBlockManager_yields {α : Type} {x : BlockSpaceM α} {memory : Memory}
    {Q : α → BlockSpaceManager → Prop} (h : Yields x memory.blockManager Q)
    : Yields (onBlockManager x) memory fun a memory' =>
        Q a memory'.blockManager ∧ memory'.sequences = memory.sequences := by
  rcases h with ⟨a, blockManager, hrun, hQ⟩
  refine ⟨a, { memory with blockManager }, ?_, hQ, rfl⟩
  change onBlockManager x memory = _
  unfold onBlockManager
  rw [hrun]

/--
What a swap of the tables of `sequenceIds` has done when it returns `numbers`. The tables are moved
along one injective mapping to blocks that were free; all others stay.
-/
structure Swapped (source target : BlockDevice) (sequenceIds : List Nat)
    (manager manager' : BlockSpaceManager) (numbers : AList fun _ : Nat => Nat)
    (mapping : SwapMapping) : Prop where
  sameConfig : manager.SameConfig manager'
  accounted : manager'.Accounted
  valid : mapping.Valid target (manager.tableNumbers sequenceIds) manager.owned manager'.owned
  lookup_numbers : ∀ number, numbers.lookup number = (mapping.lookup number).map (·.blockNumber)
  lookup_of_notMem : ∀ sequenceId, sequenceId ∉ sequenceIds →
    manager'.blockTables.lookup sequenceId = manager.blockTables.lookup sequenceId
  lookup_of_mem : ∀ sequenceId, sequenceId ∈ sequenceIds →
    Option.Rel (List.Forall₂ mapping.Sends) (manager.blockTables.lookup sequenceId)
      (manager'.blockTables.lookup sequenceId)

/--
Different numbers go to different numbers.
-/
theorem Swapped.injective_numbers {source target : BlockDevice} {sequenceIds : List Nat}
    {manager manager' : BlockSpaceManager} {numbers : AList fun _ : Nat => Nat} {mapping : SwapMapping}
    (hswapped : Swapped source target sequenceIds manager manager' numbers mapping)
    {number₁ number₂ number : Nat} (h₁ : numbers.lookup number₁ = some number)
    (h₂ : numbers.lookup number₂ = some number) : number₁ = number₂ := by
  rw [hswapped.lookup_numbers] at h₁ h₂
  rcases Option.map_eq_some_iff.mp h₁ with ⟨block, hsend, rfl⟩
  rcases Option.map_eq_some_iff.mp h₂ with ⟨block', hsend', hnumber⟩
  have hdevice : block'.device = block.device :=
    (hswapped.valid.device_eq _ _ hsend').trans (hswapped.valid.device_eq _ _ hsend).symm
  have heq : block' = block := SyncPhysicalTokenBlock.ext hdevice hnumber
  exact hswapped.valid.injective _ _ _ hsend (heq ▸ hsend')

variable {group : SequenceGroup} {memory : Memory} {source target : BlockDevice}
variable {before : SequenceStatus} {setStatus : Nat → MemoryM Unit}
variable (write : Nat → SequenceHeap → SequenceHeap)

theorem swap_yields (hne : source ≠ target) (h : memory.blockManager.Accounted)
    (hnodup : (group.getSequencesIds memory.sequences before).Nodup)
    (hsource : ∀ sequenceId ∈ group.getSequencesIds memory.sequences before, ∀ blockTable,
      memory.blockManager.blockTables.lookup sequenceId = some blockTable →
        ∀ block ∈ blockTable, block.device = source)
    (hroom : (memory.blockManager.tableNumbers
        (group.getSequencesIds memory.sequences before)).card
      ≤ memory.blockManager.getNumFreeBlocks target)
    (hset : ∀ sequenceId ∈ group.getSequencesIds memory.sequences before, ∀ memory' : Memory,
      (setStatus sequenceId).run memory'
        = .ok () { memory' with sequences := write sequenceId memory'.sequences })
    : Yields (swap group source target before setStatus) memory fun numbers memory' =>
        ∃ mapping,
          Swapped source target (group.getSequencesIds memory.sequences before)
              memory.blockManager memory'.blockManager numbers mapping
            ∧ memory'.sequences
                =
              (group.getSequencesIds memory.sequences before).foldl
                (fun heap sequenceId => write sequenceId heap) memory.sequences := by
  unfold swap
  apply Yields.get_bind
  generalize hids : group.getSequencesIds memory.sequences before = ids at *
  let I : List Nat → SwapMapping → Memory → Prop := fun rest mapping memory' =>
    ∃ done,
      ids = done ++ rest
        ∧ memory.blockManager.SameConfig memory'.blockManager
        ∧ memory'.blockManager.Accounted
        ∧ mapping.Valid target (memory.blockManager.tableNumbers ids) memory.blockManager.owned
            memory'.blockManager.owned
        ∧ memory'.blockManager.HasRoom target (memory.blockManager.tableNumbers ids) mapping
        ∧ (∀ block ∈ memory.blockManager.owned, block.device = target →
            block ∈ memory'.blockManager.owned)
        ∧ (∀ sequenceId, sequenceId ∉ done →
            memory'.blockManager.blockTables.lookup sequenceId
              = memory.blockManager.blockTables.lookup sequenceId)
        ∧ (∀ sequenceId, sequenceId ∈ done →
            Option.Rel (List.Forall₂ mapping.Sends)
              (memory.blockManager.blockTables.lookup sequenceId)
              (memory'.blockManager.blockTables.lookup sequenceId))
        ∧ memory'.sequences
            = done.foldl (fun heap sequenceId => write sequenceId heap) memory.sequences
  have hloop := Yields.foldlM I (f := fun mapping sequenceId => do
    let mapping ← onBlockManager (BlockSpaceManager.swapTable source target mapping sequenceId)
    setStatus sequenceId
    return mapping)
  apply Yields.bind (hloop ?_ ids ∅ memory ?_)
  . rintro mapping m ⟨done, hdone, hconfig, haccounted, hvalid, -, -, hother, hmoved, hwrite⟩
    rw [List.append_nil] at hdone
    subst hdone
    apply Yields.pure
    refine ⟨mapping, ⟨hconfig, haccounted, hvalid, ?_, hother, hmoved⟩, hwrite⟩
    intro number
    rw [AList.lookup_to_alist]
    exact List.dlookup_map₂ (l := mapping.entries) (f := fun _ block => block.blockNumber) number
  . rintro sequenceId rest mapping m
      ⟨done, hdone, hconfig, haccounted, hvalid, hroom, hkept, hother, hmoved, hwrite⟩
    have hid : sequenceId ∈ ids := by simp [hdone]
    have hnotdone : sequenceId ∉ done := by
      rw [hdone] at hnodup
      intro hmem
      exact (List.nodup_append.mp hnodup).2.2 _ hmem _ List.mem_cons_self rfl
    have hsame := hother sequenceId hnotdone
    have htable := swapTable_yields_rel hne haccounted hkept
      (fun blockTable hlookup => hsource sequenceId hid blockTable (hsame ▸ hlookup))
      (fun blockTable hlookup _ => mem_tableNumbers hid (hsame ▸ hlookup)) hvalid hroom
    apply Yields.bind (onBlockManager_yields htable)
    rintro mapping' m' ⟨⟨hconfig', haccounted', hextends, hvalid', hroom', hkept', hother',
      hmoved'⟩, hsequences⟩
    apply Yields.bind_of_run (hset sequenceId hid m')
    apply Yields.pure
    refine ⟨done ++ [sequenceId], by simp [hdone], hconfig.trans hconfig', haccounted', hvalid',
      hroom', ?_, ?_, ?_, ?_⟩
    . intro block hblock hdevice
      exact hkept' block (hkept block hblock hdevice) hdevice
    . intro id hnot
      simp only [List.mem_append, List.mem_singleton, not_or] at hnot
      rw [hother' id hnot.2, hother id hnot.1]
    . intro id hmem
      by_cases heq : id = sequenceId
      . rwa [heq, ← hsame]
      . have hin : id ∈ done := by simpa [heq] using hmem
        rw [hother' id heq]
        exact Option.Rel.imp (fun _ _ h => h.imp fun _ _ h => hextends _ _ h) (hmoved id hin)
    . rw [List.foldl_append, ← hwrite, ← hsequences]
      rfl
  . refine ⟨[], rfl, SameConfig.refl _, h, SwapMapping.Valid.empty, ?_, fun _ h _ => h, ?_, ?_, rfl⟩
    . unfold HasRoom
      omega
    . intro _ _
      rfl
    . simp

/--
The statuses after a swap, once `write` is known to set the status of one sequence of the group.
-/
theorem foldl_write_eq (group : SequenceGroup) (after : SequenceStatus) {heap : SequenceHeap}
    {sequenceIds : List Nat}
    (hwrite : ∀ sequenceId ∈ sequenceIds, ∀ (heap : SequenceHeap) (sequence : SequenceRef),
      write sequenceId heap sequence
        =
      if sequence ∈ group.sequences ∧ sequence.sequenceId = sequenceId then
        (heap sequence).setSequenceStatus after
      else heap sequence)
    (sequence : SequenceRef)
    : sequenceIds.foldl (fun heap sequenceId => write sequenceId heap) heap sequence
        =
      if sequence ∈ group.sequences ∧ sequence.sequenceId ∈ sequenceIds then
        (heap sequence).setSequenceStatus after
      else heap sequence := by
  induction sequenceIds generalizing heap with
  | nil => simp
  | cons sequenceId sequenceIds ih =>
    rw [List.foldl_cons, ih fun id hid => hwrite id (List.mem_cons_of_mem _ hid),
      hwrite sequenceId List.mem_cons_self]
    simp only [List.mem_cons]
    by_cases hgroup : sequence ∈ group.sequences
    . by_cases hid : sequence.sequenceId = sequenceId
      . simp [hgroup, hid, Sequence.setSequenceStatus]
      . simp [hgroup, hid]
    . simp [hgroup]

section Guarded

variable (h : memory.blockManager.Accounted)
variable (hnodup : (group.sequences.map (·.sequenceId)).Nodup)
include h hnodup

/--
`swap_in` succeeds under its guard.
-/
theorem swapIn_yields
    (hcpu : ∀ sequenceId ∈ group.getSequencesIds memory.sequences .swapped, ∀ blockTable,
      memory.blockManager.blockTables.lookup sequenceId = some blockTable →
        ∀ block ∈ blockTable, block.device = .cpu)
    (hcan : memory.blockManager.canSwapIn group memory.sequences = .ok)
    : Yields (swapIn group) memory fun numbers memory' =>
        ∃ mapping,
          Swapped .cpu .gpu (group.getSequencesIds memory.sequences .swapped)
              memory.blockManager memory'.blockManager numbers mapping
            ∧ ∀ sequence, memory'.sequences sequence
                =
              if sequence ∈ group.getSeqs memory.sequences .swapped then
                (memory.sequences sequence).setSequenceStatus .running
              else memory.sequences sequence := by
  have hroom : (memory.blockManager.tableNumbers
        (group.getSequencesIds memory.sequences .swapped)).card
      ≤ memory.blockManager.getNumFreeBlocks .gpu := by
    have hcard : (memory.blockManager.tableNumbers
          (group.getSequencesIds memory.sequences .swapped)).card
        ≤ (memory.blockManager.getPhysicalBlocks group memory.sequences).length :=
      card_tableNumbers_le _ _ _ rfl
    unfold canSwapIn at hcan
    dsimp only at hcan
    split at hcan
    . cases hcan
    . split at hcan
      . next hle =>
        change _ ≤ memory.blockManager.getNumFreeBlocks .gpu at hle
        omega
      . cases hcan
  let write : Nat → SequenceHeap → SequenceHeap := fun sequenceId heap =>
    group.setStatusWhere heap (·.sequenceId = sequenceId) .running
  unfold swapIn
  apply Yields.mono (swap_yields write (by decide) h (SequenceGroup.nodup_getSequencesIds hnodup)
    hcpu hroom (fun _ _ _ => rfl))
  rintro numbers memory' ⟨mapping, hswapped, hwrite⟩
  refine ⟨mapping, hswapped, ?_⟩
  intro sequence
  rw [hwrite, foldl_write_eq write group .running]
  . simp only [SequenceGroup.mem_getSeqs_iff_mem_getSequencesIds hnodup]
  . intro sequenceId _ heap sequence
    simp [write, SequenceGroup.setStatusWhere_apply]

/--
`swap_out` succeeds under its guard.
-/
theorem swapOut_yields
    (hgpu : ∀ sequenceId ∈ group.getSequencesIds memory.sequences .running, ∀ blockTable,
      memory.blockManager.blockTables.lookup sequenceId = some blockTable →
        ∀ block ∈ blockTable, block.device = .gpu)
    (hcan : memory.blockManager.canSwapOut group memory.sequences = true)
    : Yields (swapOut group) memory fun numbers memory' =>
        ∃ mapping,
          Swapped .gpu .cpu (group.getSequencesIds memory.sequences .running)
              memory.blockManager memory'.blockManager numbers mapping
            ∧ ∀ sequence, memory'.sequences sequence
                =
              if sequence ∈ group.getSeqs memory.sequences .running then
                (memory.sequences sequence).setSequenceStatus .swapped
              else memory.sequences sequence := by
  have hroom : (memory.blockManager.tableNumbers
        (group.getSequencesIds memory.sequences .running)).card
      ≤ memory.blockManager.getNumFreeBlocks .cpu := by
    have hcard : (memory.blockManager.tableNumbers
          (group.getSequencesIds memory.sequences .running)).card
        ≤ (memory.blockManager.getPhysicalBlocks group memory.sequences).length :=
      card_tableNumbers_le _ _ _ rfl
    have hle : (memory.blockManager.getPhysicalBlocks group memory.sequences).length
        ≤ memory.blockManager.getNumFreeBlocks .cpu := by
      simpa [canSwapOut, getNumFreeBlocks, allocator] using hcan
    omega
  -- the sequence with the identifier is found because the identifiers come from the group
  let write : Nat → SequenceHeap → SequenceHeap := fun sequenceId heap =>
    (group.getSequenceFromId sequenceId).elim heap fun sequence =>
      Function.update heap sequence ((heap sequence).setSequenceStatus .swapped)
  have hfound : ∀ sequenceId ∈ group.getSequencesIds memory.sequences .running,
      ∃ sequence ∈ group.sequences, sequence.sequenceId = sequenceId
        ∧ group.getSequenceFromId sequenceId = some sequence := by
    intro sequenceId hid
    rcases List.mem_map.mp hid with ⟨sequence, hsequence, rfl⟩
    have hmem := (SequenceGroup.mem_getSeqs.mp hsequence).1
    exact ⟨sequence, hmem, rfl, SequenceGroup.getSequenceFromId_eq_some hnodup hmem⟩
  unfold swapOut
  apply Yields.mono (swap_yields write (by decide) h (SequenceGroup.nodup_getSequencesIds hnodup)
    hgpu hroom ?_)
  . rintro numbers memory' ⟨mapping, hswapped, hwrite⟩
    refine ⟨mapping, hswapped, ?_⟩
    intro sequence
    rw [hwrite, foldl_write_eq write group .swapped]
    . simp only [SequenceGroup.mem_getSeqs_iff_mem_getSequencesIds hnodup]
    . intro sequenceId hid heap sequence
      rcases hfound sequenceId hid with ⟨sequence', hmem, hid', hsome⟩
      simp only [write, hsome, Option.elim_some]
      by_cases heq : sequence = sequence'
      . subst heq
        simp [hmem, hid']
      . rw [Function.update_of_ne heq, if_neg]
        rintro ⟨hmem', hid''⟩
        exact heq (SequenceGroup.eq_of_sequenceId_eq hnodup hmem' hmem (hid''.trans hid'.symm))
  . intro sequenceId hid memory'
    rcases hfound sequenceId hid with ⟨sequence, -, -, hsome⟩
    simp only [write, hsome, Option.elim_some]
    rfl

end Guarded

end Memory

end AtomaInfer
