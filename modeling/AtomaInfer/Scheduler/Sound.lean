import AtomaInfer.BlockManager.Swap
import AtomaInfer.Scheduler.Metadata

/-!
What holds of the memory of a scheduler, and what an operation on one sequence has to guarantee to
keep it.
-/

namespace AtomaInfer

namespace BlockSpaceManager

variable {manager : BlockSpaceManager}

/--
No block is in the tables of two sequences.
-/
def Unshared (manager : BlockSpaceManager) : Prop :=
  ∀ sequenceId sequenceId' blockTable blockTable' block,
    manager.blockTables.lookup sequenceId = some blockTable
      → manager.blockTables.lookup sequenceId' = some blockTable'
      → block ∈ blockTable
      → block ∈ blockTable'
      → sequenceId = sequenceId'

theorem Unshared.refCount_eq_one (h : manager.Unshared) (haccounted : manager.Accounted)
    {sequenceId : Nat} {blockTable : BlockTable} {block : SyncPhysicalTokenBlock}
    (hlookup : manager.blockTables.lookup sequenceId = some blockTable) (hmem : block ∈ blockTable)
    : manager.pool.refCount block = 1 := by
  have hown := mem_owned_of_mem hlookup hmem
  rw [haccounted.balanced.refCount_eq block (haccounted.balanced.mem_univ block hown)]
  have hothers : block ∉ manager.ownedByOthers sequenceId := by
    intro hother
    have : ∃ sequenceId' blockTable',
        (manager.blockTables.erase sequenceId).lookup sequenceId' = some blockTable'
          ∧ block ∈ blockTable' :=
      mem_owned_iff_lookup.mp (show block ∈ owned { manager with
        blockTables := manager.blockTables.erase sequenceId } from hother)
    rcases this with ⟨sequenceId', blockTable', hlookup', hmem'⟩
    by_cases hid : sequenceId' = sequenceId
    . rw [hid, AList.lookup_erase] at hlookup'
      cases hlookup'
    . rw [AList.lookup_erase_ne hid] at hlookup'
      exact hid (h _ _ _ _ block hlookup' hlookup hmem' hmem)
  rw [owned_eq hlookup, Multiset.count_add, Multiset.count_eq_zero_of_notMem hothers,
    Multiset.coe_count, List.count_eq_one_of_mem (haccounted.nodup _ _ hlookup) hmem]

end BlockSpaceManager

namespace Memory

variable {memory memory' : Memory} {seq other : SequenceRef} {refs : List SequenceRef}
variable {blockTable : BlockTable}

def table (memory : Memory) (seq : SequenceRef) : Option BlockTable :=
  memory.blockManager.blockTables.lookup seq.sequenceId

def Unwindowed (memory : Memory) : Prop :=
  memory.blockManager.blockSlidingWindow = none

structure WellFormed (memory : Memory) (seq : SequenceRef) : Prop where
  blockSize_eq : (memory.sequences seq).blockSize = memory.blockManager.blockSize
  stores : (memory.sequences seq).Stores (memory.sequences seq).sequenceData.getTokenIds

/--
A table of the sequence has a place for each computed token. A sequence that decodes has one token
left to compute, for which a block may be missing; one that does not has all its blocks.
-/
def Fits (memory : Memory) (seq : SequenceRef) (blockTable : BlockTable) : Prop :=
  let sequence := memory.sequences seq
  let data := sequence.sequenceData
  data.numComputedTokens < data.length
    ∧ data.numComputedTokens ≤ blockTable.length * memory.blockManager.blockSize
    ∧ blockTable.length ≤ sequence.getNumTotalLogicalTokenBlocks
    ∧ (data.stage = .decode → data.numComputedTokens + 1 = data.length)
    ∧ (data.stage = .prefill → blockTable.length = sequence.getNumTotalLogicalTokenBlocks)

def OnDevice (memory : Memory) (seq : SequenceRef) (device : BlockDevice) : Prop :=
  ∃ blockTable,
    memory.table seq = some blockTable
      ∧ (memory.Unwindowed → ∀ block ∈ blockTable, block.device = device)
      ∧ memory.Fits seq blockTable

/--
Where the blocks of a sequence are, by its status. Of a finished sequence nothing is known.
-/
def Located (memory : Memory) (seq : SequenceRef) : Prop :=
  match (memory.sequences seq).sequenceStatus with
  | .waiting =>
    memory.table seq = none
      ∧ (memory.sequences seq).sequenceData.numComputedTokens = 0
      ∧ (memory.sequences seq).sequenceData.stage = .prefill
  | .running => memory.OnDevice seq .gpu
  | .swapped => memory.OnDevice seq .cpu
  | _ => True

theorem Located.of_eq (h : memory.Located seq)
    (hsequence : memory'.sequences seq = memory.sequences seq)
    (htable : memory'.table seq = memory.table seq)
    (hconfig : memory.blockManager.SameConfig memory'.blockManager)
    : memory'.Located seq := by
  unfold Located OnDevice Fits Unwindowed at h ⊢
  rwa [hsequence, htable, hconfig.blockSize_eq, hconfig.blockSlidingWindow_eq]

theorem WellFormed.of_eq (h : memory.WellFormed seq)
    (hsequence : memory'.sequences seq = memory.sequences seq)
    (hconfig : memory.blockManager.SameConfig memory'.blockManager)
    : memory'.WellFormed seq := by
  constructor
  . rw [hsequence, hconfig.blockSize_eq]
    exact h.blockSize_eq
  . rw [hsequence]
    exact h.stores

/--
The memory of a scheduler that has seen the sequences `refs`, whose identifiers are distinct. With a
sliding window a block may be in a table more than once, and the blocks are not accounted for.
-/
structure Sound (memory : Memory) (refs : List SequenceRef) : Prop where
  accounted : memory.Unwindowed → memory.blockManager.Accounted
  unshared : memory.Unwindowed → memory.blockManager.Unshared
  nodup : (refs.map (·.sequenceId)).Nodup
  known : ∀ sequenceId blockTable,
    memory.blockManager.blockTables.lookup sequenceId = some blockTable →
      ∃ seq ∈ refs, seq.sequenceId = sequenceId
  wellFormed : ∀ seq ∈ refs, memory.WellFormed seq
  located : ∀ seq ∈ refs, memory.Located seq

/--
The sequences and the tables change for `seq` only; the blocks that are new in its table were free.
-/
structure Touches (seq : SequenceRef) (memory memory' : Memory) : Prop where
  sameConfig : memory.blockManager.SameConfig memory'.blockManager
  accounted : memory.Unwindowed → memory'.blockManager.Accounted
  sequences_of_ne : ∀ other, other ≠ seq → memory'.sequences other = memory.sequences other
  keepsTokens : (memory.sequences seq).KeepsTokens (memory'.sequences seq)
  lookup_of_ne : ∀ sequenceId, sequenceId ≠ seq.sequenceId →
    memory'.blockManager.blockTables.lookup sequenceId
      = memory.blockManager.blockTables.lookup sequenceId
  fresh : memory.Unwindowed → ∀ blockTable, memory'.table seq = some blockTable →
    ∀ block ∈ blockTable, block ∈ (memory.table seq).getD [] ∨ block ∉ memory.blockManager.owned

theorem Touches.unwindowed_iff (h : Touches seq memory memory')
    : memory'.Unwindowed ↔ memory.Unwindowed := by
  unfold Unwindowed
  rw [h.sameConfig.blockSlidingWindow_eq]

theorem Sound.eq_of_sequenceId_eq (h : memory.Sound refs) (hseq : seq ∈ refs) (hother : other ∈ refs)
    (hid : other.sequenceId = seq.sequenceId) : other = seq :=
  List.inj_on_of_nodup_map h.nodup hother hseq hid

theorem Sound.numBlocks_eq (h : memory.Sound refs) (hseq : seq ∈ refs)
    : (memory.sequences seq).getNumTotalLogicalTokenBlocks
        = (memory.sequences seq).length ⌈/⌉ memory.blockManager.blockSize := by
  have hformed := h.wellFormed seq hseq
  rw [← hformed.blockSize_eq, hformed.stores.getNumTotalLogicalTokenBlocks_eq]
  simp [SequenceData.getTokenIds, Sequence.length, SequenceData.length]

theorem Sound.blockSize_pos (h : memory.Sound refs) (hseq : seq ∈ refs)
    (hlength : 1 ≤ (memory.sequences seq).length) : 1 ≤ memory.blockManager.blockSize := by
  have hformed := h.wellFormed seq hseq
  rw [← hformed.blockSize_eq]
  apply hformed.stores.blockSize_pos
  apply List.ne_nil_of_length_pos
  unfold Sequence.length SequenceData.length at hlength
  rw [SequenceData.getTokenIds, List.length_append]
  omega

theorem Sound.numBlocks_pos (h : memory.Sound refs) (hseq : seq ∈ refs)
    (hlength : 1 ≤ (memory.sequences seq).length)
    : 1 ≤ (memory.sequences seq).getNumTotalLogicalTokenBlocks := by
  have hsize := h.blockSize_pos hseq hlength
  rw [h.numBlocks_eq hseq, Nat.ceilDiv_eq_add_pred_div, Nat.le_div_iff_mul_le (by omega)]
  omega

theorem Sound.numBlocks_le (h : memory.Sound refs) (hseq : seq ∈ refs)
    (hfits : memory.Fits seq blockTable)
    : (memory.sequences seq).getNumTotalLogicalTokenBlocks ≤ blockTable.length + 1 := by
  rcases hfits with ⟨-, hroom, -, hdecode, hprefill⟩
  cases hstage : (memory.sequences seq).sequenceData.stage with
  | prefill =>
    rw [hprefill hstage]
    omega
  | decode =>
    have hlength := hdecode hstage
    change _ = (memory.sequences seq).length at hlength
    have hsize := h.blockSize_pos hseq (by omega)
    rw [h.numBlocks_eq hseq, Nat.ceilDiv_eq_add_pred_div]
    apply Nat.div_le_of_le_mul
    rw [Nat.mul_comm, Nat.add_mul]
    omega

theorem Touches.table_of_ne (h : Touches seq memory memory') (hsound : memory.Sound refs)
    (hseq : seq ∈ refs) (hother : other ∈ refs) (hne : other ≠ seq)
    : memory'.table other = memory.table other := by
  have hid : other.sequenceId ≠ seq.sequenceId :=
    fun hid => hne (hsound.eq_of_sequenceId_eq hseq hother hid)
  exact h.lookup_of_ne _ hid

theorem Touches.unshared (h : Touches seq memory memory') (hsound : memory.Sound refs)
    (hnone : memory.Unwindowed) : memory'.blockManager.Unshared := by
  -- the table of `seq` against that of another sequence
  have hcross : ∀ sequenceId blockTable blockTable' block,
      sequenceId ≠ seq.sequenceId
        → memory'.blockManager.blockTables.lookup sequenceId = some blockTable
        → memory'.table seq = some blockTable'
        → block ∈ blockTable → block ∉ blockTable' := by
    intro sequenceId blockTable blockTable' block hne hlookup hlookup' hmem hmem'
    rw [h.lookup_of_ne _ hne] at hlookup
    rcases h.fresh hnone _ hlookup' block hmem' with hold | hfree
    . cases htable : memory.table seq with
      | none => simp [htable] at hold
      | some old =>
        rw [htable] at hold
        exact hne (hsound.unshared hnone _ _ _ _ block hlookup htable hmem hold)
    . exact hfree (BlockSpaceManager.mem_owned_of_mem hlookup hmem)
  intro sequenceId sequenceId' blockTable blockTable' block hlookup hlookup' hmem hmem'
  by_cases hid : sequenceId = seq.sequenceId
  . by_cases hid' : sequenceId' = seq.sequenceId
    . rw [hid, hid']
    . subst hid
      exact absurd hmem (hcross _ _ _ block hid' hlookup' hlookup hmem')
  . by_cases hid' : sequenceId' = seq.sequenceId
    . subst hid'
      exact absurd hmem' (hcross _ _ _ block hid hlookup hlookup' hmem)
    . rw [h.lookup_of_ne _ hid] at hlookup
      rw [h.lookup_of_ne _ hid'] at hlookup'
      exact hsound.unshared hnone _ _ _ _ block hlookup hlookup' hmem hmem'

theorem Touches.wellFormed (h : Touches seq memory memory') (hformed : memory.WellFormed seq)
    : memory'.WellFormed seq := by
  constructor
  . rw [h.keepsTokens.blockSize_eq, h.sameConfig.blockSize_eq, hformed.blockSize_eq]
  . rw [h.keepsTokens.getTokenIds_eq]
    exact h.keepsTokens.stores hformed.stores

/--
An operation on one sequence keeps the memory sound when it leaves the sequence well placed.
-/
theorem Touches.sound (h : Touches seq memory memory') (hsound : memory.Sound refs)
    (hseq : seq ∈ refs) (hlocated : memory'.Located seq) : memory'.Sound refs := by
  constructor
  . exact fun hnone => h.accounted (h.unwindowed_iff.mp hnone)
  . exact fun hnone => h.unshared hsound (h.unwindowed_iff.mp hnone)
  . exact hsound.nodup
  . intro sequenceId blockTable hlookup
    by_cases hid : sequenceId = seq.sequenceId
    . exact ⟨seq, hseq, hid.symm⟩
    . rw [h.lookup_of_ne _ hid] at hlookup
      exact hsound.known _ _ hlookup
  . intro other hother
    by_cases hne : other = seq
    . rw [hne]
      exact h.wellFormed (hsound.wellFormed seq hseq)
    . exact (hsound.wellFormed other hother).of_eq (h.sequences_of_ne other hne) h.sameConfig
  . intro other hother
    by_cases hne : other = seq
    . rwa [hne]
    . exact (hsound.located other hother).of_eq (h.sequences_of_ne other hne)
        (h.table_of_ne hsound hseq hother hne) h.sameConfig

/--
The access times of the blocks do not matter.
-/
theorem Sound.of_sameButAccess (h : memory.Sound refs) {manager : BlockSpaceManager}
    (hsame : memory.blockManager.SameButAccess manager)
    : Sound { memory with blockManager := manager } refs := by
  rcases hsame with ⟨blocks, rfl, hblocks⟩
  have haccounted (hnone : memory.Unwindowed)
      : BlockSpaceManager.Accounted { memory.blockManager with blocks } := by
    have hpool : BlockSpaceManager.pool { memory.blockManager with blocks }
        = memory.blockManager.pool := by
      unfold BlockSpaceManager.pool
      simp only [hblocks]
      rfl
    have haccounted := h.accounted hnone
    refine ⟨haccounted.blockSlidingWindow_eq, ?_, haccounted.nodup, haccounted.device_eq⟩
    rw [hpool]
    exact haccounted.balanced
  refine ⟨haccounted, h.unshared, h.nodup, h.known, ?_, h.located⟩
  intro seq hseq
  exact ⟨(h.wellFormed seq hseq).blockSize_eq, (h.wellFormed seq hseq).stores⟩

/--
A new sequence, whose identifier no other sequence has.
-/
theorem Sound.arrive (h : memory.Sound refs) {prompt : String} {promptTokenIds : List Nat}
    {returnFullText : Bool} {sequence : Sequence}
    (hfresh : ∀ other ∈ refs, other.sequenceId ≠ seq.sequenceId)
    (hnew : Sequence.new prompt promptTokenIds memory.blockManager.blockSize returnFullText
      = .ok sequence)
    : Sound { memory with sequences := Function.update memory.sequences seq sequence }
        (refs ++ [seq]) := by
  rcases Sequence.of_new hnew with ⟨hsize, hdata, hstatus, hstores⟩
  have hne : ∀ other ∈ refs, other ≠ seq :=
    fun other hother heq => hfresh other hother (by rw [heq])
  have hnone : memory.table seq = none := by
    cases htable : memory.table seq with
    | none => rfl
    | some blockTable =>
      rcases h.known _ _ htable with ⟨other, hother, hid⟩
      exact absurd hid (hfresh other hother)
  refine ⟨h.accounted, h.unshared, ?_, ?_, ?_, ?_⟩
  . simp only [List.map_append, List.map_singleton]
    rw [List.nodup_append]
    refine ⟨h.nodup, List.nodup_singleton _, ?_⟩
    intro sequenceId hmem sequenceId' hmem' heq
    rcases List.mem_map.mp hmem with ⟨other, hother, rfl⟩
    rw [List.mem_singleton] at hmem'
    exact hfresh other hother (heq.trans hmem')
  . intro sequenceId blockTable hlookup
    rcases h.known sequenceId blockTable hlookup with ⟨other, hother, hid⟩
    exact ⟨other, by simp [hother], hid⟩
  . intro other hother
    rw [List.mem_append, List.mem_singleton] at hother
    rcases hother with hother | rfl
    . exact (h.wellFormed other hother).of_eq (Function.update_of_ne (hne other hother) _ _)
        (.refl _)
    . constructor
      . simpa using hsize
      . simpa [hdata, SequenceData.getTokenIds, SequenceData.new] using hstores
  . intro other hother
    rw [List.mem_append, List.mem_singleton] at hother
    rcases hother with hother | rfl
    . exact (h.located other hother).of_eq (Function.update_of_ne (hne other hother) _ _) rfl
        (.refl _)
    . simp only [Located, Function.update_self, hstatus, hdata]
      exact ⟨hnone, rfl, rfl⟩

end Memory

end AtomaInfer
