import AtomaInfer.Scheduler.Refines
import AtomaInfer.Worker.Cache

/-!
A pass of the scheduler moves blocks between the devices. When the copies that it asks for have been
executed, the computed tokens of every sequence are in the blocks of its new table.
-/

namespace AtomaInfer

namespace BlockSpaceManager.SwapDirection

variable {direction : SwapDirection} {numbers : BlockMapping}
variable {block block' : SyncPhysicalTokenBlock} {cache : KvCache}

def Injective (numbers : BlockMapping) : Prop :=
  ∀ number₁ number₂ number', numbers.lookup number₁ = some number' →
    numbers.lookup number₂ = some number' → number₁ = number₂

theorem mem_copies
    : (block, block') ∈ direction.copies numbers
        ↔ block.device = direction.source ∧ block'.device = direction.target
            ∧ numbers.lookup block.blockNumber = some block'.blockNumber := by
  unfold copies
  rw [List.mem_map]
  constructor
  . rintro ⟨⟨number, number'⟩, hentry, heq⟩
    cases heq
    exact ⟨rfl, rfl, AList.mem_lookup_iff.mpr hentry⟩
  . rintro ⟨hsource, htarget, hlookup⟩
    refine ⟨⟨block.blockNumber, block'.blockNumber⟩, AList.mem_lookup_iff.mp hlookup, ?_⟩
    rw [← hsource, ← htarget]

theorem separate_of_injective (h : Injective numbers) : Copying.Separate (direction.copies numbers) := by
  constructor
  . apply List.Nodup.map_on
    . rintro ⟨block, target⟩ hmem ⟨block', target'⟩ hmem' heq
      rcases mem_copies.mp hmem with ⟨hsource, -, hlookup⟩
      rcases mem_copies.mp hmem' with ⟨hsource', -, hlookup'⟩
      change target = target' at heq
      subst heq
      have hblock : block = block' :=
        SyncPhysicalTokenBlock.ext (hsource.trans hsource'.symm) (h _ _ _ hlookup hlookup')
      rw [hblock]
    . unfold copies
      apply List.Nodup.map_on
      . rintro ⟨number, target⟩ _ ⟨number', target'⟩ _ heq
        cases heq
        rfl
      . exact List.NodupKeys.nodup numbers.nodupKeys
  . rintro ⟨block, target⟩ hmem hsource
    rcases List.mem_map.mp hsource with ⟨⟨block', target'⟩, hmem', heq⟩
    change block' = target at heq
    apply direction.source_ne_target
    rw [← (mem_copies.mp hmem').1, heq, ← (mem_copies.mp hmem).2.1]

/--
The cache after the copies of a swap.
-/
def swapped (direction : SwapDirection) (numbers : BlockMapping) (cache : KvCache) : KvCache :=
  Copying.execute (direction.copies numbers) cache

theorem swapped_empty : direction.swapped ∅ cache = cache :=
  rfl

theorem swapped_of_lookup (h : Injective numbers) {number number' : Nat}
    (hlookup : numbers.lookup number = some number')
    : direction.swapped numbers cache ⟨direction.target, number'⟩
        = cache ⟨direction.source, number⟩ := by
  have hmem : ((⟨direction.source, number⟩ : SyncPhysicalTokenBlock),
      (⟨direction.target, number'⟩ : SyncPhysicalTokenBlock)) ∈ direction.copies numbers :=
    mem_copies.mpr ⟨rfl, rfl, hlookup⟩
  exact Copying.execute_of_mem (separate_of_injective h) hmem

theorem swapped_of_forall
    (h : ∀ number number', numbers.lookup number = some number' →
      block ≠ ⟨direction.target, number'⟩)
    : direction.swapped numbers cache block = cache block := by
  apply Copying.execute_of_notMem
  intro hmem
  rcases List.mem_map.mp hmem with ⟨⟨source, target⟩, hcopy, rfl⟩
  rcases mem_copies.mp hcopy with ⟨-, htarget, hlookup⟩
  exact h _ _ hlookup (SyncPhysicalTokenBlock.ext htarget rfl)

end BlockSpaceManager.SwapDirection

namespace Memory

open BlockSpaceManager (SwapDirection)

variable {memory memory' : Memory} {refs : List SequenceRef} {seq : SequenceRef}
variable {cache cache' : KvCache} {direction : SwapDirection} {numbers moved : BlockMapping}
variable {left left' arrived arrived' : Multiset SequenceGroup}

/--
The computed tokens of the sequence are in the blocks of its table.
-/
def CachedAt (memory : Memory) (cache : KvCache) (seq : SequenceRef) : Prop :=
  ∀ blockTable, memory.table seq = some blockTable →
    cache.Holds memory.blockManager.blockSize seq.sequenceId blockTable
      (memory.sequences seq).sequenceData.getTokenIds
      (memory.sequences seq).sequenceData.numComputedTokens

def Cached (memory : Memory) (refs : List SequenceRef) (cache : KvCache) : Prop :=
  ∀ seq ∈ refs, memory.CachedAt cache seq

theorem CachedAt.of_eq (h : memory.CachedAt cache seq)
    (htable : memory'.table seq = memory.table seq)
    (hsize : memory'.blockManager.blockSize = memory.blockManager.blockSize)
    (hdata : (memory'.sequences seq).sequenceData = (memory.sequences seq).sequenceData)
    (hcache : ∀ blockTable, memory.table seq = some blockTable →
      ∀ block ∈ blockTable, cache' block = cache block)
    : memory'.CachedAt cache' seq := by
  intro blockTable hsome
  rw [htable] at hsome
  rw [hsize, hdata]
  intro p hp
  rcases h blockTable hsome p hp with ⟨block, tokenId, hblock, htoken, hcell⟩
  refine ⟨block, tokenId, hblock, htoken, ?_⟩
  rw [hcache blockTable hsome block (List.mem_of_getElem? hblock)]
  exact hcell

/--
Nothing is computed of the sequence, or it has no table.
-/
theorem CachedAt.of_zero
    (h : memory.table seq = none ∨ (memory.sequences seq).sequenceData.numComputedTokens = 0)
    : memory.CachedAt cache seq := by
  intro blockTable hsome p hp
  rcases h with hnone | hzero
  . rw [hnone] at hsome
    cases hsome
  . omega

/--
The blocks that are held keep their contents.
-/
theorem Cached.of_touches (h : memory.Cached refs cache) (hsound : memory.Sound refs)
    (hseq : seq ∈ refs) (htouches : Touches seq memory memory')
    (hcache : ∀ block ∈ memory.blockManager.owned, cache' block = cache block)
    (hcached : memory'.CachedAt cache' seq) : memory'.Cached refs cache' := by
  intro other hother
  by_cases hne : other = seq
  . rw [hne]
    exact hcached
  . have hsequence := htouches.sequences_of_ne other hne
    refine (h other hother).of_eq (htouches.table_of_ne hsound hseq hother hne)
      htouches.sameConfig.blockSize_eq (by rw [hsequence]) ?_
    intro blockTable htable block hblock
    exact hcache block (BlockSpaceManager.mem_owned_of_mem htable hblock)

/--
The blocks that are swapped: their sources are in no table of a group that is left, and their targets
in those of the groups that have arrived.
-/
structure Carries (direction : SwapDirection) (memory : Memory) (numbers : BlockMapping)
    (left arrived : Multiset SequenceGroup) : Prop where
  injective : SwapDirection.Injective numbers
  sources : ∀ number number', numbers.lookup number = some number' →
    ∀ group ∈ left, ∀ seq ∈ group.sequences, ∀ blockTable, memory.table seq = some blockTable →
      ⟨direction.source, number⟩ ∉ blockTable
  targets : ∀ number number', numbers.lookup number = some number' →
    ∃ group ∈ arrived, ∃ seq ∈ group.sequences, ∃ blockTable,
      memory.table seq = some blockTable ∧ ⟨direction.target, number'⟩ ∈ blockTable

def KeepsBlocks (seq : SequenceRef) (memory memory' : Memory) : Prop :=
  ∀ blockTable, memory.table seq = some blockTable →
    ∃ blockTable', memory'.table seq = some blockTable' ∧ blockTable ⊆ blockTable'

theorem Appends.keepsBlocks (h : Appends seq memory memory') (hnone : memory.Unwindowed)
    : KeepsBlocks seq memory memory' := by
  intro blockTable hsome
  rcases h.table_eq with ⟨_, blockTable', htable, htable', -, hpushed⟩
  cases htable.symm.trans hsome
  rcases hpushed hnone with ⟨new, rfl, -⟩
  exact ⟨_, htable', List.subset_append_left _ _⟩

theorem Appends.cachedAt (h : Appends seq memory memory') (hnone : memory.Unwindowed)
    (hcached : memory.CachedAt cache seq) : memory'.CachedAt cache seq := by
  rcases h.table_eq with ⟨blockTable, _, htable, htable', -, hpushed⟩
  rcases hpushed hnone with ⟨new, rfl, -⟩
  intro blockTable₁ hsome
  cases htable'.symm.trans hsome
  rw [h.sameConfig.blockSize_eq, h.sequences_eq]
  intro p hp
  rcases hcached blockTable htable p hp with ⟨block, tokenId, hblock, htoken, hcell⟩
  refine ⟨block, tokenId, ?_, htoken, hcell⟩
  rw [List.getElem?_append_left (List.getElem?_eq_some_iff.mp hblock).1, hblock]

theorem Swaps.sequenceData_eq {target : BlockDevice} {status : SequenceStatus}
    (h : Swaps target status numbers seq memory memory')
    : (memory'.sequences seq).sequenceData = (memory.sequences seq).sequenceData := by
  rw [h.sequence_eq]
  rfl

theorem Ignores.cachedAt (h : Ignores seq memory memory') (hcached : memory.CachedAt cache seq)
    : memory'.CachedAt cache seq := by
  refine hcached.of_eq ?_ h.sameConfig.blockSize_eq ?_ fun _ _ _ _ => rfl
  . unfold table
    rw [h.blockManager_eq]
  . rw [h.sequence_eq]
    rfl

theorem Carries.empty : Carries direction memory ∅ left arrived := by
  refine ⟨?_, ?_, ?_⟩
  . intro _ _ _ hlookup
    cases hlookup
  . intro _ _ hlookup
    cases hlookup
  . intro _ _ hlookup
    cases hlookup

/--
A sequence that belongs to none of the groups, or that keeps the blocks of its table, does not matter.
-/
theorem Carries.of_touches (h : Carries direction memory numbers left arrived)
    (hsound : memory.Sound refs) (hseq : seq ∈ refs) (htouches : Touches seq memory memory')
    (hrefs : ∀ group, group ∈ left ∨ group ∈ arrived → ∀ other ∈ group.sequences, other ∈ refs)
    (hleft : ∀ group ∈ left', group ∈ left ∧ seq ∉ group.sequences)
    (harrived : ∀ group ∈ arrived, group ∈ arrived'
      ∧ (seq ∉ group.sequences ∨ KeepsBlocks seq memory memory'))
    : Carries direction memory' numbers left' arrived' := by
  have htable : ∀ group, group ∈ left ∨ group ∈ arrived → ∀ other ∈ group.sequences, other ≠ seq →
      memory'.table other = memory.table other := by
    intro group hgroup other hother hne
    exact htouches.table_of_ne hsound hseq (hrefs group hgroup other hother) hne
  refine ⟨h.injective, ?_, ?_⟩
  . intro number number' hlookup group hgroup other hother blockTable hsome
    rcases hleft group hgroup with ⟨hold, hnotMem⟩
    have hne : other ≠ seq := fun heq => hnotMem (heq ▸ hother)
    rw [htable group (.inl hold) other hother hne] at hsome
    exact h.sources number number' hlookup group hold other hother blockTable hsome
  . intro number number' hlookup
    rcases h.targets number number' hlookup with ⟨group, hgroup, other, hother, blockTable, hsome, hmem⟩
    rcases harrived group hgroup with ⟨hnew, hkeeps⟩
    refine ⟨group, hnew, other, hother, ?_⟩
    by_cases hne : other = seq
    . subst hne
      have hkeeps := hkeeps.resolve_left (not_not_intro hother)
      rcases hkeeps blockTable hsome with ⟨blockTable', htable', hsubset⟩
      exact ⟨blockTable', htable', hsubset hmem⟩
    . rw [htable group (.inr hgroup) other hother hne]
      exact ⟨blockTable, hsome, hmem⟩

/--
A group is swapped after others.
-/
structure Extends (direction : SwapDirection) (refs : List SequenceRef) (memory : Memory)
    (moved : BlockMapping) (left arrived : Multiset SequenceGroup) (seq : SequenceRef)
    (numbers : BlockMapping) (memory' : Memory) : Prop where
  sound : memory.Sound refs
  mem_refs : seq ∈ refs
  carries : Carries direction memory moved left arrived
  left : ∃ group ∈ left, group.sequences = [seq]
  device_eq : ∀ blockTable, memory.table seq = some blockTable →
    ∀ block ∈ blockTable, block.device = direction.source
  touches : Touches seq memory memory'
  moves : MovesBlocks direction.target numbers seq memory memory'

namespace Extends

variable (h : Extends direction refs memory moved left arrived seq numbers memory')
include h

theorem source_mem {number number' : Nat} (hlookup : numbers.lookup number = some number')
    : ∃ blockTable, memory.table seq = some blockTable ∧ ⟨direction.source, number⟩ ∈ blockTable := by
  rcases h.moves.table_eq with ⟨blockTable, blockTable', htable, htable', htarget, hmoved, hall⟩
  rcases hall number number' hlookup with ⟨block, hmem, rfl⟩
  refine ⟨blockTable, htable, ?_⟩
  rw [← h.device_eq blockTable htable block hmem]
  exact hmem

/--
The blocks that were swapped before are no longer in a table of a group that is left.
-/
theorem notMem_of_lookup {number number' : Nat} (hlookup : moved.lookup number = some number')
    : number ∉ numbers := by
  rw [← AList.lookup_eq_none]
  cases hnumber : numbers.lookup number with
  | none => rfl
  | some other =>
    rcases h.source_mem hnumber with ⟨blockTable, htable, hmem⟩
    rcases h.left with ⟨group, hgroup, hsingle⟩
    exact absurd hmem
      (h.carries.sources number number' hlookup group hgroup seq (by simp [hsingle]) blockTable htable)

theorem target_mem_owned {number number' : Nat} (hlookup : moved.lookup number = some number')
    : ⟨direction.target, number'⟩ ∈ memory.blockManager.owned := by
  rcases h.carries.targets number number' hlookup with ⟨_, -, _, -, blockTable, htable, hmem⟩
  exact BlockSpaceManager.mem_owned_of_mem htable hmem

theorem injective : SwapDirection.Injective (numbers ∪ moved) := by
  intro number₁ number₂ number' h₁ h₂
  rcases AList.lookup_union_eq_some.mp h₁ with h₁ | ⟨-, h₁⟩
  . rcases AList.lookup_union_eq_some.mp h₂ with h₂ | ⟨-, h₂⟩
    . exact h.moves.injective _ _ _ h₁ h₂
    . exact absurd (h.target_mem_owned h₂) (h.moves.notMem_owned _ _ h₁)
  . rcases AList.lookup_union_eq_some.mp h₂ with h₂ | ⟨-, h₂⟩
    . exact absurd (h.target_mem_owned h₁) (h.moves.notMem_owned _ _ h₂)
    . exact h.carries.injective _ _ _ h₁ h₂

theorem swapped_of_mem_owned {block : SyncPhysicalTokenBlock}
    (hblock : block ∈ memory.blockManager.owned)
    : direction.swapped (numbers ∪ moved) cache block = direction.swapped moved cache block := by
  by_cases htarget : ∃ number number', moved.lookup number = some number'
      ∧ block = ⟨direction.target, number'⟩
  . rcases htarget with ⟨number, number', hlookup, rfl⟩
    have hunion : (numbers ∪ moved).lookup number = some number' :=
      AList.lookup_union_eq_some.mpr (.inr ⟨h.notMem_of_lookup hlookup, hlookup⟩)
    rw [SwapDirection.swapped_of_lookup h.injective hunion,
      SwapDirection.swapped_of_lookup h.carries.injective hlookup]
  . rw [SwapDirection.swapped_of_forall, SwapDirection.swapped_of_forall]
    . exact fun number number' hlookup heq => htarget ⟨number, number', hlookup, heq⟩
    . intro number number' hlookup heq
      rcases AList.lookup_union_eq_some.mp hlookup with hlookup | ⟨-, hlookup⟩
      . exact h.moves.notMem_owned _ _ hlookup (heq ▸ hblock)
      . exact htarget ⟨number, number', hlookup, heq⟩

/--
Block for block the new table has the contents of the old one.
-/
theorem forall₂_swapped (cache : KvCache)
    : ∃ blockTable blockTable',
        memory.table seq = some blockTable
          ∧ memory'.table seq = some blockTable'
          ∧ List.Forall₂
              (fun block block' => direction.swapped (numbers ∪ moved) cache block'
                = direction.swapped moved cache block)
              blockTable blockTable' := by
  rcases h.moves.table_eq with ⟨blockTable, blockTable', htable, htable', htarget, hmoved, -⟩
  refine ⟨blockTable, blockTable', htable, htable', ?_⟩
  rw [List.forall₂_iff_zip] at hmoved ⊢
  refine ⟨hmoved.1, ?_⟩
  intro block block' hmem
  have hlookup := hmoved.2 hmem
  have hblock' : block' = ⟨direction.target, block'.blockNumber⟩ :=
    SyncPhysicalTokenBlock.ext (htarget _ (List.of_mem_zip hmem).2) rfl
  have hdevice := h.device_eq blockTable htable block (List.of_mem_zip hmem).1
  have hblock : block = ⟨direction.source, block.blockNumber⟩ :=
    SyncPhysicalTokenBlock.ext hdevice rfl
  have hunion : (numbers ∪ moved).lookup block.blockNumber = some block'.blockNumber :=
    AList.lookup_union_eq_some.mpr (.inl hlookup)
  rw [hblock', SwapDirection.swapped_of_lookup h.injective hunion,
    SwapDirection.swapped_of_forall, ← hblock]
  intro number number' _ heq
  rw [heq] at hdevice
  exact direction.source_ne_target hdevice.symm

theorem cachedAt (hcached : memory.CachedAt (direction.swapped moved cache) seq)
    (hdata : (memory'.sequences seq).sequenceData = (memory.sequences seq).sequenceData)
    : memory'.CachedAt (direction.swapped (numbers ∪ moved) cache) seq := by
  rcases h.forall₂_swapped cache with ⟨blockTable, blockTable', htable, htable', hsame⟩
  intro blockTable₁ hsome
  cases htable'.symm.trans hsome
  rw [h.touches.sameConfig.blockSize_eq, hdata]
  intro p hp
  rcases hcached blockTable htable p hp with ⟨block, tokenId, hblock, htoken, hcell⟩
  have hlt := (List.getElem?_eq_some_iff.mp hblock).1
  have hlt' : p / memory.blockManager.blockSize < blockTable'.length := by
    rw [← hsame.length_eq]
    exact hlt
  refine ⟨_, tokenId, List.getElem?_eq_getElem hlt', htoken, ?_⟩
  have hget := hsame.get hlt hlt'
  rw [List.getElem?_eq_getElem hlt, Option.some.injEq] at hblock
  rw [List.get_eq_getElem, List.get_eq_getElem, hblock] at hget
  rw [hget]
  exact hcell

theorem carries_union
    (hrefs : ∀ group, group ∈ left ∨ group ∈ arrived → ∀ other ∈ group.sequences, other ∈ refs)
    (hleft : ∀ group ∈ left', group ∈ left ∧ seq ∉ group.sequences)
    (harrived : ∀ group ∈ arrived, group ∈ arrived' ∧ seq ∉ group.sequences)
    (hnew : ∃ group ∈ arrived', group.sequences = [seq]) (hnone : memory.Unwindowed)
    : Carries direction memory' (numbers ∪ moved) left' arrived' := by
  have hold := h.carries.of_touches h.sound h.mem_refs h.touches hrefs hleft
    fun group hgroup => (harrived group hgroup).imp_right .inl
  refine ⟨h.injective, ?_, ?_⟩
  . intro number number' hlookup group hgroup other hother blockTable hsome hmem
    rcases AList.lookup_union_eq_some.mp hlookup with hlookup | ⟨-, hlookup⟩
    . rcases hleft group hgroup with ⟨hingroup, hnotMem⟩
      have hne : other ≠ seq := fun heq => hnotMem (heq ▸ hother)
      have hrefs' := hrefs group (.inl hingroup) other hother
      rw [h.touches.table_of_ne h.sound h.mem_refs hrefs' hne] at hsome
      rcases h.source_mem hlookup with ⟨blockTable', htable', hmem'⟩
      have hid := h.sound.unshared hnone _ _ _ _ _ hsome htable' hmem hmem'
      exact hne (h.sound.eq_of_sequenceId_eq h.mem_refs hrefs' hid)
    . exact hold.sources number number' hlookup group hgroup other hother blockTable hsome hmem
  . intro number number' hlookup
    rcases AList.lookup_union_eq_some.mp hlookup with hlookup | ⟨-, hlookup⟩
    . rcases hnew with ⟨group, hgroup, hsingle⟩
      refine ⟨group, hgroup, seq, by simp [hsingle], ?_⟩
      rcases h.moves.table_eq with ⟨blockTable, blockTable', htable, htable', htarget, hmoved, hall⟩
      rcases hall number number' hlookup with ⟨block, hmem, rfl⟩
      rcases hmoved.exists_of_mem hmem with ⟨block', hmem', hlookup'⟩
      rw [hlookup, Option.some.injEq] at hlookup'
      refine ⟨blockTable', htable', ?_⟩
      rw [hlookup', ← htarget block' hmem']
      exact hmem'
    . exact hold.targets number number' hlookup

end Extends

end Memory

namespace Scheduler

open BlockSpaceManager (SwapDirection)

namespace Config

variable {c c' : Config} {refs : List SequenceRef} {enableChunking : Bool} {cache : KvCache}
variable {group : SequenceGroup} {seq : SequenceRef}

/--
The cache after the swaps that the pass has asked for so far.
-/
def contents (c : Config) (cache : KvCache) : KvCache :=
  SwapDirection.swapOut.swapped c.blocksToSwapOut
    (SwapDirection.swapIn.swapped c.blocksToSwapIn cache)

/--
With the contents of `cache` at the start of the pass, its swaps leave the computed tokens of every
sequence in the blocks of its table. A pass swaps in one direction only.
-/
structure Coherent (refs : List SequenceRef) (cache : KvCache) (c : Config) : Prop where
  swapsOut : Memory.Carries .swapOut c.memory c.blocksToSwapOut c.running c.swapped
  swapsIn :
    Memory.Carries .swapIn c.memory c.blocksToSwapIn c.swapped (c.scheduled.map (·.scheduledGroup))
  oneWay : c.blocksToSwapIn = ∅ ∨ c.blocksToSwapOut = ∅
  cached : c.memory.Cached refs (c.contents cache)

theorem OK.apart (h : c.OK enableChunking refs) (hgroup : group.sequences = [seq])
    (waiting running swapped : Multiset SequenceGroup)
    (hheld : c.held = group ::ₘ
      (waiting + running + swapped + c.scheduled.map (·.scheduledGroup) + c.ignored + c.infeasible))
    : (∀ other ∈ running, seq ∉ other.sequences)
        ∧ (∀ other ∈ swapped, seq ∉ other.sequences)
        ∧ ∀ other ∈ c.scheduled.map (·.scheduledGroup), seq ∉ other.sequences := by
  have hnotMem := h.notMem_of_held hheld hgroup
  refine ⟨?_, ?_, ?_⟩
  . exact fun other hother => hnotMem other (by simp only [Multiset.mem_add]; tauto)
  . exact fun other hother => hnotMem other (by simp only [Multiset.mem_add]; tauto)
  . exact fun other hother => hnotMem other (by simp only [Multiset.mem_add]; tauto)

theorem OK.mem_refs_of_queues (h : c.OK enableChunking refs)
    (hgroup : group ∈ c.running ∨ group ∈ c.swapped ∨ group ∈ c.scheduled.map (·.scheduledGroup))
    : ∀ other ∈ group.sequences, other ∈ refs := by
  apply h.mem_refs
  simp only [held, Multiset.mem_add]
  tauto

/--
A move that swaps nothing.
-/
theorem Coherent.of_touches (h : c.Coherent refs cache) (hok : c.OK enableChunking refs)
    (hseq : seq ∈ refs) (htouches : Memory.Touches seq c.memory c'.memory)
    (hin : c'.blocksToSwapIn = c.blocksToSwapIn) (hout : c'.blocksToSwapOut = c.blocksToSwapOut)
    (hrunning : ∀ other ∈ c'.running, other ∈ c.running ∧ seq ∉ other.sequences)
    (hswapped : ∀ other ∈ c'.swapped, other ∈ c.swapped ∧ seq ∉ other.sequences)
    (hback : c.blocksToSwapOut = ∅
      ∨ ∀ other ∈ c.swapped, other ∈ c'.swapped ∧ seq ∉ other.sequences)
    (hscheduled : ∀ other ∈ c.scheduled.map (·.scheduledGroup),
      other ∈ c'.scheduled.map (·.scheduledGroup) ∧ seq ∉ other.sequences)
    (hcached : c'.memory.CachedAt (c.contents cache) seq) : c'.Coherent refs cache := by
  refine ⟨?_, ?_, ?_, ?_⟩
  . rw [hout]
    rcases hback with hempty | hback
    . rw [hempty]
      exact .empty
    . refine h.swapsOut.of_touches hok.sound hseq htouches ?_ hrunning ?_
      . exact fun other hother => hok.mem_refs_of_queues (hother.imp_right .inl)
      . exact fun other hother => (hback other hother).imp_right .inl
  . rw [hin]
    refine h.swapsIn.of_touches hok.sound hseq htouches ?_ hswapped ?_
    . exact fun other hother => hok.mem_refs_of_queues (.inr hother)
    . exact fun other hother => (hscheduled other hother).imp_right .inl
  . rw [hin, hout]
    exact h.oneWay
  . have hcontents : c'.contents cache = c.contents cache := by
      unfold contents
      rw [hin, hout]
    rw [hcontents]
    exact h.cached.of_touches hok.sound hseq htouches (fun _ _ => rfl) hcached

theorem Coherent.swapOut (h : c.Coherent refs cache) (hok : c.OK enableChunking refs)
    (hnone : c.memory.Unwindowed) {running : Multiset SequenceGroup} {numbers : BlockMapping}
    {memory : Memory} (hrunning : c.running = group ::ₘ running) (hgroup : group.sequences = [seq])
    (heffect : Memory.Swaps .cpu .swapped numbers seq c.memory memory)
    (hin : c.blocksToSwapIn = ∅)
    : Coherent refs cache {
        c with
        memory
        running
        swapped := group ::ₘ c.swapped
        blocksToSwapOut := numbers ∪ c.blocksToSwapOut } := by
  rcases hok.running group (by simp [hrunning]) with ⟨_, hsingle, hstatus⟩
  cases hgroup.symm.trans hsingle
  have hmem : group ∈ c.running := by simp [hrunning]
  have hseq : seq ∈ refs := hok.mem_refs_of_queues (.inl hmem) seq (by simp [hgroup])
  rcases hok.apart hgroup c.waiting running c.swapped
    (by simp only [held, hrunning, Multiset.add_cons, Multiset.cons_add])
    with ⟨hleft, hswapped, hscheduled⟩
  have hextends : Memory.Extends .swapOut refs c.memory c.blocksToSwapOut c.running c.swapped seq
      numbers memory :=
    ⟨hok.sound, hseq, h.swapsOut, ⟨group, hmem, hgroup⟩,
      (hok.sound.onDevice_of_running hseq hstatus).device_eq hnone, heffect.toTouches,
      heffect.moves hnone⟩
  have hcached := h.cached
  unfold contents at hcached
  refine ⟨?_, ?_, .inl hin, ?_⟩
  . refine hextends.carries_union ?_ ?_ ?_ ⟨group, by simp, hgroup⟩ hnone
    . exact fun other hother => hok.mem_refs_of_queues (hother.imp_right .inl)
    . exact fun other hother => ⟨by simp [hrunning, hother], hleft other hother⟩
    . exact fun other hother => ⟨by simp [hother], hswapped other hother⟩
  . dsimp only
    rw [hin]
    exact .empty
  . unfold contents
    refine hcached.of_touches hok.sound hseq heffect.toTouches ?_ ?_
    . exact fun block hblock => hextends.swapped_of_mem_owned hblock
    . exact hextends.cachedAt (hcached seq hseq) heffect.sequenceData_eq

theorem Coherent.swapIn (h : c.Coherent refs cache) (hok : c.OK enableChunking refs)
    (hnone : c.memory.Unwindowed) {swapped : Multiset SequenceGroup}
    {numbers copies : BlockMapping} {between memory : Memory} {numTokens : Nat}
    (hswapped : c.swapped = group ::ₘ swapped) (hgroup : group.sequences = [seq])
    (heffect : Memory.Swaps .gpu .running numbers seq c.memory between)
    (happends : Memory.Appends seq between memory) (hout : c.blocksToSwapOut = ∅)
    : Coherent refs cache {
        c with
        memory
        swapped
        scheduled := ⟨group, numTokens⟩ ::ₘ c.scheduled
        blocksToSwapIn := numbers ∪ c.blocksToSwapIn
        blocksToCopy := copies } := by
  rcases hok.swapped group (by simp [hswapped]) with ⟨_, hsingle, hstatus⟩
  cases hgroup.symm.trans hsingle
  have hmem : group ∈ c.swapped := by simp [hswapped]
  have hseq : seq ∈ refs := hok.mem_refs_of_queues (.inr (.inl hmem)) seq (by simp [hgroup])
  rcases hok.apart hgroup c.waiting c.running swapped
    (by simp only [held, hswapped, Multiset.add_cons, Multiset.cons_add])
    with ⟨hrunning, hleft, hscheduled⟩
  have hextends : Memory.Extends .swapIn refs c.memory c.blocksToSwapIn c.swapped
      (c.scheduled.map (·.scheduledGroup)) seq numbers between :=
    ⟨hok.sound, hseq, h.swapsIn, ⟨group, hmem, hgroup⟩,
      (hok.sound.onDevice_of_swapped hseq hstatus).device_eq hnone, heffect.toTouches,
      heffect.moves hnone⟩
  have hsound := heffect.sound_in hok.sound hseq rfl hstatus
  have hnone' : between.Unwindowed := heffect.unwindowed_iff.mpr hnone
  have hcached := h.cached
  unfold contents at hcached
  rw [hout, SwapDirection.swapped_empty] at hcached
  refine ⟨?_, ?_, .inr hout, ?_⟩
  . dsimp only
    rw [hout]
    exact .empty
  . have hbetween : Memory.Carries .swapIn between (numbers ∪ c.blocksToSwapIn) swapped
        ((group ::ₘ c.scheduled.map (·.scheduledGroup))) := by
      refine hextends.carries_union ?_ ?_ ?_ ⟨group, by simp, hgroup⟩ hnone
      . exact fun other hother => hok.mem_refs_of_queues (.inr hother)
      . exact fun other hother => ⟨by simp [hswapped, hother], hleft other hother⟩
      . exact fun other hother => ⟨by simp [Multiset.mem_map.mp hother], hscheduled other hother⟩
    dsimp only
    rw [Multiset.map_cons]
    refine hbetween.of_touches hsound hseq happends.toTouches ?_ ?_ ?_
    . rintro other (hother | hother)
      . exact hok.mem_refs_of_queues (.inr (.inl (by simp [hswapped, hother])))
      . rcases Multiset.mem_cons.mp hother with rfl | hother
        . exact hok.mem_refs_of_queues (.inr (.inl hmem))
        . exact hok.mem_refs_of_queues (.inr (.inr hother))
    . exact fun other hother => ⟨hother, hleft other hother⟩
    . exact fun other hother => ⟨hother, .inr (happends.keepsBlocks hnone')⟩
  . unfold contents
    dsimp only
    rw [hout, SwapDirection.swapped_empty]
    have hbetween : between.Cached refs
        (SwapDirection.swapIn.swapped (numbers ∪ c.blocksToSwapIn) cache) := by
      refine hcached.of_touches hok.sound hseq heffect.toTouches ?_ ?_
      . exact fun block hblock => hextends.swapped_of_mem_owned hblock
      . exact hextends.cachedAt (hcached seq hseq) heffect.sequenceData_eq
    exact hbetween.of_touches hsound hseq happends.toTouches (fun _ _ => rfl)
      (happends.cachedAt hnone' (hbetween seq hseq))

theorem Move.coherent (h : Move enableChunking c c') (hok : c.OK enableChunking refs)
    (hnone : c.memory.Unwindowed) (hcoherent : c.Coherent refs cache) : c'.Coherent refs cache := by
  cases h with
  | recompute group seq running memory hrunning hgroup heffect =>
    have hmem : group ∈ c.running := by simp [hrunning]
    have hseq : seq ∈ refs := hok.mem_refs_of_queues (.inl hmem) seq (by simp [hgroup])
    rcases hok.apart hgroup c.waiting running c.swapped
      (by simp only [held, hrunning, Multiset.add_cons, Multiset.cons_add])
      with ⟨hleft, hswapped, hscheduled⟩
    refine hcoherent.of_touches hok hseq heffect.toTouches rfl rfl ?_ ?_ (.inr ?_) ?_ ?_
    . exact fun other hother => ⟨by simp [hrunning, hother], hleft other hother⟩
    . exact fun other hother => ⟨hother, hswapped other hother⟩
    . exact fun other hother => ⟨hother, hswapped other hother⟩
    . exact fun other hother => ⟨hother, hscheduled other hother⟩
    . exact .of_zero (.inl heffect.table_eq)
  | swapOut group seq running numbers memory hrunning hgroup heffect hin =>
    exact hcoherent.swapOut hok hnone hrunning hgroup heffect hin
  | append group seq running numTokens copies memory hrunning hgroup hchunk heffect =>
    have hmem : group ∈ c.running := by simp [hrunning]
    have hseq : seq ∈ refs := hok.mem_refs_of_queues (.inl hmem) seq (by simp [hgroup])
    rcases hok.apart hgroup c.waiting running c.swapped
      (by simp only [held, hrunning, Multiset.add_cons, Multiset.cons_add])
      with ⟨hleft, hswapped, hscheduled⟩
    refine hcoherent.of_touches hok hseq heffect.toTouches rfl rfl ?_ ?_ (.inr ?_) ?_ ?_
    . exact fun other hother => ⟨by simp [hrunning, hother], hleft other hother⟩
    . exact fun other hother => ⟨hother, hswapped other hother⟩
    . exact fun other hother => ⟨hother, hswapped other hother⟩
    . exact fun other hother =>
        ⟨by simp only [Multiset.map_cons, Multiset.mem_cons, hother, or_true],
          hscheduled other hother⟩
    . exact heffect.cachedAt hnone (hcoherent.cached seq hseq)
  | swapIn group seq swapped numTokens numbers copies between memory hswapped hgroup hchunk heffect
      happends hcopies hout =>
    exact hcoherent.swapIn hok hnone hswapped hgroup heffect happends hout
  | reject group seq swapped memory hswapped hgroup heffect hout =>
    have hmem : group ∈ c.swapped := by simp [hswapped]
    have hseq : seq ∈ refs := hok.mem_refs_of_queues (.inr (.inl hmem)) seq (by simp [hgroup])
    rcases hok.apart hgroup c.waiting c.running swapped
      (by simp only [held, hswapped, Multiset.add_cons, Multiset.cons_add])
      with ⟨hrunning, hleft, hscheduled⟩
    refine hcoherent.of_touches hok hseq heffect.toTouches rfl rfl ?_ ?_ (.inl hout) ?_ ?_
    . exact fun other hother => ⟨hother, hrunning other hother⟩
    . exact fun other hother => ⟨by simp [hswapped, hother], hleft other hother⟩
    . exact fun other hother => ⟨hother, hscheduled other hother⟩
    . exact heffect.cachedAt (hcoherent.cached seq hseq)
  | admitNext group seq waiting numTokens memory hwaiting hgroup hchunk heffect =>
    have hstatus := hok.waiting group (by simp [hwaiting]) seq (by simp [hgroup])
    have hseq : seq ∈ refs := hok.mem_refs group (by simp [held, hwaiting]) seq (by simp [hgroup])
    rcases hok.apart hgroup waiting c.running c.swapped
      (by simp only [held, hwaiting, Multiset.cons_add])
      with ⟨hrunning, hswapped, hscheduled⟩
    refine hcoherent.of_touches hok hseq heffect.toTouches rfl rfl ?_ ?_ (.inr ?_) ?_ ?_
    . exact fun other hother => ⟨hother, hrunning other hother⟩
    . exact fun other hother => ⟨hother, hswapped other hother⟩
    . exact fun other hother => ⟨hother, hswapped other hother⟩
    . exact fun other hother =>
        ⟨by simp only [Multiset.map_cons, Multiset.mem_cons, hother, or_true],
          hscheduled other hother⟩
    . refine .of_zero (.inr ?_)
      dsimp only
      rw [heffect.sequence_eq]
      exact (hok.sound.of_waiting hseq hstatus).2.1
  | ignore group seq waiting memory hwaiting hgroup heffect =>
    have hseq : seq ∈ refs := hok.mem_refs group (by simp [held, hwaiting]) seq (by simp [hgroup])
    rcases hok.apart hgroup waiting c.running c.swapped
      (by simp only [held, hwaiting, Multiset.cons_add])
      with ⟨hrunning, hswapped, hscheduled⟩
    refine hcoherent.of_touches hok hseq heffect.toTouches rfl rfl ?_ ?_ (.inr ?_) ?_ ?_
    . exact fun other hother => ⟨hother, hrunning other hother⟩
    . exact fun other hother => ⟨hother, hswapped other hother⟩
    . exact fun other hother => ⟨hother, hswapped other hother⟩
    . exact fun other hother => ⟨hother, hscheduled other hother⟩
    . exact heffect.cachedAt (hcoherent.cached seq hseq)

theorem Moves.coherent (h : Moves enableChunking c c') (hok : c.OK enableChunking refs)
    (hnone : c.memory.Unwindowed) (hcoherent : c.Coherent refs cache) : c'.Coherent refs cache := by
  induction h with
  | refl => exact hcoherent
  | tail hmoves hmove ih =>
    exact hmove.coherent (Moves.ok hmoves hok) ((Moves.unwindowed_iff hmoves).mpr hnone) ih

end Config

variable {scheduler scheduler' : Scheduler} {refs : List SequenceRef} {cache : KvCache}
variable {instants : Instants} {metadata : List SequenceGroupMetadata} {outputs : SchedulerOutputs}

theorem Config.Coherent.swap_eq {c : Config} (h : c.Coherent refs cache)
    {swapIn swapOut copied : BlockSpaceManager.Copies}
    (hin : swapIn.Perm (SwapDirection.swapIn.copies c.blocksToSwapIn))
    (hout : swapOut.Perm (SwapDirection.swapOut.copies c.blocksToSwapOut))
    (hcopied : copied.Perm (KvCache.copies ∅)) : cache.swap swapIn swapOut copied = c.contents cache := by
  have hnil : copied = [] := hcopied.eq_nil
  unfold KvCache.swap
  rw [hnil,
    Copying.execute_eq_of_perm (SwapDirection.separate_of_injective h.swapsIn.injective) hin,
    Copying.execute_eq_of_perm (SwapDirection.separate_of_injective h.swapsOut.injective) hout]
  rfl

/--
The copies that a call of `schedule` asks for, in any order, leave the computed tokens of every
sequence in the blocks of its table.
-/
theorem cached_of_schedule (hok : scheduler.config.OK false refs)
    (hnone : scheduler.memory.Unwindowed)
    (h : scheduler.schedule instants = .ok (metadata, outputs, scheduler'))
    (hcached : scheduler.memory.Cached refs cache) {request : ExecuteModelRequest}
    (hin : request.blocksToSwapIn = outputs.blocksToSwapIn)
    (hout : request.blocksToSwapOut = outputs.blocksToSwapOut)
    (hcopy : request.blocksToCopy = outputs.blocksToCopy) {swapped : KvCache}
    (hswaps : cache.Swaps request swapped) : scheduler'.memory.Cached refs swapped := by
  rcases schedule_eq_ok h with ⟨passed, hpolicy, hsame, -⟩
  have hok := hok.of_scheduled_eq_zero rfl scheduler.schedulerConfig.enableChunkedPrefill
  rcases schedulePolicy_moves hpolicy hok with ⟨c, lost, hmoves, hsettles, -⟩
  have hcoherent := hmoves.coherent hok hnone ⟨.empty, .empty, .inl rfl, hcached⟩
  have hcontents : swapped = c.contents cache := by
    cases hswaps with
    | intro swapIn swapOut copied hswapIn hswapOut hcopied =>
      rw [hin, hsettles.blocksToSwapIn_eq] at hswapIn
      rw [hout, hsettles.blocksToSwapOut_eq] at hswapOut
      rw [hcopy, hsettles.blocksToCopy_eq, hmoves.blocksToCopy_eq hnone] at hcopied
      exact hcoherent.swap_eq hswapIn hswapOut hcopied
  rcases hsame with ⟨manager, rfl, blocks, rfl, -⟩
  intro seq hseq
  rw [hcontents]
  refine (hcoherent.cached seq hseq).of_eq ?_ ?_ ?_ fun _ _ _ _ => rfl
  . rw [← hsettles.memory_eq]
    rfl
  . rw [← hsettles.memory_eq]
  . rw [← hsettles.memory_eq]

end Scheduler

end AtomaInfer
