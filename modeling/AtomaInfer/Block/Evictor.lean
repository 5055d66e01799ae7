import Mathlib.Order.WithBot
import Mathlib.Logic.Relation
import AtomaInfer.Block.Basic
import AtomaInfer.Util.IndexMap
import AtomaInfer.Util.Scan

/-!
The evictor of cached blocks (`evictor.rs`). It holds the blocks by value.
-/

namespace AtomaInfer

/--
A block by value, with the fields that stay the same and that elsewhere name the reference to it.
-/
structure OwnedTokenBlock extends PhysicalTokenBlock where
  blockNumber : Nat
  blockSize : Nat
  device : BlockDevice
  deriving DecidableEq, Repr

namespace OwnedTokenBlock

def new (blockNumber blockSize : Nat) (device : BlockDevice) : OwnedTokenBlock where
  toPhysicalTokenBlock := PhysicalTokenBlock.new
  blockNumber
  blockSize
  device

/--
The instant of the last access, in the order of the source: `None` comes before every instant.
-/
def accessTime (block : OwnedTokenBlock) : WithBot Nat :=
  block.lastAccessed

def notComputed (block : OwnedTokenBlock) : OwnedTokenBlock :=
  { block with computed := false }

end OwnedTokenBlock

inductive EvictorError where
  | emptyFreeTable
  | panic (message : String)
  deriving DecidableEq, Repr

structure LRUEvictor where
  freeTable : IndexMap Nat OwnedTokenBlock

namespace LRUEvictor

def new : LRUEvictor where
  freeTable := IndexMap.new

def contains (evictor : LRUEvictor) (blockNumber : Nat) : Bool :=
  (evictor.freeTable.get? blockNumber).isSome

/--
The loop of the source over the table: `evicted` is the block to evict so far, with its key.
-/
def evict.loop (evicted : Option (Nat × OwnedTokenBlock)) (entries : List (Nat × OwnedTokenBlock))
    : Option (Nat × OwnedTokenBlock) :=
  match entries, evicted with
  | [], evicted => evicted
  | entry :: entries, none => loop (some entry) entries
  | entry :: entries, some evicted =>
    if evicted.2.accessTime < entry.2.accessTime then some evicted
    else if evicted.2.numHashedTokens < entry.2.numHashedTokens then loop (some entry) entries
    else loop (some evicted) entries

def evict (evictor : LRUEvictor) : Except EvictorError (OwnedTokenBlock × LRUEvictor) :=
  if evictor.freeTable.entries.isEmpty then
    .error .emptyFreeTable
  else
    match evict.loop none evictor.freeTable.entries with
    | some (key, _) =>
      match evictor.freeTable.shiftRemove key with
      | (some evictedBlock, freeTable) => .ok (evictedBlock.notComputed, { freeTable })
      | (none, _) => .error (.panic "unwrap")
    | none => .error .emptyFreeTable

def add (evictor : LRUEvictor) (block : OwnedTokenBlock) : LRUEvictor :=
  { freeTable := evictor.freeTable.insert block.blockNumber block }

def remove (evictor : LRUEvictor) (blockNumber : Nat) : Option OwnedTokenBlock × LRUEvictor :=
  let (block, freeTable) := evictor.freeTable.shiftRemove blockNumber
  (block, { freeTable })

inductive Step (evictor : LRUEvictor) : LRUEvictor → Prop where
  | add (block : OwnedTokenBlock) : Step evictor (evictor.add block)
  | remove (blockNumber : Nat) : Step evictor (evictor.remove blockNumber).2
  | evict (block : OwnedTokenBlock) (evictor' : LRUEvictor)
      (h : evictor.evict = .ok (block, evictor'))
    : Step evictor evictor'

def Reachable (evictor : LRUEvictor) : Prop :=
  Relation.ReflTransGen Step new evictor

section Spec

variable (evictor : LRUEvictor)

/--
The blocks that are held, in the order of the table.
-/
def blocks : List OwnedTokenBlock :=
  evictor.freeTable.entries.map (·.2)

/--
`block` is taken out of the table and the others stay.
-/
def Removes (block : OwnedTokenBlock) (evictor' : LRUEvictor) : Prop :=
  ∃ before after,
    evictor.freeTable.entries = before ++ (block.blockNumber, block) :: after
      ∧ evictor'.freeTable.entries = before ++ after

/--
`evict` takes out, and returns as not computed, a block whose last access is the earliest, and that
has the most hashed tokens among these.
-/
def EvictsOldest : Prop :=
  ∃ block evictor',
    evictor.evict = .ok (block.notComputed, evictor')
      ∧ evictor.Removes block evictor'
      ∧ Scan.IsBest OwnedTokenBlock.accessTime (·.numHashedTokens) evictor.blocks block

/--
A block that should be evicted comes in the table after blocks with fewer hashed tokens only, none
of which was accessed later than the first one with the most hashed tokens before it.
-/
def ExposesOldest : Prop :=
  Scan.Exposed OwnedTokenBlock.accessTime (·.numHashedTokens) evictor.blocks

end Spec

variable {evictor evictor' : LRUEvictor} {block : OwnedTokenBlock}

theorem evict.loop_eq (evicted : Nat × OwnedTokenBlock) (entries : List (Nat × OwnedTokenBlock))
    : loop (some evicted) entries
        = some (Scan.pick (·.2.accessTime) (·.2.numHashedTokens) evicted entries) := by
  induction entries generalizing evicted with
  | nil => rfl
  | cons entry entries ih =>
    rw [loop, Scan.pick, ih, ih]
    split
    . rfl
    . split <;> rfl

/--
A block that is held is known by its number.
-/
theorem Removes.eq_of_blockNumber_eq {evictor'' : LRUEvictor} {other : OwnedTokenBlock}
    (h : evictor.Removes block evictor') (hother : evictor.Removes other evictor'')
    (hnumber : block.blockNumber = other.blockNumber) : block = other := by
  rcases h with ⟨before, after, hsplit, -⟩
  rcases hother with ⟨before', after', hsplit', -⟩
  have hmem : (block.blockNumber, block) ∈ evictor.freeTable.entries := by simp [hsplit]
  have hmem' : (other.blockNumber, other) ∈ evictor.freeTable.entries := by simp [hsplit']
  exact congrArg Prod.snd
    (List.inj_on_of_nodup_map evictor.freeTable.nodup hmem hmem' hnumber)

/--
Every key of the table is the number of its block.
-/
def Keyed (evictor : LRUEvictor) : Prop :=
  ∀ entry ∈ evictor.freeTable.entries, entry.1 = entry.2.blockNumber

/--
A block that is held is evicted, the one that the scan picks.
-/
theorem exists_evict (hkeyed : evictor.Keyed) {first : OwnedTokenBlock}
    {rest : List OwnedTokenBlock} (hblocks : evictor.blocks = first :: rest)
    : ∃ evictor',
        let block := Scan.pick OwnedTokenBlock.accessTime (·.numHashedTokens) first rest
        evictor.evict = .ok (block.notComputed, evictor') ∧ evictor.Removes block evictor' := by
  rcases List.map_eq_cons_iff.mp hblocks with ⟨entry, entries, hentries, rfl, rfl⟩
  let picked := Scan.pick (·.2.accessTime) (·.2.numHashedTokens) entry entries
  have hpick : Scan.pick OwnedTokenBlock.accessTime (·.numHashedTokens) entry.2
      (entries.map (·.2)) = picked.2 :=
    Scan.pick_map (fun entry : Nat × OwnedTokenBlock => entry.2) entry entries
  have hmem : picked ∈ evictor.freeTable.entries := by
    rw [hentries]
    exact Scan.pick_mem entry entries
  have hkey : picked = (picked.2.blockNumber, picked.2) := Prod.ext (hkeyed picked hmem) rfl
  rcases List.append_of_mem hmem with ⟨before, after, hsplit⟩
  rw [hkey] at hsplit
  rcases IndexMap.shiftRemove_of_split hsplit with ⟨hvalue, hrest⟩
  refine ⟨⟨(evictor.freeTable.shiftRemove picked.2.blockNumber).2⟩, ?_⟩
  dsimp only
  rw [hpick]
  refine ⟨?_, before, after, hsplit, hrest⟩
  have hloop : evict.loop none evictor.freeTable.entries
      = some (picked.2.blockNumber, picked.2) := by
    rw [hentries, ← hkey]
    exact evict.loop_eq entry entries
  unfold evict
  rw [if_neg (by simp [hentries]), hloop]
  dsimp only
  split
  . next evictedBlock freeTable hremove =>
    rw [hremove] at hvalue ⊢
    cases hvalue
    rfl
  . next freeTable hremove =>
    rw [hremove] at hvalue
    cases hvalue

theorem exists_removes (hkeyed : evictor.Keyed) (h : evictor.evict = .ok (block, evictor'))
    : ∃ held, block = held.notComputed ∧ evictor.Removes held evictor' := by
  cases hblocks : evictor.blocks with
  | nil =>
    have hnil : evictor.freeTable.entries = [] := List.map_eq_nil_iff.mp hblocks
    unfold evict at h
    rw [if_pos (by simp [hnil])] at h
    cases h
  | cons first rest =>
    rcases exists_evict hkeyed hblocks with ⟨evictor'', hevict, hremoves⟩
    rw [hevict] at h
    cases h
    exact ⟨_, rfl, hremoves⟩

theorem Removes.sublist (h : evictor.Removes block evictor')
    : evictor'.freeTable.entries.Sublist evictor.freeTable.entries := by
  rcases h with ⟨before, after, hsplit, hrest⟩
  rw [hsplit, hrest]
  exact (List.Sublist.refl before).append (List.sublist_cons_self _ _)

theorem Step.keyed (h : Step evictor evictor') (hkeyed : evictor.Keyed) : evictor'.Keyed := by
  cases h with
  | add block =>
    intro entry hentry
    rcases IndexMap.mem_entries_insert hentry with hentry | rfl
    . exact hkeyed entry hentry
    . rfl
  | remove blockNumber =>
    intro entry hentry
    exact hkeyed entry (List.mem_of_mem_filter hentry)
  | evict block _ h =>
    rcases exists_removes hkeyed h with ⟨held, -, hremoves⟩
    intro entry hentry
    exact hkeyed entry (hremoves.sublist.subset hentry)

theorem Reachable.keyed (h : Reachable evictor) : evictor.Keyed := by
  induction h with
  | refl => exact fun _ hentry => absurd hentry List.not_mem_nil
  | tail _ hstep ih => exact hstep.keyed ih

/--
An evictor that holds a block evicts the right one if and only if the table exposes it.
-/
theorem evictsOldest_iff (h : Reachable evictor) (hne : evictor.freeTable.entries ≠ [])
    : evictor.EvictsOldest ↔ evictor.ExposesOldest := by
  cases hblocks : evictor.blocks with
  | nil => exact absurd (List.map_eq_nil_iff.mp hblocks) hne
  | cons first rest =>
    rcases exists_evict h.keyed hblocks with ⟨evictor', hevict, hremoves⟩
    unfold ExposesOldest
    rw [hblocks, ← Scan.isBest_pick_iff]
    constructor
    . rintro ⟨block, evictor'', hevict', hremoves', hbest⟩
      have hsame : block.notComputed = _ :=
        congrArg Prod.fst (Except.ok.inj (hevict'.symm.trans hevict))
      rw [← hblocks]
      rwa [← hremoves'.eq_of_blockNumber_eq hremoves (congrArg (·.blockNumber) hsame)]
    . intro hbest
      exact ⟨_, evictor', hevict, hremoves, hblocks ▸ hbest⟩

/--
The block that was accessed last comes first: of two blocks, the younger one is evicted.
-/
def youngerFirst : LRUEvictor :=
  (new.add { OwnedTokenBlock.new 0 16 .gpu with lastAccessed := some 5 }).add
    { OwnedTokenBlock.new 1 16 .gpu with lastAccessed := some 3 }

theorem not_evictsOldest_youngerFirst
    : Reachable youngerFirst
        ∧ youngerFirst.freeTable.entries ≠ []
        ∧ ¬ youngerFirst.EvictsOldest := by
  refine ⟨?_, by decide, ?_⟩
  . exact .tail (.tail .refl (.add _)) (.add _)
  . rintro ⟨block, evictor', hevict, -, hbest⟩
    have hfirst : youngerFirst.evict.map (·.1.lastAccessed) = .ok (some 5) := rfl
    rw [hevict] at hfirst
    have haccessed : block.accessTime = (5 : Nat) := Except.ok.inj hfirst
    have hle := hbest.time_le { OwnedTokenBlock.new 1 16 .gpu with lastAccessed := some 3 }
      (by decide)
    rw [haccessed] at hle
    exact absurd hle (by decide)

theorem evictsOldest_iff_youngerFirst
    : Reachable youngerFirst
        ∧ youngerFirst.freeTable.entries ≠ []
        ∧ (youngerFirst.EvictsOldest ↔ youngerFirst.ExposesOldest) := by
  have hreachable : Reachable youngerFirst := .tail (.tail .refl (.add _)) (.add _)
  exact ⟨hreachable, by decide, evictsOldest_iff hreachable (by decide)⟩

/--
The blocks of the table are in the order of their accesses.
-/
def InOrder (evictor : LRUEvictor) : Prop :=
  evictor.blocks.Pairwise (·.accessTime ≤ ·.accessTime)

/--
A block that is added is not held, and was accessed after those that are.
-/
inductive OrderedStep (evictor : LRUEvictor) : LRUEvictor → Prop where
  | add (block : OwnedTokenBlock) (hfresh : evictor.contains block.blockNumber = false)
      (hlatest : ∀ held ∈ evictor.blocks, held.accessTime ≤ block.accessTime)
    : OrderedStep evictor (evictor.add block)
  | remove (blockNumber : Nat) : OrderedStep evictor (evictor.remove blockNumber).2
  | evict (block : OwnedTokenBlock) (evictor' : LRUEvictor)
      (h : evictor.evict = .ok (block, evictor'))
    : OrderedStep evictor evictor'

theorem OrderedStep.step (h : OrderedStep evictor evictor') : Step evictor evictor' := by
  cases h with
  | add block => exact .add block
  | remove blockNumber => exact .remove blockNumber
  | evict block _ h => exact .evict block _ h

theorem OrderedStep.inOrder (h : OrderedStep evictor evictor') (hkeyed : evictor.Keyed)
    (horder : evictor.InOrder) : evictor'.InOrder := by
  cases h with
  | add block hfresh hlatest =>
    have hnone : evictor.freeTable.get? block.blockNumber = none := by
      simpa [contains] using hfresh
    unfold InOrder blocks LRUEvictor.add
    rw [IndexMap.entries_insert_of_notMem (IndexMap.notMem_keys_of_get?_eq_none hnone),
      List.map_append, List.pairwise_append]
    refine ⟨horder, List.pairwise_singleton _ _, ?_⟩
    intro held hheld other hother
    rw [List.map_singleton, List.mem_singleton] at hother
    rw [hother]
    exact hlatest held hheld
  | remove blockNumber => exact horder.sublist (List.filter_sublist.map _)
  | evict block _ h =>
    rcases exists_removes hkeyed h with ⟨held, -, hremoves⟩
    exact horder.sublist (hremoves.sublist.map _)

/--
When all blocks come in the order of their accesses, the right one is exposed at all times.
-/
theorem exposesOldest_of_orderedSteps (h : Relation.ReflTransGen OrderedStep new evictor)
    (hne : evictor.freeTable.entries ≠ []) : evictor.ExposesOldest := by
  have hinv : evictor.Keyed ∧ evictor.InOrder := by
    clear hne
    induction h with
    | refl => exact ⟨fun _ hentry => absurd hentry List.not_mem_nil, List.Pairwise.nil⟩
    | tail _ hstep ih => exact ⟨hstep.step.keyed ih.1, hstep.inOrder ih.1 ih.2⟩
  unfold ExposesOldest
  cases hblocks : evictor.blocks with
  | nil => exact absurd (List.map_eq_nil_iff.mp hblocks) hne
  | cons first rest =>
    have horder : evictor.blocks.Pairwise (·.accessTime ≤ ·.accessTime) := hinv.2
    rw [← Scan.isBest_pick_iff]
    rw [hblocks] at horder
    exact Scan.isBest_pick_of_pairwise horder

end LRUEvictor

end AtomaInfer
