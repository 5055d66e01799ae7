import Mathlib.Algebra.Order.Floor.Div
import AtomaInfer.Sequence.Group

/-!
The logical blocks of a sequence hold its tokens, in order and without gaps.
-/

namespace AtomaInfer

theorem SequenceData.length_getTokenIds (data : SequenceData)
    : data.getTokenIds.length = data.length :=
  List.length_append

/--
`blocks` are consecutive blocks of size `blockSize`, all of them full but possibly the last one,
and none empty but possibly the last one.
-/
structure LogicalTokenBlock.Consecutive (blockSize : Nat) (blocks : List LogicalTokenBlock) : Prop where
  blockSize_eq : ∀ block ∈ blocks, block.blockSize = blockSize
  numTokens_eq : ∀ block ∈ blocks, block.numTokens = block.tokenIds.length
  blockNumber_eq : blocks.map (·.blockNumber) = List.range blocks.length
  full : ∀ block ∈ blocks.dropLast, block.tokenIds.length = blockSize
  last_le : ∀ block ∈ blocks.getLast?, block.tokenIds.length ≤ blockSize

namespace LogicalTokenBlock.Consecutive

variable {blockSize : Nat} {init : List LogicalTokenBlock} {last : LogicalTokenBlock}

theorem nil : Consecutive blockSize [] := by
  constructor <;> simp

theorem push {blocks : List LogicalTokenBlock} (h : Consecutive blockSize blocks)
    (hfull : ∀ block ∈ blocks, block.tokenIds.length = blockSize)
    : Consecutive blockSize (blocks ++ [new blocks.length blockSize]) := by
  constructor
  . intro block hblock
    rcases List.mem_append.mp hblock with hblock | hblock
    . exact h.blockSize_eq block hblock
    . rw [List.mem_singleton.mp hblock]
      rfl
  . intro block hblock
    rcases List.mem_append.mp hblock with hblock | hblock
    . exact h.numTokens_eq block hblock
    . rw [List.mem_singleton.mp hblock]
      rfl
  . simp [h.blockNumber_eq, List.range_succ, new]
  . simpa using hfull
  . simp [new]

theorem fill (h : Consecutive blockSize (init ++ [last])) (tokenIds : List Nat)
    (hfits : last.tokenIds.length + tokenIds.length ≤ blockSize)
    : Consecutive blockSize (init ++ [{
        last with
        tokenIds := last.tokenIds ++ tokenIds
        numTokens := last.numTokens + tokenIds.length }]) := by
  constructor
  . intro block hblock
    rcases List.mem_append.mp hblock with hblock | hblock
    . exact h.blockSize_eq block (by simp [hblock])
    . rw [List.mem_singleton.mp hblock]
      exact h.blockSize_eq last (by simp)
  . intro block hblock
    rcases List.mem_append.mp hblock with hblock | hblock
    . exact h.numTokens_eq block (by simp [hblock])
    . rw [List.mem_singleton.mp hblock]
      simp [h.numTokens_eq last (by simp)]
  . simpa using h.blockNumber_eq
  . simpa using h.full
  . simpa using hfits

/--
The number of tokens in consecutive blocks, the last of which is `last`.
-/
theorem length_flatMap (h : Consecutive blockSize (init ++ [last]))
    : ((init ++ [last]).flatMap (·.tokenIds)).length
        =
      init.length * blockSize + last.tokenIds.length := by
  have hfull : ∀ block ∈ init, block.tokenIds.length = blockSize := by
    simpa using h.full
  have hinit : (init.map fun block => block.tokenIds.length).sum = init.length * blockSize := by
    rw [List.map_congr_left hfull]
    simp
  simp [List.length_flatMap, hinit]

end LogicalTokenBlock.Consecutive

namespace Sequence

/--
The logical blocks of the sequence store `tokenIds`.
-/
structure Stores (sequence : Sequence) (tokenIds : List Nat) : Prop where
  consecutive : LogicalTokenBlock.Consecutive sequence.blockSize sequence.logicalTokenBlocks
  flatMap_eq : sequence.logicalTokenBlocks.flatMap (·.tokenIds) = tokenIds
  last_ne_nil : ∀ block ∈ sequence.logicalTokenBlocks.getLast?, block.tokenIds ≠ []

theorem Stores.nil (sequence : Sequence) (h : sequence.logicalTokenBlocks = [])
    : sequence.Stores [] := by
  constructor
  . rw [h]
    exact LogicalTokenBlock.Consecutive.nil
  . simp [h]
  . simp [h]

/--
Only blocks with room for a token store one.
-/
theorem Stores.blockSize_pos {sequence : Sequence} {tokenIds : List Nat}
    (h : sequence.Stores tokenIds) (hne : tokenIds ≠ []) : 1 ≤ sequence.blockSize := by
  rcases h with ⟨hconsecutive, hflat, hlast⟩
  rcases List.eq_nil_or_concat sequence.logicalTokenBlocks with hnil | ⟨init, last, hconcat⟩
  . rw [hnil] at hflat
    exact absurd hflat.symm hne
  . rw [List.concat_eq_append] at hconcat
    have hle := hconsecutive.last_le last (by simp [hconcat])
    have hpos := List.length_pos_of_ne_nil (hlast last (by simp [hconcat]))
    omega

/--
A sequence has as many logical blocks as its tokens need.
-/
theorem Stores.getNumTotalLogicalTokenBlocks_eq {sequence : Sequence} {tokenIds : List Nat}
    (h : sequence.Stores tokenIds)
    : sequence.getNumTotalLogicalTokenBlocks = tokenIds.length ⌈/⌉ sequence.blockSize := by
  rcases h with ⟨hconsecutive, hflat, hlast⟩
  unfold getNumTotalLogicalTokenBlocks
  rw [← hflat]
  generalize sequence.logicalTokenBlocks = blocks at *
  rcases List.eq_nil_or_concat blocks with rfl | ⟨init, last, rfl⟩
  . simp
  . rw [List.concat_eq_append] at *
    have hle := hconsecutive.last_le last (by simp)
    have hpos := List.length_pos_of_ne_nil (hlast last (by simp))
    rw [hconsecutive.length_flatMap, Nat.ceilDiv_eq_add_pred_div]
    symm
    rw [Nat.div_eq_iff (by omega)]
    simp only [List.length_append, List.length_cons, List.length_nil, Nat.add_mul]
    omega

variable (sequence : Sequence)

/--
The last block of the source's `append_tokens_to_blocks`, after it has made sure that there is one
that is not full.
-/
def withOpenBlock : Sequence :=
  let sequence :=
    if sequence.logicalTokenBlocks.isEmpty then sequence.appendLogicalBlock else sequence
  if sequence.isLastBlockFull then sequence.appendLogicalBlock else sequence

theorem withOpenBlock_eq : sequence.withOpenBlock
    = { sequence with logicalTokenBlocks := sequence.withOpenBlock.logicalTokenBlocks } := by
  unfold withOpenBlock appendLogicalBlock
  dsimp
  split <;> split <;> rfl

variable {sequence}

theorem appendTokensToBlocks.go_succ (iterations : Nat) (sequence : Sequence) (token : Nat)
    (rest : List Nat)
    : go (iterations + 1) sequence (token :: rest) =
        match sequence.withOpenBlock.logicalTokenBlocks.getLast? with
        | none => .error (.panic "unwrap")
        | some lastBlock =>
          match lastBlock.appendTokens ((token :: rest).take lastBlock.getNumEmptySlots) with
          | .error e => .error (.blockError e)
          | .ok filled =>
            go iterations
              {
                sequence.withOpenBlock with
                logicalTokenBlocks := sequence.withOpenBlock.logicalTokenBlocks.dropLast ++ [filled]
              }
              ((token :: rest).drop lastBlock.getNumEmptySlots) := by
  rw [go]
  rfl

theorem withOpenBlock_spec {tokenIds : List Nat} (h : sequence.Stores tokenIds)
    (hsize : 1 ≤ sequence.blockSize)
    : ∃ init last,
        sequence.withOpenBlock.logicalTokenBlocks = init ++ [last]
          ∧ LogicalTokenBlock.Consecutive sequence.blockSize (init ++ [last])
          ∧ (init ++ [last]).flatMap (·.tokenIds) = tokenIds
          ∧ last.tokenIds.length < sequence.blockSize := by
  rcases h with ⟨hconsecutive, hflat, -⟩
  rcases List.eq_nil_or_concat sequence.logicalTokenBlocks with hnil | ⟨init, last, hconcat⟩
  . refine ⟨[], LogicalTokenBlock.new 0 sequence.blockSize, ?_, ?_, ?_, ?_⟩
    . have : sequence.blockSize ≠ 0 := by omega
      simp [withOpenBlock, hnil, appendLogicalBlock, isLastBlockFull, LogicalTokenBlock.isFull,
        LogicalTokenBlock.new, Ne.symm this]
    . have := hconsecutive.push (by simp [hnil])
      simpa [hnil] using this
    . simpa [hnil, LogicalTokenBlock.new] using hflat
    . exact hsize
  . rw [List.concat_eq_append] at hconcat
    have hlast := hconsecutive.last_le last (by simp [hconcat])
    have hnum := hconsecutive.numTokens_eq last (by simp [hconcat])
    have hbs := hconsecutive.blockSize_eq last (by simp [hconcat])
    by_cases hfull : last.tokenIds.length = sequence.blockSize
    . refine ⟨init ++ [last], .new (init ++ [last]).length sequence.blockSize, ?_, ?_, ?_, ?_⟩
      . simp [withOpenBlock, hconcat, appendLogicalBlock, isLastBlockFull,
          LogicalTokenBlock.isFull, hnum, hbs, hfull]
      . have hall : ∀ block ∈ sequence.logicalTokenBlocks,
            block.tokenIds.length = sequence.blockSize := by
          intro block hblock
          rw [hconcat, List.mem_append, List.mem_singleton] at hblock
          rcases hblock with hblock | rfl
          . exact hconsecutive.full block (by simpa [hconcat] using hblock)
          . exact hfull
        have := hconsecutive.push hall
        rwa [hconcat] at this
      . rw [← hflat, hconcat]
        simp [LogicalTokenBlock.new]
      . exact hsize
    . refine ⟨init, last, ?_, ?_, ?_, ?_⟩
      . simp [withOpenBlock, hconcat, isLastBlockFull, LogicalTokenBlock.isFull, hnum, hbs, hfull]
      . rwa [hconcat] at hconsecutive
      . rw [← hflat, hconcat]
      . omega

/--
Appending tokens succeeds, and changes nothing but the logical blocks.
-/
theorem appendTokensToBlocks.go_spec {iterations : Nat} {tokenIds newTokenIds : List Nat}
    (h : sequence.Stores tokenIds) (hsize : 1 ≤ sequence.blockSize)
    (hiterations : newTokenIds.length ≤ iterations)
    : ∃ blocks,
        go iterations sequence newTokenIds
            = .ok { sequence with logicalTokenBlocks := blocks }
          ∧ Stores { sequence with logicalTokenBlocks := blocks } (tokenIds ++ newTokenIds) := by
  induction iterations generalizing sequence tokenIds newTokenIds with
  | zero =>
    have : newTokenIds = [] := List.eq_nil_of_length_eq_zero (by omega)
    subst this
    exact ⟨sequence.logicalTokenBlocks, by simp [go], by simpa using h⟩
  | succ iterations ih =>
    cases newTokenIds with
    | nil => exact ⟨sequence.logicalTokenBlocks, by simp [go], by simpa using h⟩
    | cons token rest =>
      rcases withOpenBlock_spec h hsize with ⟨init, last, hopen, hconsecutive, hflat, hspace⟩
      have hnum := hconsecutive.numTokens_eq last (by simp)
      have hbs := hconsecutive.blockSize_eq last (by simp)
      have hslots : last.getNumEmptySlots = sequence.blockSize - last.tokenIds.length := by
        rw [LogicalTokenBlock.getNumEmptySlots, hnum, hbs]
      generalize hn : last.getNumEmptySlots = n at *
      let filled : LogicalTokenBlock := {
        last with
        tokenIds := last.tokenIds ++ (token :: rest).take n
        numTokens := last.numTokens + ((token :: rest).take n).length }
      have happend : last.appendTokens ((token :: rest).take n) = .ok filled := by
        rw [LogicalTokenBlock.appendTokens, hn]
        rw [if_pos (List.length_take_le _ _)]
      have hgo : go (iterations + 1) sequence (token :: rest)
          = go iterations { sequence with logicalTokenBlocks := init ++ [filled] }
              ((token :: rest).drop n) := by
        rw [go_succ, hopen, withOpenBlock_eq]
        simp [happend, hn]
      have hstores : Stores { sequence with logicalTokenBlocks := init ++ [filled] }
          (tokenIds ++ (token :: rest).take n) := by
        constructor
        . apply hconsecutive.fill
          have := List.length_take_le n (token :: rest)
          omega
        . simp [filled, ← hflat]
        . intro block hblock
          have : block = filled := by simpa using hblock.symm
          subst this
          have : n ≠ 0 := by omega
          simp [filled, this]
      have hlength : ((token :: rest).drop n).length ≤ iterations := by
        simp only [List.length_drop, List.length_cons] at *
        omega
      rcases ih hstores hsize hlength with ⟨blocks, hok, hblocks⟩
      refine ⟨blocks, ?_, ?_⟩
      . rw [hgo, hok]
      . simpa using hblocks

theorem appendTokensToBlocks_spec {tokenIds : List Nat} (newTokenIds : List Nat)
    (h : sequence.Stores tokenIds) (hsize : 1 ≤ sequence.blockSize)
    : ∃ blocks,
        sequence.appendTokensToBlocks newTokenIds
            = .ok { sequence with logicalTokenBlocks := blocks }
          ∧ Stores { sequence with logicalTokenBlocks := blocks } (tokenIds ++ newTokenIds) := by
  unfold appendTokensToBlocks
  exact appendTokensToBlocks.go_spec h hsize (Nat.le_refl _)

theorem blockSize_withOpenBlock (hsize : sequence.blockSize = 0)
    (hblocks : ∀ block ∈ sequence.logicalTokenBlocks, block.blockSize = 0)
    : sequence.withOpenBlock.blockSize = 0
        ∧ ∀ block ∈ sequence.withOpenBlock.logicalTokenBlocks, block.blockSize = 0 := by
  have happend : ∀ {sequence : Sequence}, sequence.blockSize = 0 →
      (∀ block ∈ sequence.logicalTokenBlocks, block.blockSize = 0) →
      sequence.appendLogicalBlock.blockSize = 0
        ∧ ∀ block ∈ sequence.appendLogicalBlock.logicalTokenBlocks, block.blockSize = 0 := by
    intro sequence hsize hblocks
    refine ⟨hsize, fun block hblock => ?_⟩
    rcases List.mem_append.mp hblock with hblock | hblock
    . exact hblocks block hblock
    . rw [List.mem_singleton.mp hblock]
      exact hsize
  unfold withOpenBlock
  dsimp only
  split
  . split
    . exact happend (happend hsize hblocks).1 (happend hsize hblocks).2
    . exact happend hsize hblocks
  . split
    . exact happend hsize hblocks
    . exact ⟨hsize, hblocks⟩

/--
Blocks without room for a token make no progress.
-/
theorem appendTokensToBlocks.go_ne_ok {iterations : Nat} {newTokenIds : List Nat}
    (hsize : sequence.blockSize = 0)
    (hblocks : ∀ block ∈ sequence.logicalTokenBlocks, block.blockSize = 0)
    (htokens : newTokenIds ≠ []) (sequence' : Sequence)
    : go iterations sequence newTokenIds ≠ .ok sequence' := by
  induction iterations generalizing sequence with
  | zero =>
    cases newTokenIds with
    | nil => exact absurd rfl htokens
    | cons token rest => simp [go]
  | succ iterations ih =>
    cases newTokenIds with
    | nil => exact absurd rfl htokens
    | cons token rest =>
      rcases blockSize_withOpenBlock hsize hblocks with ⟨hsize', hblocks'⟩
      rw [go_succ]
      split
      . simp
      . next lastBlock hlast =>
        have hslots : lastBlock.getNumEmptySlots = 0 := by
          unfold LogicalTokenBlock.getNumEmptySlots
          rw [hblocks' lastBlock (List.mem_of_getLast? hlast)]
          omega
        rw [hslots, List.take_zero, List.drop_zero]
        unfold LogicalTokenBlock.appendTokens
        rw [List.length_nil, if_pos (Nat.zero_le _)]
        refine ih hsize' ?_
        intro block hblock
        rcases List.mem_append.mp hblock with hblock | hblock
        . exact hblocks' block (List.mem_of_mem_dropLast hblock)
        . rw [List.mem_singleton.mp hblock]
          exact hblocks' lastBlock (List.mem_of_getLast? hlast)

theorem of_appendTokensToBlocks {sequence' : Sequence} {tokenIds newTokenIds : List Nat}
    (hok : sequence.appendTokensToBlocks newTokenIds = .ok sequence')
    (h : sequence.Stores tokenIds)
    : ∃ blocks,
        sequence' = { sequence with logicalTokenBlocks := blocks }
          ∧ sequence'.Stores (tokenIds ++ newTokenIds) := by
  rcases Nat.eq_zero_or_pos sequence.blockSize with hzero | hsize
  . by_cases hnil : newTokenIds = []
    . subst hnil
      cases hok
      exact ⟨_, rfl, by simpa using h⟩
    . refine absurd hok (appendTokensToBlocks.go_ne_ok hzero ?_ hnil _)
      intro block hblock
      rw [h.consecutive.blockSize_eq block hblock, hzero]
  . rcases appendTokensToBlocks_spec newTokenIds h hsize with ⟨blocks, hok', hstores⟩
    rw [hok'] at hok
    cases hok
    exact ⟨blocks, rfl, hstores⟩

theorem appendTokensToBlocks.go_eq_ok {iterations : Nat} {newTokenIds : List Nat}
    {sequence' : Sequence} (h : go iterations sequence newTokenIds = .ok sequence')
    : { sequence' with logicalTokenBlocks := [] } = { sequence with logicalTokenBlocks := [] } := by
  induction iterations generalizing sequence newTokenIds with
  | zero =>
    cases newTokenIds with
    | nil =>
      cases h
      rfl
    | cons token rest => cases h
  | succ iterations ih =>
    cases newTokenIds with
    | nil =>
      cases h
      rfl
    | cons token rest =>
      have hopen : { sequence.withOpenBlock with logicalTokenBlocks := [] }
          = { sequence with logicalTokenBlocks := [] } := by
        rw [withOpenBlock_eq]
      rw [go_succ] at h
      split at h
      . cases h
      . split at h
        . cases h
        . exact (ih h).trans hopen

/--
Only the logical blocks change.
-/
theorem appendTokensToBlocks_eq_ok {sequence' : Sequence} {newTokenIds : List Nat}
    (h : sequence.appendTokensToBlocks newTokenIds = .ok sequence')
    : sequence' = { sequence with logicalTokenBlocks := sequence'.logicalTokenBlocks } :=
  congrArg (fun other => { other with logicalTokenBlocks := sequence'.logicalTokenBlocks })
    (appendTokensToBlocks.go_eq_ok h)

/--
The blocks do not depend on the counters.
-/
theorem appendTokensToBlocks.go_sequenceData (iterations : Nat) (sequence : Sequence)
    (newTokenIds : List Nat) (data : SequenceData)
    : go iterations { sequence with sequenceData := data } newTokenIds
        = (go iterations sequence newTokenIds).map ({ · with sequenceData := data }) := by
  induction iterations generalizing sequence newTokenIds with
  | zero => cases newTokenIds <;> rfl
  | succ iterations ih =>
    cases newTokenIds with
    | nil => rfl
    | cons token rest =>
      have hopen : withOpenBlock { sequence with sequenceData := data }
          = { sequence.withOpenBlock with sequenceData := data } := by
        unfold withOpenBlock
        by_cases hempty : sequence.logicalTokenBlocks.isEmpty = true
        . simp only [hempty, if_true]
          by_cases hfull : sequence.appendLogicalBlock.isLastBlockFull = true
          . rw [if_pos hfull]
            exact if_pos hfull
          . rw [if_neg hfull]
            exact if_neg hfull
        . simp only [hempty, Bool.false_eq_true, if_false]
          by_cases hfull : sequence.isLastBlockFull = true
          . rw [if_pos hfull]
            exact if_pos hfull
          . rw [if_neg hfull]
            exact if_neg hfull
      rw [go_succ, go_succ, hopen]
      dsimp only
      cases hlast : sequence.withOpenBlock.logicalTokenBlocks.getLast? with
      | none => rfl
      | some lastBlock =>
        dsimp only
        cases happend : lastBlock.appendTokens ((token :: rest).take lastBlock.getNumEmptySlots) with
        | error e => rfl
        | ok filled =>
          exact ih
            {
              sequence.withOpenBlock with
              logicalTokenBlocks := sequence.withOpenBlock.logicalTokenBlocks.dropLast ++ [filled]
            }
            ((token :: rest).drop lastBlock.getNumEmptySlots)

theorem appendTokensToBlocks_sequenceData {data : SequenceData} {newTokenIds : List Nat}
    {blocks : List LogicalTokenBlock}
    (h : appendTokensToBlocks { sequence with sequenceData := data } newTokenIds
      = .ok { sequence with sequenceData := data, logicalTokenBlocks := blocks })
    : sequence.appendTokensToBlocks newTokenIds
        = .ok { sequence with logicalTokenBlocks := blocks } := by
  unfold appendTokensToBlocks at h ⊢
  rw [appendTokensToBlocks.go_sequenceData] at h
  cases hgo : appendTokensToBlocks.go newTokenIds.length sequence newTokenIds with
  | error e =>
    rw [hgo] at h
    cases h
  | ok sequence' =>
    rw [hgo] at h
    have hblocks : sequence'.logicalTokenBlocks = blocks :=
      congrArg (·.logicalTokenBlocks) (Except.ok.inj h)
    rw [← hblocks, ← appendTokensToBlocks_eq_ok hgo]

/--
A token without a log-probability is not added.
-/
theorem addTokenId_eq_ok {sequence added : Sequence} {tokenId : Nat} {logprobs : LogProbs}
    (h : sequence.addTokenId tokenId logprobs = .ok added)
    : added = {
          sequence with
          sequenceData := added.sequenceData
          logicalTokenBlocks := added.logicalTokenBlocks
          outputLogprobs := added.outputLogprobs }
        ∧ match logprobs.lookup tokenId with
          | none => added.sequenceData = sequence.sequenceData
          | some logprob =>
            added.sequenceData = sequence.sequenceData.addTokenId tokenId logprob.logprob := by
  unfold addTokenId at h
  cases hlookup : logprobs.lookup tokenId with
  | none =>
    rw [hlookup] at h
    cases h
    exact ⟨rfl, rfl⟩
  | some logprob =>
    rw [hlookup] at h
    dsimp only at h
    split at h
    . cases h
    . next appended happend =>
      cases h
      rw [appendTokensToBlocks_eq_ok happend]
      exact ⟨rfl, rfl⟩

theorem of_new {prompt : String} {promptTokenIds : List Nat} {blockSize : Nat}
    {returnFullText : Bool} (h : new prompt promptTokenIds blockSize returnFullText = .ok sequence)
    : sequence.blockSize = blockSize
        ∧ sequence.sequenceData = SequenceData.new promptTokenIds []
        ∧ sequence.sequenceStatus = .waiting
        ∧ sequence.Stores promptTokenIds := by
  rcases of_appendTokensToBlocks h (Stores.nil _ rfl) with ⟨blocks, rfl, hstores⟩
  exact ⟨rfl, rfl, rfl, hstores⟩

end Sequence

/--
The tokens of a sequence, what belongs to each of them, and the logical blocks stay.
-/
structure Sequence.KeepsTokens (sequence sequence' : Sequence) : Prop where
  blockSize_eq : sequence'.blockSize = sequence.blockSize
  logicalTokenBlocks_eq : sequence'.logicalTokenBlocks = sequence.logicalTokenBlocks
  promptTokenIds_eq :
    sequence'.sequenceData.promptTokenIds = sequence.sequenceData.promptTokenIds
  outputTokenIds_eq :
    sequence'.sequenceData.outputTokenIds = sequence.sequenceData.outputTokenIds
  outputLogprobs_eq : sequence'.outputLogprobs = sequence.outputLogprobs
  tokens_eq : sequence'.tokens = sequence.tokens

namespace Sequence.KeepsTokens

variable {sequence sequence' sequence'' : Sequence}

theorem refl (sequence : Sequence) : sequence.KeepsTokens sequence := by
  constructor <;> rfl

theorem trans (h : sequence.KeepsTokens sequence') (h' : sequence'.KeepsTokens sequence'')
    : sequence.KeepsTokens sequence'' := by
  constructor
  . rw [h'.blockSize_eq, h.blockSize_eq]
  . rw [h'.logicalTokenBlocks_eq, h.logicalTokenBlocks_eq]
  . rw [h'.promptTokenIds_eq, h.promptTokenIds_eq]
  . rw [h'.outputTokenIds_eq, h.outputTokenIds_eq]
  . rw [h'.outputLogprobs_eq, h.outputLogprobs_eq]
  . rw [h'.tokens_eq, h.tokens_eq]

theorem getTokenIds_eq (h : sequence.KeepsTokens sequence')
    : sequence'.sequenceData.getTokenIds = sequence.sequenceData.getTokenIds := by
  unfold SequenceData.getTokenIds
  rw [h.promptTokenIds_eq, h.outputTokenIds_eq]

theorem length_eq (h : sequence.KeepsTokens sequence') : sequence'.length = sequence.length := by
  unfold Sequence.length SequenceData.length
  rw [h.promptTokenIds_eq, h.outputTokenIds_eq]

theorem numBlocks_eq (h : sequence.KeepsTokens sequence')
    : sequence'.getNumTotalLogicalTokenBlocks = sequence.getNumTotalLogicalTokenBlocks := by
  unfold getNumTotalLogicalTokenBlocks
  rw [h.logicalTokenBlocks_eq]

theorem stores (h : sequence.KeepsTokens sequence') {tokenIds : List Nat}
    (hstores : sequence.Stores tokenIds) : sequence'.Stores tokenIds := by
  rcases hstores with ⟨hconsecutive, hflat, hlast⟩
  constructor
  . rwa [h.blockSize_eq, h.logicalTokenBlocks_eq]
  . rwa [h.logicalTokenBlocks_eq]
  . rwa [h.logicalTokenBlocks_eq]

theorem setSequenceStatus (sequence : Sequence) (status : SequenceStatus)
    : sequence.KeepsTokens (sequence.setSequenceStatus status) := by
  constructor <;> rfl

theorem resetStateForRecompute (sequence : Sequence)
    : sequence.KeepsTokens sequence.resetStateForRecompute := by
  constructor <;> rfl

end Sequence.KeepsTokens

namespace SequenceGroup

variable {group : SequenceGroup} {heap : SequenceHeap} {status : SequenceStatus}
variable {sequence : SequenceRef}

theorem mem_getSeqs
    : sequence ∈ group.getSeqs heap status
        ↔
      sequence ∈ group.sequences ∧ (heap sequence).sequenceStatus = status := by
  simp [getSeqs]

theorem mem_getSeqs_of_getFirstSequence (h : group.getFirstSequence heap status = some sequence)
    : sequence ∈ group.getSeqs heap status := by
  unfold getFirstSequence at h
  rw [mem_getSeqs]
  refine ⟨List.mem_of_find?_eq_some h, ?_⟩
  simpa using List.find?_some h

theorem getSequencesIds_eq_nil (h : group.getFirstSequence heap status = none)
    : group.getSequencesIds heap status = [] := by
  unfold getFirstSequence at h
  unfold getSequencesIds getSeqs
  rw [List.map_eq_nil_iff, List.filter_eq_nil_iff]
  exact List.find?_eq_none.mp h

theorem setStatusWhere_apply (p : SequenceRef → Bool) (status : SequenceStatus)
    (sequence : SequenceRef)
    : group.setStatusWhere heap p status sequence
        =
      if sequence ∈ group.sequences ∧ p sequence then (heap sequence).setSequenceStatus status
      else heap sequence := by
  unfold setStatusWhere
  generalize group.sequences = sequences
  induction sequences generalizing heap with
  | nil => simp
  | cons head sequences ih =>
    rw [List.foldl_cons, ih]
    by_cases hhead : sequence = head
    . subst hhead
      by_cases hp : p sequence <;> simp [hp, Sequence.setSequenceStatus]
    . by_cases hp : p head <;> simp [hp, hhead]

section Nodup

variable (hnodup : (group.sequences.map (·.sequenceId)).Nodup)
include hnodup

theorem nodup_getSequencesIds : (group.getSequencesIds heap status).Nodup := by
  unfold getSequencesIds getSeqs
  exact hnodup.sublist (List.Sublist.map _ List.filter_sublist)

theorem eq_of_sequenceId_eq {sequence' : SequenceRef} (h : sequence ∈ group.sequences)
    (h' : sequence' ∈ group.sequences) (hid : sequence.sequenceId = sequence'.sequenceId)
    : sequence = sequence' :=
  List.inj_on_of_nodup_map hnodup h h' hid

theorem mem_getSeqs_iff_mem_getSequencesIds
    : sequence ∈ group.sequences ∧ sequence.sequenceId ∈ group.getSequencesIds heap status
        ↔
      sequence ∈ group.getSeqs heap status := by
  unfold getSequencesIds
  rw [List.mem_map]
  constructor
  . rintro ⟨hmem, sequence', hsequence', hid⟩
    have := eq_of_sequenceId_eq hnodup (mem_getSeqs.mp hsequence').1 hmem hid
    rwa [← this]
  . intro h
    exact ⟨(mem_getSeqs.mp h).1, sequence, h, rfl⟩

theorem getSequenceFromId_eq_some (h : sequence ∈ group.sequences)
    : group.getSequenceFromId sequence.sequenceId = some sequence := by
  unfold getSequenceFromId
  cases hfind : group.sequences.find? fun seq => decide (seq.sequenceId = sequence.sequenceId) with
  | none =>
    rw [List.find?_eq_none] at hfind
    simpa using hfind sequence h
  | some sequence' =>
    have hmem := List.mem_of_find?_eq_some hfind
    have hid : sequence'.sequenceId = sequence.sequenceId := by simpa using List.find?_some hfind
    rw [eq_of_sequenceId_eq hnodup hmem h hid]

end Nodup

end SequenceGroup

end AtomaInfer
