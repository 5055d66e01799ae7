import AtomaInfer.Sequence.Lemmas

/-!
Sequences to which tokens are added one by one: their logical blocks represent the tokens. The
prefixes of the tokens and the hashes of the blocks, which are defined for full blocks only.
-/

namespace AtomaInfer

namespace SequenceData

/--
The slice of the source that ends before `numTokens`.
-/
def sliceTo (tokenIds : List Nat) (numTokens : Nat) : Except SequenceError (List Nat) :=
  if numTokens ≤ tokenIds.length then
    .ok (tokenIds.take numTokens)
  else
    .error (.panic "range end index out of range for slice")

def getPrefixTokenIds (data : SequenceData) (numTokens : Nat)
    : Except SequenceError (List Nat × List Nat) :=
  let promptLen := data.getPromptLen
  if promptLen < numTokens then do
    let outputPrefix ← sliceTo data.outputTokenIds (numTokens - promptLen)
    return (data.promptTokenIds, outputPrefix)
  else do
    let promptPrefix ← sliceTo data.promptTokenIds numTokens
    return (promptPrefix, [])

/--
The first `numTokens` tokens, or all of them, come in two parts, those of the prompt and those of
the output.
-/
def HasPrefix (data : SequenceData) (numTokens : Nat) : Prop :=
  ∃ promptPrefix outputPrefix,
    data.getPrefixTokenIds numTokens = .ok (promptPrefix, outputPrefix)
      ∧ promptPrefix = data.promptTokenIds.take numTokens
      ∧ promptPrefix ++ outputPrefix = data.getTokenIds.take (min numTokens data.length)

/--
Two sequences with prompts of the same length that have the first `numTokens` tokens in common.
-/
structure Agree (numTokens : Nat) (data data' : SequenceData) : Prop where
  promptLen_eq : data'.getPromptLen = data.getPromptLen
  take_eq : data'.getTokenIds.take numTokens = data.getTokenIds.take numTokens

variable {data data' : SequenceData} {numTokens : Nat}

theorem getPrefixTokenIds_of_le (h : numTokens ≤ data.length)
    : data.getPrefixTokenIds numTokens
        = .ok (data.promptTokenIds.take numTokens,
            data.outputTokenIds.take (numTokens - data.getPromptLen)) := by
  unfold length at h
  unfold getPrefixTokenIds sliceTo getPromptLen
  dsimp only
  split
  . next hlt =>
    rw [if_pos (by omega), List.take_of_length_le hlt.le]
    rfl
  . next hge =>
    rw [if_pos (by omega), Nat.sub_eq_zero_of_le (by omega), List.take_zero]
    rfl

/--
Past the end of the sequence the slice of the output panics.
-/
theorem getPrefixTokenIds_of_lt (h : data.length < numTokens)
    : data.getPrefixTokenIds numTokens
        = .error (.panic "range end index out of range for slice") := by
  unfold length at h
  unfold getPrefixTokenIds sliceTo getPromptLen
  dsimp only
  rw [if_pos (by omega), if_neg (by omega)]
  rfl

theorem hasPrefix_iff (data : SequenceData) (numTokens : Nat)
    : data.HasPrefix numTokens ↔ numTokens ≤ data.length := by
  constructor
  . rintro ⟨promptPrefix, outputPrefix, hok, -⟩
    by_contra hlt
    rw [getPrefixTokenIds_of_lt (by omega)] at hok
    cases hok
  . intro hle
    refine ⟨_, _, getPrefixTokenIds_of_le hle, rfl, ?_⟩
    rw [Nat.min_eq_left hle, getTokenIds, List.take_append]
    rfl

theorem Agree.length_le (h : Agree numTokens data data') (hle : numTokens ≤ data.length)
    : numTokens ≤ data'.length := by
  have hlength := congrArg List.length h.take_eq
  rw [List.length_take, List.length_take, length_getTokenIds, length_getTokenIds] at hlength
  omega

/--
The same tokens, split at the same place, have the same prefix.
-/
theorem Agree.getPrefixTokenIds_eq (h : Agree numTokens data data') (hle : numTokens ≤ data.length)
    : data'.getPrefixTokenIds numTokens = data.getPrefixTokenIds numTokens := by
  rw [getPrefixTokenIds_of_le hle, getPrefixTokenIds_of_le (h.length_le hle)]
  have htake := h.take_eq
  have hprompt := h.promptLen_eq
  unfold getPromptLen at hprompt ⊢
  rw [getTokenIds, getTokenIds, List.take_append, List.take_append, hprompt] at htake
  rcases List.append_inj htake (by simp [hprompt]) with ⟨hleft, hright⟩
  rw [hprompt, hleft, hright]

end SequenceData

/--
The blocks hold enough tokens to fill the one at `k` and those before it only if it is full.
-/
theorem LogicalTokenBlock.Consecutive.full_iff {blockSize k : Nat} {blocks : List LogicalTokenBlock}
    {block : LogicalTokenBlock} (h : Consecutive blockSize blocks) (hblock : blocks[k]? = some block)
    : block.tokenIds.length = blockSize
        ↔
      blockSize * (k + 1) ≤ (blocks.flatMap (·.tokenIds)).length := by
  rcases List.eq_nil_or_concat blocks with rfl | ⟨init, last, rfl⟩
  . cases hblock
  . rw [List.concat_eq_append] at h hblock ⊢
    have hle := h.last_le last (by simp)
    rw [h.length_flatMap, Nat.mul_comm]
    rcases Nat.lt_or_ge k init.length with hlt | hge
    . rw [List.getElem?_append_left hlt] at hblock
      have hfull := h.full block (by simpa using List.mem_of_getElem? hblock)
      have : (k + 1) * blockSize ≤ init.length * blockSize := Nat.mul_le_mul_right _ hlt
      omega
    . have hk := (List.getElem?_eq_some_iff.mp hblock).1
      rw [List.length_append, List.length_singleton] at hk
      have hk : k = init.length := by omega
      subst hk
      simp only [List.getElem?_concat_length, Option.some.injEq] at hblock
      rw [← hblock, Nat.add_mul, Nat.one_mul]
      omega

namespace Sequence

def numHashedTokensOfBlock (sequence : Sequence) (logicalIdx : Nat) : Nat :=
  sequence.blockSize * (logicalIdx + 1)

section Hash

/-!
`hash` is what a new hasher of the standard library makes of the two lists of tokens.
-/

variable (hash : List Nat × List Nat → UInt64)

def hashOfBlock (sequence : Sequence) (logicalIdx : Nat) : Except SequenceError UInt64 := do
  let numTokens := sequence.numHashedTokensOfBlock logicalIdx
  let hashedTokens ← sequence.sequenceData.getPrefixTokenIds numTokens
  return hash hashedTokens

end Hash

/--
One call of `add_token_id` after the other.
-/
def addTokenIds (sequence : Sequence) (added : List (Nat × LogProbs))
    : Except SequenceError Sequence :=
  added.foldlM (fun sequence entry => sequence.addTokenId entry.1 entry.2) sequence

/--
The logical blocks hold the tokens of the sequence, in order and without gaps.
-/
structure Represents (sequence : Sequence) : Prop where
  flatMap_eq : sequence.logicalTokenBlocks.flatMap (·.tokenIds)
    = sequence.sequenceData.promptTokenIds ++ sequence.sequenceData.outputTokenIds
  full : ∀ block ∈ sequence.logicalTokenBlocks.dropLast,
    block.tokenIds.length = sequence.blockSize
  last : ∀ block ∈ sequence.logicalTokenBlocks.getLast?,
    1 ≤ block.tokenIds.length ∧ block.tokenIds.length ≤ sequence.blockSize
  blockNumber_eq : ∀ (k : Nat) (block : LogicalTokenBlock),
    sequence.logicalTokenBlocks[k]? = some block → block.blockNumber = k
  numTokens_eq : ∀ block ∈ sequence.logicalTokenBlocks, block.numTokens = block.tokenIds.length
  numBlocks_eq : sequence.getNumTotalLogicalTokenBlocks = sequence.length ⌈/⌉ sequence.blockSize

/--
A sequence as it is created and as tokens are added. Its counters and its status may change.
-/
inductive Built : Sequence → Prop where
  | new {sequence : Sequence} (prompt : String) (promptTokenIds : List Nat) (blockSize : Nat)
      (returnFullText : Bool)
      (h : Sequence.new prompt promptTokenIds blockSize returnFullText = .ok sequence)
    : Built sequence
  | addTokenId {sequence sequence' : Sequence} (tokenId : Nat) (logprobs : LogProbs)
      (hbuilt : Built sequence) (h : sequence.addTokenId tokenId logprobs = .ok sequence')
    : Built sequence'
  | keep {sequence sequence' : Sequence} (hbuilt : Built sequence)
      (h : sequence.KeepsTokens sequence')
    : Built sequence'

variable {sequence sequence' : Sequence}

theorem Stores.represents (h : sequence.Stores sequence.sequenceData.getTokenIds)
    : sequence.Represents := by
  have hconsecutive := h.consecutive
  refine ⟨h.flatMap_eq, hconsecutive.full, ?_, ?_, hconsecutive.numTokens_eq, ?_⟩
  . intro block hblock
    exact ⟨List.length_pos_of_ne_nil (h.last_ne_nil block hblock),
      hconsecutive.last_le block hblock⟩
  . intro k block hblock
    have hnumber := congrArg (·[k]?) hconsecutive.blockNumber_eq
    have hlt := (List.getElem?_eq_some_iff.mp hblock).1
    rw [List.getElem?_map, hblock, List.getElem?_range hlt] at hnumber
    exact Option.some.inj hnumber
  . rw [h.getNumTotalLogicalTokenBlocks_eq, SequenceData.length_getTokenIds]
    rfl

theorem stores_of_addTokenId {tokenId : Nat} {logprobs : LogProbs}
    (hok : sequence.addTokenId tokenId logprobs = .ok sequence')
    (h : sequence.Stores sequence.sequenceData.getTokenIds)
    : sequence'.Stores sequence'.sequenceData.getTokenIds := by
  unfold addTokenId at hok
  split at hok
  . cases hok
    exact h
  . split at hok
    . cases hok
    . next appended happend =>
      cases hok
      rcases of_appendTokensToBlocks happend h with ⟨blocks, rfl, hconsecutive, hflat, hlast⟩
      refine ⟨hconsecutive, ?_, hlast⟩
      simpa [SequenceData.getTokenIds, SequenceData.addTokenId] using hflat

theorem Built.stores (h : Built sequence) : sequence.Stores sequence.sequenceData.getTokenIds := by
  induction h with
  | new prompt promptTokenIds blockSize returnFullText h =>
    rcases of_new h with ⟨-, hdata, -, hstores⟩
    rw [hdata]
    simpa [SequenceData.getTokenIds, SequenceData.new] using hstores
  | addTokenId tokenId logprobs hbuilt h ih => exact stores_of_addTokenId h ih
  | keep hbuilt h ih =>
    rw [h.getTokenIds_eq]
    exact h.stores ih

/--
A token with a log-probability is added, whatever tokens there are.
-/
theorem exists_addTokenId_of_mem {tokenId : Nat} {logprobs : LogProbs}
    (h : sequence.Stores sequence.sequenceData.getTokenIds) (hsize : 1 ≤ sequence.blockSize)
    (hmem : tokenId ∈ logprobs)
    : ∃ sequence',
        sequence.addTokenId tokenId logprobs = .ok sequence'
          ∧ sequence'.blockSize = sequence.blockSize
          ∧ sequence'.sequenceData.promptTokenIds = sequence.sequenceData.promptTokenIds
          ∧ sequence'.sequenceData.outputTokenIds
              = sequence.sequenceData.outputTokenIds ++ [tokenId] := by
  rcases Option.isSome_iff_exists.mp (AList.lookup_isSome.mpr hmem) with ⟨logprob, hlookup⟩
  rcases appendTokensToBlocks_spec [tokenId] h hsize with ⟨blocks, happend, -⟩
  unfold addTokenId
  rw [hlookup, happend]
  exact ⟨_, rfl, rfl, rfl, rfl⟩

theorem exists_addTokenIds {added : List (Nat × LogProbs)}
    (h : sequence.Stores sequence.sequenceData.getTokenIds) (hsize : 1 ≤ sequence.blockSize)
    (hadded : ∀ entry ∈ added, entry.1 ∈ entry.2)
    : ∃ sequence',
        sequence.addTokenIds added = .ok sequence'
          ∧ sequence'.Stores sequence'.sequenceData.getTokenIds
          ∧ sequence'.blockSize = sequence.blockSize
          ∧ sequence'.sequenceData.promptTokenIds = sequence.sequenceData.promptTokenIds
          ∧ sequence'.sequenceData.outputTokenIds
              = sequence.sequenceData.outputTokenIds ++ added.map (·.1) := by
  induction added generalizing sequence with
  | nil => exact ⟨sequence, rfl, h, rfl, rfl, by simp⟩
  | cons entry added ih =>
    rcases exists_addTokenId_of_mem h hsize (hadded entry List.mem_cons_self)
      with ⟨next, hok, hsize', hprompt, houtput⟩
    rcases ih (stores_of_addTokenId hok h) (by rwa [hsize'])
      (fun entry hentry => hadded entry (List.mem_cons_of_mem _ hentry))
      with ⟨sequence', hrest, hstores, hsize'', hprompt', houtput'⟩
    refine ⟨sequence', ?_, hstores, hsize''.trans hsize', hprompt'.trans hprompt, ?_⟩
    . unfold addTokenIds at hrest ⊢
      rw [List.foldlM_cons, hok]
      exact hrest
    . rw [houtput', houtput, List.map_cons, List.append_assoc, List.singleton_append]

theorem exists_new (prompt : String) (promptTokenIds : List Nat) {blockSize : Nat}
    (returnFullText : Bool) (hsize : 1 ≤ blockSize)
    : ∃ created, Sequence.new prompt promptTokenIds blockSize returnFullText = .ok created := by
  let am : Sequence := {
    prompt
    sequenceData := SequenceData.new promptTokenIds []
    blockSize
    logicalTokenBlocks := []
    outputText := if returnFullText then prompt else ""
    outputLogprobs := []
    sequenceStatus := .waiting
    stopReason := none
    tokens := []
  }
  rcases appendTokensToBlocks_spec promptTokenIds (Stores.nil am rfl) hsize with ⟨blocks, hok, -⟩
  exact ⟨_, hok⟩

/--
A sequence is created, and tokens with log-probabilities are added, without an error. The logical
blocks represent the tokens.
-/
theorem exists_represents (prompt : String) (promptTokenIds : List Nat) (blockSize : Nat)
    (returnFullText : Bool) (added : List (Nat × LogProbs)) (hsize : 1 ≤ blockSize)
    (hadded : ∀ entry ∈ added, entry.1 ∈ entry.2)
    : ∃ created sequence,
        Sequence.new prompt promptTokenIds blockSize returnFullText = .ok created
          ∧ created.addTokenIds added = .ok sequence
          ∧ sequence.blockSize = blockSize
          ∧ sequence.sequenceData.promptTokenIds = promptTokenIds
          ∧ sequence.sequenceData.outputTokenIds = added.map (·.1)
          ∧ sequence.Represents := by
  rcases exists_new prompt promptTokenIds returnFullText hsize with ⟨created, hnew⟩
  rcases of_new hnew with ⟨hcreated, hdata, -, -⟩
  rcases exists_addTokenIds (Built.new prompt promptTokenIds blockSize returnFullText hnew).stores
    (by rwa [hcreated]) hadded with ⟨sequence, hok, hstores, hsize', hprompt, houtput⟩
  refine ⟨created, sequence, hnew, hok, hsize'.trans hcreated, ?_, ?_, hstores.represents⟩
  . rw [hprompt, hdata]
    rfl
  . rw [houtput, hdata]
    rfl

/--
Three prompt tokens and two more in blocks of four.
-/
theorem exists_represents_five_tokens
    : (1 : Nat) ≤ 4
        ∧ (∀ entry ∈ [(8, (∅ : LogProbs).insert 8 ⟨0, none, none⟩),
            (9, (∅ : LogProbs).insert 9 ⟨0, none, none⟩)], entry.1 ∈ entry.2)
        ∧ ∃ created sequence,
            Sequence.new "" [5, 6, 7] 4 false = .ok created
              ∧ created.addTokenIds [(8, (∅ : LogProbs).insert 8 ⟨0, none, none⟩),
                  (9, (∅ : LogProbs).insert 9 ⟨0, none, none⟩)] = .ok sequence
              ∧ sequence.blockSize = 4
              ∧ sequence.sequenceData.promptTokenIds = [5, 6, 7]
              ∧ sequence.sequenceData.outputTokenIds = [8, 9]
              ∧ sequence.Represents := by
  have hadded : ∀ entry ∈ [(8, (∅ : LogProbs).insert 8 ⟨0, none, none⟩),
      (9, (∅ : LogProbs).insert 9 ⟨0, none, none⟩)], entry.1 ∈ entry.2 := by
    decide
  exact ⟨by decide, hadded, exists_represents "" [5, 6, 7] 4 false _ (by decide) hadded⟩

section Hash

variable {hash : List Nat × List Nat → UInt64} {logicalIdx : Nat} {block : LogicalTokenBlock}

/--
The block has a hash, and every sequence with the same prompt length that has the tokens up to the
end of the block in common has the same one.
-/
def HasHash (hash : List Nat × List Nat → UInt64) (sequence : Sequence) (logicalIdx : Nat) : Prop :=
  ∃ value,
    sequence.hashOfBlock hash logicalIdx = .ok value
      ∧ ∀ sequence', Built sequence' → sequence'.blockSize = sequence.blockSize →
          SequenceData.Agree (sequence.numHashedTokensOfBlock logicalIdx) sequence.sequenceData
            sequence'.sequenceData →
          sequence'.hashOfBlock hash logicalIdx = .ok value

/--
A block is full exactly when the sequence has the tokens up to its end.
-/
theorem Built.isFull_iff (h : Built sequence)
    (hblock : sequence.logicalTokenBlocks[logicalIdx]? = some block)
    : block.isFull = true ↔ sequence.numHashedTokensOfBlock logicalIdx ≤ sequence.length := by
  have hstores := h.stores
  have hmem := List.mem_of_getElem? hblock
  have hlength : sequence.length
      = (sequence.logicalTokenBlocks.flatMap (·.tokenIds)).length := by
    rw [hstores.flatMap_eq, SequenceData.length_getTokenIds]
    rfl
  unfold LogicalTokenBlock.isFull
  rw [decide_eq_true_eq, hstores.consecutive.numTokens_eq block hmem,
    hstores.consecutive.blockSize_eq block hmem, hstores.consecutive.full_iff hblock, hlength]
  rfl

theorem hashOfBlock_of_getPrefixTokenIds {prefixTokenIds : List Nat × List Nat}
    (h : sequence.sequenceData.getPrefixTokenIds (sequence.numHashedTokensOfBlock logicalIdx)
      = .ok prefixTokenIds)
    : sequence.hashOfBlock hash logicalIdx = .ok (hash prefixTokenIds) := by
  unfold hashOfBlock
  dsimp only
  rw [h]
  rfl

theorem hasHash_iff (h : Built sequence)
    (hblock : sequence.logicalTokenBlocks[logicalIdx]? = some block)
    : sequence.HasHash hash logicalIdx ↔ block.isFull = true := by
  rw [h.isFull_iff hblock]
  constructor
  . rintro ⟨value, hok, -⟩
    by_contra hlt
    unfold hashOfBlock at hok
    dsimp only at hok
    rw [SequenceData.getPrefixTokenIds_of_lt (not_le.mp hlt)] at hok
    cases hok
  . intro hle
    have hslice := SequenceData.getPrefixTokenIds_of_le hle
    refine ⟨_, hashOfBlock_of_getPrefixTokenIds hslice, ?_⟩
    intro sequence' _ hsize hagree
    apply hashOfBlock_of_getPrefixTokenIds
    have hsame : sequence'.numHashedTokensOfBlock logicalIdx
        = sequence.numHashedTokensOfBlock logicalIdx := by
      unfold numHashedTokensOfBlock
      rw [hsize]
    rw [hsame, hagree.getPrefixTokenIds_eq hle]
    exact hslice

/--
A prefix is defined up to the length of the sequence only, and a hash for full blocks only.
-/
theorem hasPrefix_and_hasHash_iff (hash : List Nat × List Nat → UInt64)
    : (∀ (data : SequenceData) (numTokens : Nat),
        data.HasPrefix numTokens ↔ numTokens ≤ data.length)
      ∧ ∀ (sequence : Sequence) (logicalIdx : Nat) (block : LogicalTokenBlock), Built sequence →
          sequence.logicalTokenBlocks[logicalIdx]? = some block →
            (sequence.HasHash hash logicalIdx ↔ block.isFull = true) :=
  ⟨SequenceData.hasPrefix_iff, fun _ _ _ h hblock => hasHash_iff h hblock⟩

/--
A sequence whose only block has room for one more token.
-/
def partlyFilled : Sequence where
  prompt := ""
  sequenceData := SequenceData.new [5, 6, 7] []
  blockSize := 4
  logicalTokenBlocks := [⟨0, 4, [5, 6, 7], 3⟩]
  outputText := ""
  outputLogprobs := []
  sequenceStatus := .waiting
  stopReason := none
  tokens := []

/--
The example of the source, which asks for ten of six tokens, panics. So does the hash of a block
with three tokens of four.
-/
theorem not_hasPrefix_and_not_hasHash
    : ¬ (SequenceData.new [1, 2, 3] [4, 5, 6]).HasPrefix 10
        ∧ Sequence.new "" [5, 6, 7] 4 false = .ok partlyFilled
        ∧ ∀ hash : List Nat × List Nat → UInt64, ¬ partlyFilled.HasHash hash 0 := by
  refine ⟨?_, by decide, ?_⟩
  . rintro ⟨promptPrefix, outputPrefix, hok, -⟩
    rw [SequenceData.getPrefixTokenIds_of_lt (by decide)] at hok
    cases hok
  . rintro hash ⟨value, hok, -⟩
    have hpanic : partlyFilled.hashOfBlock hash 0
        = .error (.panic "range end index out of range for slice") := rfl
    rw [hpanic] at hok
    cases hok

theorem hasPrefix_and_hasHash_iff_partlyFilled
    : Built partlyFilled
        ∧ partlyFilled.logicalTokenBlocks[0]? = some ⟨0, 4, [5, 6, 7], 3⟩
        ∧ (partlyFilled.HasHash (fun _ => 0) 0
            ↔ LogicalTokenBlock.isFull ⟨0, 4, [5, 6, 7], 3⟩ = true) := by
  have hbuilt : Built partlyFilled := .new "" [5, 6, 7] 4 false (by decide)
  exact ⟨hbuilt, rfl, (hasPrefix_and_hasHash_iff fun _ => 0).2 partlyFilled 0 _ hbuilt rfl⟩

end Hash

end Sequence

end AtomaInfer
