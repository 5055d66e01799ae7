/-!
The metadata of the flash attention and the kernels that its forward pass calls
(`flash_attention.rs`). A tensor is the list of its rows.
-/

namespace AtomaInfer

/--
`msg` is an error of the source; the others are raised by the tensor library.
-/
inductive CandleError where
  | msg (message : String)
  | narrowInvalidArgs
  | unexpectedDType
  | panic (message : String)
  deriving DecidableEq

section Rows

variable {α : Type} (tensor : List α) (n : Nat)

/--
`tensor.i(..n)`
-/
def rowsTo : Except CandleError (List α) :=
  if n ≤ tensor.length then .ok (tensor.take n) else .error .narrowInvalidArgs

/--
`tensor.i(n..)`
-/
def rowsFrom : Except CandleError (List α) :=
  if n ≤ tensor.length then .ok (tensor.drop n) else .error .narrowInvalidArgs

end Rows

structure FlashAttentionDecodingMetadata where
  blockTables : Option (List (List Nat))
  maxDecodingSequenceLength : Nat
  sequenceLengths : Option (List Nat)

structure FlashAttentionPrefillMetadata where
  blockTables : Option (List (List Nat))
  maxQueryLength : Option Nat
  maxPrefillSequenceLength : Nat
  queryStartLocations : Option (List Nat)
  sequenceStartLocations : Option (List Nat)
  sequenceLengths : Option (List Nat)

structure FlashAttentionMetadata where
  contextLengths : Option (List Nat)
  slotMapping : List Int
  decodingMetadata : Option FlashAttentionDecodingMetadata
  prefillMetadata : Option FlashAttentionPrefillMetadata
  numPrefillTokens : Nat
  numDecodingTokens : Nat

namespace FlashAttentionMetadata

def new (contextLengths : List Nat) (slotMapping : List Int) (queryStartLocations : List Nat)
    (numPrefillTokens numDecodingTokens maxQueryLength maxDecodingSequenceLength
      maxPrefillSequenceLength numPrefillSequences : Nat)
    (sequenceStartLocations sequenceLengths : List Nat) (blockTable : List (List Nat))
    (prefixCaching : Bool) : Except CandleError FlashAttentionMetadata := do
  let prefillBlockTables ←
    if prefixCaching && 0 < numPrefillTokens then
      some <$> rowsTo blockTable numPrefillTokens
    else
      pure none
  let decodingBlockTables ←
    if prefixCaching && 0 < numDecodingTokens then
      some <$> rowsFrom blockTable numPrefillTokens
    else
      pure (some blockTable)
  let prefillMetadata ←
    if 0 < numPrefillTokens then do
      let queryStartLocations ← rowsTo queryStartLocations numPrefillSequences
      let sequenceStartLocations ← rowsTo sequenceStartLocations (numPrefillSequences + 1)
      let sequenceLengths ← rowsTo sequenceLengths numPrefillSequences
      pure <| some {
        blockTables := prefillBlockTables
        maxQueryLength := some maxQueryLength
        maxPrefillSequenceLength
        queryStartLocations := some queryStartLocations
        sequenceStartLocations := some sequenceStartLocations
        sequenceLengths := some sequenceLengths
      }
    else
      pure none
  let decodingMetadata ←
    if 0 < numDecodingTokens then do
      let sequenceLengths ← rowsFrom sequenceLengths numPrefillSequences
      pure <| some {
        blockTables := decodingBlockTables
        maxDecodingSequenceLength
        sequenceLengths := some sequenceLengths
      }
    else
      pure none
  return {
    contextLengths := some contextLengths
    slotMapping
    decodingMetadata
    prefillMetadata
    numPrefillTokens
    numDecodingTokens
  }

theorem new_eq_ok {contextLengths : List Nat} {slotMapping : List Int}
    {queryStartLocations : List Nat}
    {numPrefillTokens numDecodingTokens maxQueryLength maxDecodingSequenceLength
      maxPrefillSequenceLength numPrefillSequences : Nat}
    {sequenceStartLocations sequenceLengths : List Nat} {blockTable : List (List Nat)}
    (hquery : numPrefillSequences ≤ queryStartLocations.length)
    (hstart : numPrefillSequences + 1 ≤ sequenceStartLocations.length)
    (hlengths : numPrefillSequences ≤ sequenceLengths.length)
    : new contextLengths slotMapping queryStartLocations numPrefillTokens numDecodingTokens
          maxQueryLength maxDecodingSequenceLength maxPrefillSequenceLength numPrefillSequences
          sequenceStartLocations sequenceLengths blockTable false
        = .ok {
            contextLengths := some contextLengths
            slotMapping
            decodingMetadata :=
              if 0 < numDecodingTokens then
                some {
                  blockTables := some blockTable
                  maxDecodingSequenceLength
                  sequenceLengths := some (sequenceLengths.drop numPrefillSequences)
                }
              else
                none
            prefillMetadata :=
              if 0 < numPrefillTokens then
                some {
                  blockTables := none
                  maxQueryLength := some maxQueryLength
                  maxPrefillSequenceLength
                  queryStartLocations := some (queryStartLocations.take numPrefillSequences)
                  sequenceStartLocations :=
                    some (sequenceStartLocations.take (numPrefillSequences + 1))
                  sequenceLengths := some (sequenceLengths.take numPrefillSequences)
                }
              else
                none
            numPrefillTokens
            numDecodingTokens
          } := by
  unfold new rowsTo rowsFrom
  rw [if_pos hquery, if_pos hstart, if_pos hlengths, if_pos hlengths]
  by_cases hprefill : 0 < numPrefillTokens <;> by_cases hdecoding : 0 < numDecodingTokens
    <;> simp [hprefill, hdecoding, bind, Except.bind, pure, Except.pure]

end FlashAttentionMetadata

namespace FlashAttention

/--
A call of `flash_attn_varlen`, with the cumulative lengths of the queries and of the keys.
-/
structure VarlenCall where
  seqlensQ : List Nat
  seqlensK : List Nat
  maxSeqlenQ : Nat
  maxSeqlenK : Nat
  causal : Bool
  deriving DecidableEq

/--
A call of `flash_attn_kv_cache_full`.
-/
structure KvCacheCall where
  blockTable : Option (List (List Nat))
  seqlensK : Option (List Nat)
  deriving DecidableEq

/--
The prefill part of `forward`.
-/
def prefillCall (qNumTokens : Nat) (metadata : FlashAttentionPrefillMetadata)
    : Except CandleError VarlenCall :=
  if (metadata.blockTables.map fun blockTables => blockTables.flatten.isEmpty).getD true then
    match metadata.sequenceStartLocations with
    | none =>
      .error (.msg "Missing sequence start locations tensor for prefill inference")
    | some sequenceStartLocations =>
      .ok {
        seqlensQ := sequenceStartLocations
        seqlensK := sequenceStartLocations
        maxSeqlenQ := metadata.maxPrefillSequenceLength
        maxSeqlenK := metadata.maxPrefillSequenceLength
        causal := 1 < qNumTokens
      }
  else
    match metadata.sequenceLengths with
    | none =>
      .error <| .msg
        "Missing sequence lengths tensor for prefill inference, with prefix enabled attention"
    -- the lengths are `u32`, and `to_scalar::<i64>` takes only `i64`
    | some _ => .error .unexpectedDType

/--
The kernels that `forward` calls for a query of `qNumTokens` tokens.
-/
def forward (qNumTokens : Nat) (metadata : FlashAttentionMetadata)
    : Except CandleError (Option VarlenCall × Option KvCacheCall) := do
  let numTokens := metadata.numPrefillTokens + metadata.numDecodingTokens
  if qNumTokens ≠ numTokens then
    throw (.msg s!"query must have number of tokens {numTokens} (got {qNumTokens})")
  let prefill ←
    match metadata.prefillMetadata with
    | none => pure none
    | some prefillMetadata => some <$> prefillCall qNumTokens prefillMetadata
  let decoding := metadata.decodingMetadata.map fun decodingMetadata => {
    blockTable := decodingMetadata.blockTables
    seqlensK := decodingMetadata.sequenceLengths
  }
  return (prefill, decoding)

end FlashAttention

end AtomaInfer
