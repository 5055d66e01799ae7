import Mathlib.Data.List.AList
import Mathlib.Data.Rat.Defs
import AtomaInfer.Block.Basic

/-!
Sequences and their data (`sequence.rs`). Log-probabilities are exact rationals: the rounding of
`f32` is not modelled.
-/

namespace AtomaInfer

structure LogProb where
  logprob : ℚ
  rank : Option Nat
  decodedToken : Option String
  deriving DecidableEq

abbrev LogProbs := AList fun _ : Nat => LogProb

inductive SequenceStatus where
  | waiting
  | running
  | swapped
  | finishedStopped
  | finishedLengthCapped
  | finishedAborted
  | finishedIgnored
  deriving DecidableEq, Repr

namespace SequenceStatus

def isFinished (status : SequenceStatus) : Bool :=
  match status with
  | finishedAborted | finishedIgnored | finishedLengthCapped | finishedStopped => true
  | waiting | running | swapped => false

def finishedReason (status : SequenceStatus) : Option String :=
  match status with
  | finishedAborted => some "aborted"
  | finishedIgnored => some "ignored"
  | finishedLengthCapped => some "length_capped"
  | finishedStopped => some "stopped"
  | waiting | running | swapped => none

end SequenceStatus

inductive SequenceStage where
  | prefill
  | decode
  deriving DecidableEq, Repr

/--
The errors of the source, and `panic` for what makes it panic or run for ever: an overflowing
subtraction, a failed `unwrap`, a loop that makes no progress.
-/
inductive SequenceError where
  | invalidNumberGeneratedTokens
  | missingSequence (sequenceId : Nat)
  | constructorError (message : String)
  | blockError (error : BlockError)
  | panic (message : String)
  deriving DecidableEq, Repr

structure SequenceData where
  promptTokenIds : List Nat
  outputTokenIds : List Nat
  cumulativeLogprob : ℚ
  numComputedTokens : Nat
  stage : SequenceStage
  deriving DecidableEq

namespace SequenceData

def new (promptTokenIds outputTokenIds : List Nat) : SequenceData where
  promptTokenIds
  outputTokenIds
  cumulativeLogprob := 0
  numComputedTokens := 0
  stage := .prefill

def addTokenId (data : SequenceData) (tokenId : Nat) (logprob : ℚ) : SequenceData :=
  {
    data with
    outputTokenIds := data.outputTokenIds ++ [tokenId]
    cumulativeLogprob := data.cumulativeLogprob + logprob
  }

def length (data : SequenceData) : Nat :=
  data.promptTokenIds.length + data.outputTokenIds.length

def getPromptLen (data : SequenceData) : Nat :=
  data.promptTokenIds.length

def getOutputLen (data : SequenceData) : Nat :=
  data.outputTokenIds.length

def getTokenIds (data : SequenceData) : List Nat :=
  data.promptTokenIds ++ data.outputTokenIds

/--
`none` where the subtraction of the source overflows.
-/
def getNumUncomputedTokens (data : SequenceData) : Option Nat :=
  if data.numComputedTokens ≤ data.length then
    some (data.length - data.numComputedTokens)
  else
    none

def updateNumComputedTokens (numNewComputedTokens : Nat) : EStateM SequenceError SequenceData Unit := do
  modify fun data =>
    { data with numComputedTokens := data.numComputedTokens + numNewComputedTokens }
  let data ← get
  if data.numComputedTokens ≤ data.length then
    if data.getNumUncomputedTokens = some 0 then
      set { data with stage := .decode }
  else
    throw .invalidNumberGeneratedTokens

def resetStateForRecompute (data : SequenceData) : SequenceData :=
  { data with numComputedTokens := 0, stage := .prefill }

def getLastTokenId (data : SequenceData) : Option Nat :=
  if data.outputTokenIds.isEmpty then
    data.promptTokenIds.getLast?
  else
    data.outputTokenIds.getLast?

end SequenceData

/--
The identifier of a sequence never changes, so it is a part of the reference to the sequence and
not of the sequence.
-/
structure Sequence where
  prompt : String
  sequenceData : SequenceData
  blockSize : Nat
  logicalTokenBlocks : List LogicalTokenBlock
  outputText : String
  outputLogprobs : List LogProbs
  sequenceStatus : SequenceStatus
  stopReason : Option Nat
  tokens : List String
  deriving DecidableEq

namespace Sequence

def appendLogicalBlock (sequence : Sequence) : Sequence :=
  let block := LogicalTokenBlock.new sequence.logicalTokenBlocks.length sequence.blockSize
  { sequence with logicalTokenBlocks := sequence.logicalTokenBlocks ++ [block] }

def isLastBlockFull (sequence : Sequence) : Bool :=
  match sequence.logicalTokenBlocks.getLast? with
  | some block => block.isFull
  | none => false

/--
`tokenIds` are the tokens from the cursor of the source on. A block size of zero makes its loop run
for ever, so the iterations are bounded by the number of tokens.
-/
def appendTokensToBlocks (sequence : Sequence) (tokenIds : List Nat)
    : Except SequenceError Sequence :=
  go tokenIds.length sequence tokenIds
where
  go (iterations : Nat) (sequence : Sequence) (tokenIds : List Nat)
      : Except SequenceError Sequence :=
    match tokenIds, iterations with
    | [], _ => .ok sequence
    | _ :: _, 0 => .error (.panic "no progress")
    | tokenIds@(_ :: _), iterations + 1 =>
      let sequence :=
        if sequence.logicalTokenBlocks.isEmpty then sequence.appendLogicalBlock else sequence
      let sequence :=
        if sequence.isLastBlockFull then sequence.appendLogicalBlock else sequence
      match sequence.logicalTokenBlocks.getLast? with
      | none => .error (.panic "unwrap")
      | some lastBlock =>
        let numEmptySlots := lastBlock.getNumEmptySlots
        match lastBlock.appendTokens (tokenIds.take numEmptySlots) with
        | .error e => .error (.blockError e)
        | .ok lastBlock =>
          let logicalTokenBlocks := sequence.logicalTokenBlocks.dropLast ++ [lastBlock]
          go iterations { sequence with logicalTokenBlocks } (tokenIds.drop numEmptySlots)

def new (prompt : String) (promptTokenIds : List Nat) (blockSize : Nat) (returnFullText : Bool)
    : Except SequenceError Sequence :=
  let am : Sequence := {
    prompt
    sequenceData := SequenceData.new promptTokenIds []
    blockSize
    logicalTokenBlocks := []
    outputText := if returnFullText then prompt else ""
    outputLogprobs := []
    sequenceStatus := .waiting
    stopReason := none
    tokens := []
  }
  am.appendTokensToBlocks promptTokenIds

def getNumTotalLogicalTokenBlocks (sequence : Sequence) : Nat :=
  sequence.logicalTokenBlocks.length

def addTokenId (sequence : Sequence) (tokenId : Nat) (logprobs : LogProbs)
    : Except SequenceError Sequence :=
  match logprobs.lookup tokenId with
  | none => .ok sequence
  | some logprob =>
    match sequence.appendTokensToBlocks [tokenId] with
    | .error e => .error e
    | .ok sequence =>
      .ok {
        sequence with
        sequenceData := sequence.sequenceData.addTokenId tokenId logprob.logprob
        outputLogprobs := sequence.outputLogprobs ++ [logprobs]
      }

def length (sequence : Sequence) : Nat :=
  sequence.sequenceData.length

def getOutputLen (sequence : Sequence) : Nat :=
  sequence.sequenceData.getOutputLen

def isFinished (sequence : Sequence) : Bool :=
  sequence.sequenceStatus.isFinished

def setSequenceStatus (sequence : Sequence) (sequenceStatus : SequenceStatus) : Sequence :=
  { sequence with sequenceStatus }

def resetStateForRecompute (sequence : Sequence) : Sequence :=
  { sequence with sequenceData := sequence.sequenceData.resetStateForRecompute }

def getNumNewTokens (sequence : Sequence) : Option Nat :=
  if sequence.sequenceData.stage = .decode then
    some 1
  else
    sequence.sequenceData.getNumUncomputedTokens

def isPrefill (sequence : Sequence) : Bool :=
  sequence.sequenceData.stage = .prefill

end Sequence

end AtomaInfer
