import Mathlib.Algebra.Order.Ring.Rat
import Mathlib.Data.Finset.Basic
import Mathlib.Data.List.Sort
import AtomaInfer.BlockManager.Impl

/-!
The configuration of the scheduler (`config.rs`), its policy (`policy.rs`), and the budget and the
outputs of one scheduling pass (`scheduler.rs`). An `Instant` is a natural number, and a
subtraction of instants saturates.
-/

namespace AtomaInfer

inductive SchedulerConfigError where
  | failedVerifySchedulerConfig (message : String)
  deriving DecidableEq, Repr

structure SchedulerConfig where
  maxNumBatchedTokens : Nat
  maxNumSequences : Nat
  maxModelLen : Nat
  delayFactor : ℚ
  enableChunkedPrefill : Bool
  deriving DecidableEq

namespace SchedulerConfig

def verifyArgs (config : SchedulerConfig) : Except SchedulerConfigError Unit :=
  if config.maxNumBatchedTokens < config.maxModelLen ∧ !config.enableChunkedPrefill then
    .error <| .failedVerifySchedulerConfig <|
      s!"`max_num_batched_tokens` ({config.maxNumBatchedTokens}) is smaller than `max_model_len` ({config.maxModelLen}). \n"
        ++ "                 This effectively limits the maximum sequence length to `max_num_batched_tokens` and makes the scheduler reject longer sequences. \n"
        ++ "                 Please increase `max_num_batched_tokens` or decrease `max_sequence_length`."
  else if config.maxNumBatchedTokens < config.maxNumSequences then
    .error <| .failedVerifySchedulerConfig
      s!"max_num_batched_tokens ({config.maxNumBatchedTokens}) must be greater than or equal to max_num_sequences ({config.maxNumSequences})."
  else
    .ok ()

def new (maxNumBatchedTokens maxNumSequences maxModelLen : Nat) (delayFactor : ℚ)
    (enableChunkedPrefill : Bool) : Except SchedulerConfigError SchedulerConfig := do
  let this : SchedulerConfig := {
    maxNumBatchedTokens
    maxNumSequences
    maxModelLen
    delayFactor
    enableChunkedPrefill
  }
  this.verifyArgs
  return this

theorem le_of_verifyArgs {config : SchedulerConfig} (h : config.verifyArgs = .ok ())
    : (config.enableChunkedPrefill = false → config.maxModelLen ≤ config.maxNumBatchedTokens)
        ∧ config.maxNumSequences ≤ config.maxNumBatchedTokens := by
  unfold verifyArgs at h
  split at h
  . cases h
  . next hlen =>
    split at h
    . cases h
    . next hseqs =>
      constructor
      . intro hchunked
        simp only [hchunked, Bool.not_false, and_true] at hlen
        omega
      . omega

end SchedulerConfig

namespace FcfsPolicy

def getPriority (now : Nat) (group : SequenceGroup) : Nat :=
  now - group.arrivalTime

def sortByPriority (now : Nat) (groups : List SequenceGroup) : List SequenceGroup :=
  groups.insertionSort fun v₁ v₂ => getPriority now v₂ ≤ getPriority now v₁

theorem sortByPriority_perm (now : Nat) (groups : List SequenceGroup)
    : (sortByPriority now groups).Perm groups :=
  List.perm_insertionSort _ groups

end FcfsPolicy

/--
The errors of the source, and `panic` for what makes it panic: an overflowing subtraction or a
failed `unwrap`.
-/
inductive SchedulerError where
  | blockSpaceManagerError (error : BlockSpaceManagerError)
  | emptyScheduling
  | zeroNewTokensToSchedule
  | invalidNumberSequencesForRecompute (numSequences : Nat)
  | notEnoughBlockSpaceForSwapOut
  | invalidNumberWaitingSequence (requestId : String) (numSequences : Nat)
  | invalidNumberOfNewTokens (numPromptTokens numNewTokens : Nat)
  | invalidNumberBudgetTokens (message : String)
  | invalidNumberBudgetSequences (message : String)
  | chunkedPrefillsNotAllowed (message : String)
  | invalidPrefillSequences (message : String)
  | panic (message : String)
  deriving DecidableEq, Repr

inductive PreemptionMode where
  | swap
  | recomputation
  deriving DecidableEq, Repr

structure SchedulingBudget where
  tokenBudget : Nat
  maxNumSequences : Nat
  requestIdsNumBatchedTokens : Finset String
  requestIdsNumCurrSeqs : Finset String
  numBatchedTokens : Nat
  numCurrSeqs : Nat
  deriving DecidableEq

namespace SchedulingBudget

def new (tokenBudget maxNumSequences : Nat) : SchedulingBudget where
  tokenBudget
  maxNumSequences
  requestIdsNumBatchedTokens := ∅
  requestIdsNumCurrSeqs := ∅
  numBatchedTokens := 0
  numCurrSeqs := 0

variable (budget : SchedulingBudget)

def canSchedule (numNewTokens numNewSequences : Nat) : Except SchedulerError Bool :=
  if numNewSequences = 0 ∨ numNewTokens = 0 then
    .error .emptyScheduling
  else
    .ok <|
      budget.numBatchedTokens + numNewTokens ≤ budget.tokenBudget
        && budget.numCurrSeqs + numNewSequences ≤ budget.maxNumSequences

def remainingBudgetTokens : Except SchedulerError Nat :=
  if budget.numBatchedTokens ≤ budget.tokenBudget then
    .ok (budget.tokenBudget - budget.numBatchedTokens)
  else
    .error (.panic "attempt to subtract with overflow")

def addNumBatchedTokens (requestId : String) (numBatchedTokens : Nat) : SchedulingBudget :=
  if requestId ∈ budget.requestIdsNumBatchedTokens then
    budget
  else
    {
      budget with
      requestIdsNumBatchedTokens := insert requestId budget.requestIdsNumBatchedTokens
      numBatchedTokens := budget.numBatchedTokens + numBatchedTokens
    }

def subtractNumBatchedTokens (requestId : String) (numBatchedTokens : Nat)
    : Except SchedulerError SchedulingBudget :=
  if requestId ∈ budget.requestIdsNumBatchedTokens then
    if numBatchedTokens ≤ budget.numBatchedTokens then
      .ok {
        budget with
        requestIdsNumBatchedTokens := budget.requestIdsNumBatchedTokens.erase requestId
        numBatchedTokens := budget.numBatchedTokens - numBatchedTokens
      }
    else
      .error (.panic "attempt to subtract with overflow")
  else
    .ok budget

def addNumberSequences (requestId : String) (numCurrentSequences : Nat) : SchedulingBudget :=
  if requestId ∈ budget.requestIdsNumCurrSeqs then
    budget
  else
    {
      budget with
      requestIdsNumCurrSeqs := insert requestId budget.requestIdsNumCurrSeqs
      numCurrSeqs := budget.numCurrSeqs + numCurrentSequences
    }

def subtractsNumberSequences (requestId : String) (numCurrentSequences : Nat)
    : Except SchedulerError SchedulingBudget :=
  if requestId ∈ budget.requestIdsNumCurrSeqs then
    if numCurrentSequences ≤ budget.numCurrSeqs then
      .ok {
        budget with
        requestIdsNumCurrSeqs := budget.requestIdsNumCurrSeqs.erase requestId
        numCurrSeqs := budget.numCurrSeqs - numCurrentSequences
      }
    else
      .error (.panic "attempt to subtract with overflow")
  else
    .ok budget

end SchedulingBudget

structure ScheduledSequenceGroup where
  scheduledGroup : SequenceGroup
  tokenChunkSize : Nat
  deriving DecidableEq

/--
A mapping from block numbers to block numbers.
-/
abbrev BlockMapping := AList fun _ : Nat => Nat

structure SchedulerRunningOutputs where
  decodeSeqGroups : List ScheduledSequenceGroup
  prefillSeqGroups : List ScheduledSequenceGroup
  preempted : List SequenceGroup
  swappedOut : List SequenceGroup
  blocksToSwapOut : BlockMapping
  blocksToCopy : BlockMapping

def SchedulerRunningOutputs.createEmpty : SchedulerRunningOutputs where
  decodeSeqGroups := []
  prefillSeqGroups := []
  preempted := []
  swappedOut := []
  blocksToSwapOut := ∅
  blocksToCopy := ∅

/--
A group in its prefill phase gets `numTokens` tokens, one in its decoding phase one token.
-/
def SchedulerRunningOutputs.addScheduled (outputs : SchedulerRunningOutputs) (isPrefill : Bool)
    (group : SequenceGroup) (numTokens : Nat) : SchedulerRunningOutputs :=
  if isPrefill then
    {
      outputs with
      prefillSeqGroups :=
        outputs.prefillSeqGroups ++ [{ scheduledGroup := group, tokenChunkSize := numTokens }]
    }
  else
    {
      outputs with
      decodeSeqGroups :=
        outputs.decodeSeqGroups ++ [{ scheduledGroup := group, tokenChunkSize := 1 }]
    }

structure SchedulerSwappedInOutputs where
  decodeSeqGroups : List ScheduledSequenceGroup
  prefillSeqGroups : List ScheduledSequenceGroup
  blocksToSwapIn : BlockMapping
  blocksToCopy : BlockMapping
  infeasibleSeqGroups : List SequenceGroup

def SchedulerSwappedInOutputs.createEmpty : SchedulerSwappedInOutputs where
  decodeSeqGroups := []
  prefillSeqGroups := []
  blocksToSwapIn := ∅
  blocksToCopy := ∅
  infeasibleSeqGroups := []

/--
A group in its prefill phase gets `numTokens` tokens, one in its decoding phase one token.
-/
def SchedulerSwappedInOutputs.addScheduled (outputs : SchedulerSwappedInOutputs) (isPrefill : Bool)
    (group : SequenceGroup) (numTokens : Nat) : SchedulerSwappedInOutputs :=
  if isPrefill then
    {
      outputs with
      prefillSeqGroups :=
        outputs.prefillSeqGroups ++ [{ scheduledGroup := group, tokenChunkSize := numTokens }]
    }
  else
    {
      outputs with
      decodeSeqGroups :=
        outputs.decodeSeqGroups ++ [{ scheduledGroup := group, tokenChunkSize := 1 }]
    }

structure SchedulerPrefillOutputs where
  sequenceGroups : List ScheduledSequenceGroup
  ignoredSequenceGroups : List SequenceGroup

def SchedulerPrefillOutputs.createEmpty : SchedulerPrefillOutputs where
  sequenceGroups := []
  ignoredSequenceGroups := []

structure SchedulerOutputs where
  scheduledSequenceGroups : List ScheduledSequenceGroup
  numberPrefillGroups : Nat
  numBatchedTokens : Nat
  blocksToSwapIn : BlockMapping
  blocksToSwapOut : BlockMapping
  blocksToCopy : BlockMapping
  ignoredSeqGroups : List SequenceGroup
  runningQueueSize : Nat
  preempted : Nat

namespace SchedulerOutputs

def createEmpty : SchedulerOutputs where
  scheduledSequenceGroups := []
  numberPrefillGroups := 0
  numBatchedTokens := 0
  blocksToSwapIn := ∅
  blocksToSwapOut := ∅
  blocksToCopy := ∅
  ignoredSeqGroups := []
  runningQueueSize := 0
  preempted := 0

def isEmpty (outputs : SchedulerOutputs) : Bool :=
  outputs.scheduledSequenceGroups.isEmpty
    && outputs.blocksToSwapIn.entries.isEmpty
    && outputs.blocksToSwapOut.entries.isEmpty
    && outputs.blocksToCopy.entries.isEmpty

end SchedulerOutputs

structure SequenceGroupMetadata where
  requestId : String
  isPrompt : Bool
  nextTokenChooserParams : NextTokenChooserParameters
  stoppingCriteriaParams : StoppingCriteriaParameters
  blockTables : AList fun _ : Nat => List Nat
  doSample : Bool
  tokenChunkSize : Nat
  sequenceData : AList fun _ : Nat => SequenceData
  logitsProcessor : LogitsProcessor

end AtomaInfer
