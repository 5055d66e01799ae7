import AtomaInfer.Sequence.Basic

/-!
Sequence groups (`sequence.rs`). The sequences of a group are shared behind `Arc`s by every copy of
the group, so a group holds references and the sequences live in a `SequenceHeap`. The order of
`sequences` is the order in which the hash map of the source is iterated.
-/

namespace AtomaInfer

/--
`addr` tells two sequences apart that were given the same identifier.
-/
structure SequenceRef where
  sequenceId : Nat
  addr : Nat
  deriving DecidableEq, Repr

abbrev SequenceHeap := SequenceRef → Sequence

structure NextTokenChooserParameters where
  n : Nat
  bestOf : Nat
  temperature : ℚ
  topK : Nat
  topP : ℚ
  doSample : Bool
  randomSeed : Nat
  repetitionPenalty : ℚ
  repeatLastN : Nat
  deriving DecidableEq

structure StoppingCriteriaParameters where
  maxNewTokens : Nat
  stopSequences : List String
  ignoreEosToken : Bool
  deriving DecidableEq

inductive Sampling where
  | argMax
  | all (temperature : ℚ)
  | topK (k : Nat) (temperature : ℚ)
  | topP (p temperature : ℚ)
  | topKThenTopP (k : Nat) (p temperature : ℚ)
  deriving DecidableEq

/--
What a logits processor is created from. The state of its generator is not a part of the group.
-/
structure LogitsProcessor where
  seed : Nat
  sampling : Sampling
  deriving DecidableEq

structure SequenceGroup where
  requestId : String
  sequences : List SequenceRef
  arrivalTime : Nat
  nextTokenChooserParams : NextTokenChooserParameters
  stoppingCriteria : StoppingCriteriaParameters
  logitsProcessor : LogitsProcessor
  deriving DecidableEq

namespace SequenceGroup

/--
The sequences were created before and are in the heap at `sequences`.
-/
def new (requestId : String) (sequences : List SequenceRef) (arrivalTime : Nat)
    (nextTokenChooserParams : NextTokenChooserParameters)
    (stoppingCriteria : StoppingCriteriaParameters) (logitsProcessor : LogitsProcessor)
    : Except SequenceError SequenceGroup :=
  if sequences.isEmpty then
    .error (.constructorError "Empty vector of `Sequence`s")
  else
    .ok {
      requestId
      sequences
      arrivalTime
      nextTokenChooserParams
      stoppingCriteria
      logitsProcessor
    }

variable (group : SequenceGroup) (heap : SequenceHeap)

def getSeqs (status : SequenceStatus) : List SequenceRef :=
  group.sequences.filter fun seq => (heap seq).sequenceStatus = status

def getSequencesIds (status : SequenceStatus) : List Nat :=
  (group.getSeqs heap status).map (·.sequenceId)

def getFirstSequence (status : SequenceStatus) : Option SequenceRef :=
  group.sequences.find? fun seq => (heap seq).sequenceStatus = status

def getSequenceFromId (sequenceId : Nat) : Option SequenceRef :=
  group.sequences.find? fun seq => seq.sequenceId = sequenceId

def getUnfinishedSequences : List SequenceRef :=
  group.sequences.filter fun seq => !(heap seq).isFinished

def numUnfinishedSequences : Nat :=
  (group.getUnfinishedSequences heap).length

def getNumSequences (status : SequenceStatus) : Nat :=
  (group.getSeqs heap status).length

def getMaxNumRunningSeqs : Nat :=
  if 1 < group.nextTokenChooserParams.bestOf then
    group.nextTokenChooserParams.bestOf
  else
    group.numUnfinishedSequences heap

def getNumTotalLogicalTokenBlocks (status : SequenceStatus) : Option Nat :=
  (group.getFirstSequence heap status).map fun seq => (heap seq).getNumTotalLogicalTokenBlocks

def isPrefill : Bool :=
  match group.sequences.head? with
  | some seq => (heap seq).isPrefill
  | none => false

def isFinished : Bool :=
  group.sequences.all fun seq => (heap seq).isFinished

/--
Set the status of the sequences of the group for which `p` holds.
-/
def setStatusWhere (p : SequenceRef → Bool) (status : SequenceStatus) : SequenceHeap :=
  group.sequences.foldl
    (fun heap seq =>
      if p seq then Function.update heap seq ((heap seq).setSequenceStatus status) else heap)
    heap

def updateNumComputedTokens (numNewComputedTokens : Nat) : EStateM SequenceError SequenceHeap Unit :=
  group.sequences.forM fun seq => do
    let sequence := (← get) seq
    if !sequence.isFinished then
      match (SequenceData.updateNumComputedTokens numNewComputedTokens).run sequence.sequenceData with
      | .ok () sequenceData =>
        modify fun heap => Function.update heap seq { sequence with sequenceData }
      | .error e sequenceData =>
        modify fun heap => Function.update heap seq { sequence with sequenceData }
        throw e

end SequenceGroup

end AtomaInfer
