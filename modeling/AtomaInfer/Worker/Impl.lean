import AtomaInfer.Attention.Metadata
import AtomaInfer.Engine.Impl

/-!
The worker (`worker.rs`) up to the forward pass, and the sampling of the model executor
(`model_executor.rs`) after it.

Lengths that go to the kernels are cut to 32 bits, and the source
sums them up in single precision, which is exact below 2^24; here the sums are exact. A debug build
is modelled: a failed `debug_assert` panics.
-/

namespace AtomaInfer

inductive ModelWorkerError where
  | candleError (error : CandleError)
  | emptyPrompt (message : String)
  | panic (message : String)
  deriving DecidableEq

structure ModelInput where
  inputTokens : List Nat
  inputPositions : List Nat
  attentionMetadata : FlashAttentionMetadata
  numDecodeTokens : Nat
  numPrefills : Nat
  cuQueryLengths : List Nat

/--
What of the worker `prepare_input_tensors` reads: the block size of the cache engine and the sliding
window of the model.
-/
structure ModelWorker where
  blockSize : Nat
  slidingWindow : Option Nat
  enableChunkedPrefill : Bool

namespace ModelWorker

def padSlotId : Int := -1

/--
The local variables of `prepare_input_tensors`.
-/
structure InputVars where
  inputTokens : List Nat
  inputPositions : List Nat
  slotMapping : List Int
  sequenceLengths : List Nat
  prefillSequenceLengths : List Nat
  decodeSequenceLengths : List Nat
  contextLengths : List Nat
  queryLengths : List Nat
  blockTables : List (List Nat)
  numPrefills : Nat
  numPrefillTokens : Nat
  numDecodeTokens : Nat

def InputVars.start : InputVars where
  inputTokens := []
  inputPositions := []
  slotMapping := []
  sequenceLengths := []
  prefillSequenceLengths := []
  decodeSequenceLengths := []
  contextLengths := []
  queryLengths := []
  blockTables := []
  numPrefills := 0
  numPrefillTokens := 0
  numDecodeTokens := 0

def contextLength (isPrompt : Bool) (data : SequenceData) : Except ModelWorkerError Nat :=
  if isPrompt then
    .ok data.numComputedTokens
  else if data.length = 0 then
    .error (.panic "attempt to subtract with overflow")
  else
    .ok (data.length - 1)

/--
The tokens of the sequence that the batch computes.
-/
def sequenceTokens (isPrompt : Bool) (data : SequenceData) (contextLength sequenceLength : Nat)
    : Except ModelWorkerError (List Nat) :=
  if isPrompt then
    if contextLength ≤ sequenceLength then
      .ok ((data.getTokenIds.take sequenceLength).drop contextLength)
    else
      .error (.panic "slice index starts past its end")
  else
    match data.getLastTokenId with
    | none => .error (.emptyPrompt "Empty prompts should not be received in `ModelWorker`")
    | some lastTokenId => .ok [lastTokenId]

variable (worker : ModelWorker)

/--
The block table that the kernels get. With a sliding window it is trimmed.
-/
def kernelBlockTable (metadata : SequenceGroupMetadata) (sequenceId : Nat)
    : Except ModelWorkerError (List Nat) :=
  if worker.enableChunkedPrefill || !metadata.isPrompt then
    match metadata.blockTables.lookup sequenceId with
    | none =>
      .error (.panic "Block table should be allocated for sequence on decoding phase")
    | some blockTable =>
      match worker.slidingWindow with
      | none => .ok blockTable
      | some slidingWindow =>
        if worker.blockSize = 0 then
          .error (.panic "attempt to divide by zero")
        else
          let swBlockNum := (slidingWindow + worker.blockSize - 1) / worker.blockSize
          .ok (blockTable.drop (blockTable.length - swBlockNum))
  else
    .ok []

def slot (blockTable : List Nat) (startIndex i : Nat) : Except ModelWorkerError Int :=
  if i < startIndex then
    .ok padSlotId
  else if worker.blockSize = 0 then
    .error (.panic "attempt to divide by zero")
  else
    match blockTable[i / worker.blockSize]? with
    | none => .error (.panic "index out of bounds")
    | some blockNumber => .ok ((blockNumber * worker.blockSize + i % worker.blockSize : Nat) : Int)

/--
The slots of the tokens between the two lengths. During memory profiling there are no block tables.
-/
def slots (metadata : SequenceGroupMetadata) (sequenceId contextLength sequenceLength queryLength : Nat)
    : Except ModelWorkerError (List Int) :=
  if metadata.blockTables.entries.isEmpty then
    .ok (List.replicate sequenceLength padSlotId)
  else
    match metadata.blockTables.lookup sequenceId with
    | none => .error (.panic "Block table should exist for a sequence on decoding phase")
    | some blockTable =>
      let startIndex :=
        match worker.slidingWindow with
        | none => 0
        | some slidingWindow => queryLength - slidingWindow
      (List.range' contextLength (sequenceLength - contextLength)).mapM
        (worker.slot blockTable startIndex)

/--
The body of the loop, for one sequence of a group.
-/
def prepareSequence (metadata : SequenceGroupMetadata) (vars : InputVars)
    (entry : Sigma fun _ : Nat => SequenceData) : Except ModelWorkerError InputVars := do
  let sequenceId := entry.1
  let data := entry.2
  let isPrompt := metadata.isPrompt
  let contextLength ← contextLength isPrompt data
  let sequenceLength := min data.length (contextLength + metadata.tokenChunkSize)
  let tokens ← sequenceTokens isPrompt data contextLength sequenceLength
  let queryLength := if isPrompt then sequenceLength - contextLength else 1
  let slidingSequenceLength :=
    match worker.slidingWindow with
    | none => sequenceLength
    | some slidingWindow => if isPrompt then sequenceLength else min slidingWindow sequenceLength
  let blockTable ← worker.kernelBlockTable metadata sequenceId
  if isPrompt && metadata.sequenceData.entries.length ≠ 1 then
    throw (.panic "Prompt should have only one sequence ID")
  let slots ← worker.slots metadata sequenceId contextLength sequenceLength queryLength
  return {
    inputTokens := vars.inputTokens ++ tokens
    inputPositions :=
      vars.inputPositions ++ List.range' contextLength (sequenceLength - contextLength)
    slotMapping := vars.slotMapping ++ slots
    sequenceLengths := vars.sequenceLengths ++ [slidingSequenceLength % 2 ^ 32]
    prefillSequenceLengths :=
      if isPrompt then vars.prefillSequenceLengths ++ [sequenceLength]
      else vars.prefillSequenceLengths
    decodeSequenceLengths :=
      if isPrompt then vars.decodeSequenceLengths
      else vars.decodeSequenceLengths ++ [slidingSequenceLength]
    contextLengths := vars.contextLengths ++ [contextLength % 2 ^ 32]
    queryLengths := vars.queryLengths ++ [queryLength % 2 ^ 32]
    blockTables := vars.blockTables ++ [blockTable]
    numPrefills := if isPrompt then vars.numPrefills + 1 else vars.numPrefills
    numPrefillTokens :=
      if isPrompt then vars.numPrefillTokens + tokens.length else vars.numPrefillTokens
    numDecodeTokens := if isPrompt then vars.numDecodeTokens else vars.numDecodeTokens + queryLength
  }

def prepareGroup (vars : InputVars) (metadata : SequenceGroupMetadata)
    : Except ModelWorkerError InputVars :=
  metadata.sequenceData.entries.foldlM (worker.prepareSequence metadata) vars

def maximum (lengths : List Nat) : Nat :=
  lengths.max?.getD 0

/--
Zero followed by the sums of the initial segments.
-/
def cumulative (lengths : List Nat) : List Nat :=
  (lengths.scanl (· + ·) 0)

def makeTensorWithPad (x : List (List Nat)) (maxLength pad : Nat) : List (List Nat) :=
  x.map fun row => row ++ List.replicate (maxLength - row.length) pad

def prepareInputTensors (sequenceGroupsMetadata : List SequenceGroupMetadata)
    : Except ModelWorkerError ModelInput := do
  let vars ← sequenceGroupsMetadata.foldlM worker.prepareGroup InputVars.start
  match (vars.blockTables.map (·.length)).max? with
  | none => throw (.panic "called `Option::unwrap()` on a `None` value")
  | some maxBlockTableLen =>
    let queryStartLoc := cumulative vars.queryLengths
    let attentionMetadata ←
      (FlashAttentionMetadata.new
        vars.contextLengths
        vars.slotMapping
        queryStartLoc
        vars.numPrefillTokens
        vars.numDecodeTokens
        (maximum vars.queryLengths)
        (maximum vars.decodeSequenceLengths)
        (maximum vars.prefillSequenceLengths)
        vars.numPrefills
        (cumulative vars.sequenceLengths)
        vars.sequenceLengths
        (makeTensorWithPad vars.blockTables maxBlockTableLen 0)
        false).mapError .candleError
    return {
      inputTokens := vars.inputTokens
      inputPositions := vars.inputPositions
      numDecodeTokens := vars.numDecodeTokens
      numPrefills := vars.numPrefills
      cuQueryLengths := queryStartLoc
      attentionMetadata
    }

/--
The positions in the input of the tokens whose logits are computed, one for each sequence.
-/
def computeSelectedTokenIndices (cumulativeQueryLengths : List Nat)
    : Except ModelWorkerError (List Nat) :=
  cumulativeQueryLengths.tail.mapM fun location =>
    if location = 0 then
      .error (.panic "attempt to subtract with overflow")
    else
      .ok (location - 1)

end ModelWorker

namespace ModelExecutor

/--
What is sampled from a row of the logits.
-/
structure NextToken where
  token : Nat
  logprob : ℚ
  isStopToken : Bool

def sequenceOutput (sequenceId : Nat) (next : NextToken) : SequenceOutput where
  parentSequenceId := sequenceId
  outputToken := next.token
  logprob := AList.singleton next.token
    { logprob := next.logprob, rank := some 1, decodedToken := none }
  isStopToken := next.isStopToken

/--
The outputs for one group, and the index of the next row of the logits.
-/
def sampleGroup (next : Nat → NextToken) (logitsIdx : Nat) (metadata : SequenceGroupMetadata)
    : SequenceGroupOutput × Nat :=
  metadata.sequenceData.entries.foldl
    (fun (output, logitsIdx) entry =>
      (
        { outputs := output.outputs.insert entry.1 (sequenceOutput entry.1 (next logitsIdx)) },
        logitsIdx + 1
      ))
    ({ outputs := ∅ }, logitsIdx)

/--
`next` is the token that is sampled from each row of the logits, which has a row for each sequence.
-/
def sample (next : Nat → NextToken) (sequenceGroupsMetadata : List SequenceGroupMetadata)
    : List SequenceGroupOutput :=
  (sequenceGroupsMetadata.foldl
    (fun (outputs, logitsIdx) metadata =>
      let (output, logitsIdx) := sampleGroup next logitsIdx metadata
      (outputs ++ [output], logitsIdx))
    ([], 0)).1

end ModelExecutor

end AtomaInfer
