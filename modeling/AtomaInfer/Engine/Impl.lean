import AtomaInfer.Scheduler.Impl

/-!
The engine (`llm_engine.rs`): it hands arriving groups over to the scheduler, sends batches to the
model executor and brings the sequences up to date with the outputs.

A response channel is a number, and `sent` lists what was sent so far. Sending fails when the
receiving side is `disconnected`. The metrics of the groups are left out.
-/

namespace AtomaInfer

structure SequenceOutput where
  parentSequenceId : Nat
  outputToken : Nat
  logprob : LogProbs
  isStopToken : Bool
  deriving DecidableEq

structure SequenceGroupOutput where
  outputs : AList fun _ : Nat => SequenceOutput
  deriving DecidableEq

structure ExecuteModelRequest where
  sequenceGroupsMetadata : List SequenceGroupMetadata
  blocksToSwapIn : BlockMapping
  blocksToSwapOut : BlockMapping
  blocksToCopy : BlockMapping
  runningQueueSize : Nat

structure InferenceOutput where
  index : Nat
  outputText : String
  tokenIds : List Nat
  cumulativeLogprob : ℚ
  logprobs : List LogProbs
  finishReason : Option String
  stopReason : Option Nat
  deriving DecidableEq

structure GenerateRequestOutput where
  requestId : String
  prompt : String
  inferenceOutputs : List InferenceOutput
  promptTokenIds : List Nat
  isFinished : Bool
  deriving DecidableEq

structure GenerateStreamingOutput where
  requestId : String
  created : Nat
  finishReason : Option String
  logprobs : List LogProbs
  numPromptTokens : Nat
  numCompletionTokens : Nat
  outputText : String
  deriving DecidableEq

inductive StreamResponse where
  | chunk (output : GenerateStreamingOutput)
  | error (message : String)
  | finished
  deriving DecidableEq

/--
The errors of the source, and `panic` for a slice that is out of range.
-/
inductive EngineError where
  | flumeSendError (message : String)
  | schedulerError (error : SchedulerError)
  | sequenceError (error : SequenceError)
  | missingSequenceOutputToken (sequenceId : Nat)
  | tokenizerError (message : String)
  | sendResponseError (requestId : String)
  | panic (message : String)
  deriving DecidableEq

abbrev Channel := Nat

/--
What is sent to a client: the only message of a oneshot channel, or one of those of a stream.
-/
inductive Message where
  | response (output : GenerateRequestOutput)
  | streaming (response : StreamResponse)
  deriving DecidableEq

inductive EngineRequest where
  | generateRequest (sequenceGroup : SequenceGroup) (responseSender : Channel)
  | generateStreamingRequest (sequenceGroup : SequenceGroup) (responseSender : Channel)
  deriving DecidableEq

def EngineRequest.sequenceGroup (request : EngineRequest) : SequenceGroup :=
  match request with
  | generateRequest sequenceGroup _ | generateStreamingRequest sequenceGroup _ => sequenceGroup

def EngineRequest.responseSender (request : EngineRequest) : Channel :=
  match request with
  | generateRequest _ responseSender | generateStreamingRequest _ responseSender => responseSender

/--
A request that the model executor has not answered, with the outputs of the scheduler that it was
made from. The receiver of the source does not hold them.
-/
structure Receiver where
  request : ExecuteModelRequest
  schedulerOutputs : SchedulerOutputs

structure LlmEngine where
  responses : List Receiver
  responseSenders : AList fun _ : String => Channel
  responseStreamingSenders : AList fun _ : String => Channel
  sequenceGroupsMetadata : List SequenceGroupMetadata
  schedulerOutputs : SchedulerOutputs
  scheduler : Scheduler
  tokenizer : List Nat → Except String String
  disconnected : List Channel
  sent : List (Channel × Message)

namespace GenerateRequestOutput

variable (heap : SequenceHeap)

/--
The sequences of a group that are returned. Those of a group with several are sorted by their
probability.
-/
def topNSequences (group : SequenceGroup) : Except EngineError (List SequenceRef) :=
  match group.sequences with
  | [seq] => .ok [seq]
  | sequences =>
    let sorted := sequences.insertionSort fun s₁ s₂ =>
      (heap s₁).sequenceData.cumulativeLogprob ≤ (heap s₂).sequenceData.cumulativeLogprob
    let n := group.nextTokenChooserParams.n
    if n ≤ sorted.length then
      .ok (sorted.take n)
    else
      .error (.panic "range end index out of range for slice")

def inferenceOutput (index : Nat) (sequence : Sequence) : InferenceOutput where
  index
  outputText := sequence.outputText
  tokenIds := sequence.sequenceData.getTokenIds
  cumulativeLogprob := sequence.sequenceData.cumulativeLogprob
  logprobs := sequence.outputLogprobs
  finishReason := sequence.sequenceStatus.finishedReason
  stopReason := sequence.stopReason

def fromSequenceGroup (group : SequenceGroup) : Except EngineError GenerateRequestOutput := do
  let topNSequences ← topNSequences heap group
  let first := group.sequences.head?.map heap
  return {
    requestId := group.requestId
    prompt := (first.map (·.prompt)).getD ""
    inferenceOutputs := topNSequences.mapIdx fun i seq => inferenceOutput i (heap seq)
    promptTokenIds := (first.map (·.sequenceData.promptTokenIds)).getD []
    isFinished := group.isFinished heap
  }

end GenerateRequestOutput

/--
The text that the last token adds: what `generatedText` has after the text known before.
-/
def Sequence.generatedToken (sequence : Sequence) (generatedText : String) : String :=
  let start :=
    if sequence.tokens.getLast?.isSome then sequence.outputText.length else sequence.prompt.length
  String.ofList (generatedText.toList.drop start)

namespace LlmEngine

def new (scheduler : Scheduler) (tokenizer : List Nat → Except String String) : LlmEngine where
  responses := []
  responseSenders := ∅
  responseStreamingSenders := ∅
  sequenceGroupsMetadata := []
  schedulerOutputs := SchedulerOutputs.createEmpty
  scheduler
  tokenizer
  disconnected := []
  sent := []

variable (engine : LlmEngine)

/--
Send `response` to the client of `requestId`, if that is a streaming request.
-/
def sendStreaming (requestId : String) (response : StreamResponse) : Except EngineError LlmEngine :=
  match engine.responseStreamingSenders.lookup requestId with
  | none => .ok engine
  | some responseSender =>
    if responseSender ∈ engine.disconnected then
      .error (.flumeSendError "sending on a closed channel")
    else
      .ok { engine with sent := engine.sent ++ [(responseSender, .streaming response)] }

/--
The branch of a stopping condition: the stream ends and the sequence gets a finished status.
-/
def finishIf (condition : Bool) (requestId : String) (status : SequenceStatus)
    (sequence : Sequence) : Except EngineError (Sequence × LlmEngine) := do
  if condition then
    let engine ← engine.sendStreaming requestId .finished
    return (sequence.setSequenceStatus status, engine)
  else
    return (sequence, engine)

def writeSequence (seq : SequenceRef) (sequence : Sequence) : LlmEngine :=
  {
    engine with
    scheduler.memory.sequences :=
      Function.update engine.scheduler.memory.sequences seq sequence
  }

/--
`created` is the time at which the chunk for the client is made.
-/
def updateSequence (created : Nat) (seq : SequenceRef) (sequenceOutput : SequenceOutput)
    (sequenceGroupMetadata : SequenceGroupMetadata)
    (stoppingCriteriaParams : StoppingCriteriaParameters) : Except EngineError LlmEngine := do
  let sequence := engine.scheduler.memory.sequences seq
  let generatedTokenId := sequenceOutput.outputToken
  let requestId := sequenceGroupMetadata.requestId
  if sequenceGroupMetadata.doSample then
    let sequence ←
      (sequence.addTokenId generatedTokenId sequenceOutput.logprob).mapError .sequenceError
    let generatedText ←
      (engine.tokenizer sequence.sequenceData.getTokenIds).mapError .tokenizerError
    let engine ← engine.sendStreaming requestId <| .chunk {
      requestId
      created
      finishReason := none
      logprobs := sequence.outputLogprobs
      numPromptTokens := sequence.sequenceData.promptTokenIds.length
      numCompletionTokens := sequence.tokens.length
      outputText := generatedText
    }
    let generatedToken := sequence.generatedToken generatedText
    let sequence := { sequence with outputText := sequence.outputText ++ generatedToken }
    let isStopSequence := decide (generatedToken ∈ stoppingCriteriaParams.stopSequences)
    let sequence :=
      if isStopSequence then { sequence with stopReason := some generatedTokenId } else sequence
    let (sequence, engine) ← engine.finishIf isStopSequence requestId .finishedStopped sequence
    let (sequence, engine) ← engine.finishIf
      (sequenceOutput.isStopToken && !stoppingCriteriaParams.ignoreEosToken) requestId
      .finishedStopped sequence
    let (sequence, engine) ← engine.finishIf
      (engine.scheduler.schedulerConfig.maxModelLen < sequence.length) requestId
      .finishedLengthCapped sequence
    let (sequence, engine) ← engine.finishIf
      (stoppingCriteriaParams.maxNewTokens ≤ sequence.getOutputLen) requestId
      .finishedLengthCapped sequence
    return engine.writeSequence seq { sequence with tokens := sequence.tokens ++ [generatedToken] }
  else
    return engine.writeSequence seq
      { sequence with outputLogprobs := sequence.outputLogprobs ++ [sequenceOutput.logprob] }

def updateNumComputedTokens (group : SequenceGroup) (numNewComputedTokens : Nat)
    : Except EngineError LlmEngine :=
  match (group.updateNumComputedTokens numNewComputedTokens).run engine.scheduler.memory.sequences
  with
  | .ok () sequences => .ok { engine with scheduler.memory.sequences := sequences }
  | .error e _ => .error (.sequenceError e)

/--
The body of the loop of `process_generated_outputs`.
-/
def processOutput (created : SequenceRef → Nat) (output : SequenceGroupOutput)
    (sequenceGroupMetadata : SequenceGroupMetadata) (scheduled : ScheduledSequenceGroup)
    : Except EngineError LlmEngine := do
  let group := scheduled.scheduledGroup
  let engine ← engine.updateNumComputedTokens group scheduled.tokenChunkSize
  group.sequences.foldlM
    (fun engine seq =>
      match output.outputs.lookup seq.sequenceId with
      | none => .error (.missingSequenceOutputToken seq.sequenceId)
      | some sequenceOutput =>
        updateSequence engine (created seq) seq sequenceOutput sequenceGroupMetadata
          group.stoppingCriteria)
    engine

/--
The outputs of the groups of the batch that are finished.
-/
def requestOutputs : Except EngineError (List GenerateRequestOutput) :=
  let finished := engine.schedulerOutputs.scheduledSequenceGroups.filter fun scheduled =>
    scheduled.scheduledGroup.isFinished engine.scheduler.memory.sequences
  finished.mapM fun scheduled =>
    GenerateRequestOutput.fromSequenceGroup engine.scheduler.memory.sequences
      scheduled.scheduledGroup

def processGeneratedOutputs (created : SequenceRef → Nat) (outputs : List SequenceGroupOutput)
    : Except EngineError (List GenerateRequestOutput × LlmEngine) := do
  let batch := outputs.zip <|
    engine.sequenceGroupsMetadata.zip engine.schedulerOutputs.scheduledSequenceGroups
  let engine ← batch.foldlM
    (fun engine (output, metadata, scheduled) =>
      processOutput engine created output metadata scheduled)
    engine
  let engine := { engine with scheduler := engine.scheduler.removeFinishedSequences }
  let requestOutputs ← engine.requestOutputs
  return (requestOutputs, engine)

/--
`send` of the dispatcher: the request goes to the workers, and the receiver of its response is kept.
-/
def send (request : ExecuteModelRequest) : LlmEngine :=
  {
    engine with
    responses := engine.responses ++ [{ request, schedulerOutputs := engine.schedulerOutputs }]
  }

def step (instants : Instants) : Except EngineError LlmEngine := do
  let (sequenceGroupsMetadata, schedulerOutputs, scheduler) ←
    (engine.scheduler.schedule instants).mapError .schedulerError
  let engine := { engine with sequenceGroupsMetadata, schedulerOutputs, scheduler }
  if schedulerOutputs.isEmpty then
    return engine
  else
    return engine.send {
      sequenceGroupsMetadata
      blocksToSwapIn := schedulerOutputs.blocksToSwapIn
      blocksToSwapOut := schedulerOutputs.blocksToSwapOut
      blocksToCopy := schedulerOutputs.blocksToCopy
      runningQueueSize := schedulerOutputs.runningQueueSize
    }

/--
Send the output of a finished request to its client. A streaming request has no sender here.
-/
def sendResponse (output : GenerateRequestOutput) : Except EngineError LlmEngine :=
  match engine.responseSenders.lookup output.requestId with
  | none => .ok engine
  | some responseSender =>
    if responseSender ∈ engine.disconnected then
      .error (.sendResponseError output.requestId)
    else
      .ok {
        engine with
        responseSenders := engine.responseSenders.erase output.requestId
        sent := engine.sent ++ [(responseSender, .response output)]
      }

/--
`none` is the error of a response that the model executor never sends.
-/
def handleOutputs (created : SequenceRef → Nat) (instants : Instants)
    (outputs : Option (List SequenceGroupOutput)) : Except EngineError LlmEngine := do
  match outputs with
  | some outputs =>
    let (requestOutputs, engine) ← engine.processGeneratedOutputs created outputs
    let engine ← engine.step instants
    requestOutputs.foldlM (fun engine output => sendResponse engine output) engine
  | none => engine.step instants

/--
The request goes to the scheduler and its sender to the map of its kind.
-/
def addRequest (request : EngineRequest) : LlmEngine :=
  match request with
  | .generateRequest sequenceGroup responseSender =>
    {
      engine with
      scheduler := engine.scheduler.addSequenceGroup sequenceGroup
      responseSenders := engine.responseSenders.insert sequenceGroup.requestId responseSender
    }
  | .generateStreamingRequest sequenceGroup responseSender =>
    {
      engine with
      scheduler := engine.scheduler.addSequenceGroup sequenceGroup
      responseStreamingSenders :=
        engine.responseStreamingSenders.insert sequenceGroup.requestId responseSender
    }

/--
There are no on-going scheduled groups.
-/
def isIdle : Bool :=
  engine.sequenceGroupsMetadata.isEmpty && engine.schedulerOutputs.isEmpty

/--
The branch of `run` for a new request.
-/
def handleRequest (instants : Instants) (request : EngineRequest) : Except EngineError LlmEngine :=
  let engine := engine.addRequest request
  if engine.isIdle then
    engine.step instants
  else
    .ok engine

end LlmEngine

end AtomaInfer
