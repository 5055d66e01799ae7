import AtomaInfer.Engine.Impl

/-!
The streamer of the server (`stream.rs`): it turns the messages of the engine into server-sent
events (`chat_completions.rs`).
-/

namespace AtomaInfer

/--
The crates that JSON values and server-sent events are taken from. `data` is `none` for a text that
makes it panic: one with a carriage return.
-/
structure EventFormat (Value Event Error ChatCompletionChunk : Type) where
  toValue : List LogProbs → Except String Value
  jsonData : ChatCompletionChunk → Except Error Event
  data : String → Option Event
  newError : String → Error

structure ToolCallFunction (Value : Type) where
  name : String
  arguments : Value

structure ToolCall (Value : Type) where
  id : String
  type : String
  function : ToolCallFunction Value

structure Usage where
  promptTokens : UInt32
  completionTokens : UInt32
  totalTokens : UInt32

structure Delta (Value : Type) where
  role : String
  content : Option String
  refusal : Option String
  toolCalls : List (ToolCall Value)

structure StreamChoice (Value : Type) where
  index : UInt32
  delta : Delta Value
  logprobs : Option Value
  finishReason : Option String

structure ChatCompletionChunk (Value : Type) where
  id : String
  object : String
  created : Nat
  model : String
  systemFingerprint : String
  choices : List (StreamChoice Value)
  usage : Usage

variable {Value Event Error : Type}

namespace ChatCompletionChunk

variable (format : EventFormat Value Event Error (ChatCompletionChunk Value))

def tryFrom (model : String) (value : GenerateStreamingOutput)
    : Except String (ChatCompletionChunk Value) := do
  let id := value.requestId
  let created := value.created
  let usage : Usage := {
    promptTokens := value.numPromptTokens.toUInt32
    completionTokens := value.numCompletionTokens.toUInt32
    totalTokens := value.numPromptTokens.toUInt32 + value.numCompletionTokens.toUInt32
  }
  let logprobs ← (format.toValue value.logprobs).mapError fun e =>
    "Failed to convert logprobs to JSON: " ++ e
  let choices : List (StreamChoice Value) := [{
    index := 0
    delta := {
      role := "assistant"
      content := some value.outputText
      refusal := none
      toolCalls := []
    }
    logprobs := some logprobs
    finishReason := value.finishReason
  }]
  return {
    id
    object := "chat.completion.chunk"
    created
    model
    systemFingerprint := "vllm"
    choices
    usage
  }

/--
The text that a client reads in a chunk.
-/
def content (chunk : ChatCompletionChunk Value) : String :=
  String.join (chunk.choices.filterMap (·.delta.content))

theorem content_of_tryFrom {model : String} {value : GenerateStreamingOutput}
    {chunk : ChatCompletionChunk Value} (h : tryFrom format model value = .ok chunk)
    : chunk.content = value.outputText := by
  unfold tryFrom at h
  cases hvalue : format.toValue value.logprobs with
  | error e =>
    rw [hvalue] at h
    cases h
  | ok logprobs =>
    rw [hvalue] at h
    cases h
    simp [content]

end ChatCompletionChunk

inductive TryRecvError where
  | empty
  | disconnected
  deriving DecidableEq

/--
The receiving side of the channel of a stream: the messages that wait, and whether all senders are
gone.
-/
structure StreamReceiver where
  queue : List StreamResponse
  disconnected : Bool

def StreamReceiver.tryRecv (receiver : StreamReceiver)
    : Except TryRecvError StreamResponse × StreamReceiver :=
  match receiver.queue with
  | response :: queue => (.ok response, { receiver with queue })
  | [] => (.error (if receiver.disconnected then .disconnected else .empty), receiver)

inductive StreamStatus where
  | notStarted
  | started
  | completed
  | failed (error : String)
  | interrupted (reason : String)
  deriving DecidableEq

structure Streamer where
  receiver : StreamReceiver
  status : StreamStatus
  model : String

inductive Poll (α : Type) where
  | ready (value : α)
  | pending

namespace Streamer

def new (receiver : StreamReceiver) (model : String) : Streamer where
  receiver
  status := .notStarted
  model

variable (format : EventFormat Value Event Error (ChatCompletionChunk Value))

/--
`none` where the source panics.
-/
def pollNext (streamer : Streamer) : Option (Poll (Option (Except Error Event))) × Streamer :=
  if streamer.status = .completed then
    (some (.ready none), streamer)
  else
    let (received, receiver) := streamer.receiver.tryRecv
    let streamer := { streamer with receiver }
    match received with
    | .ok (.chunk chunk) =>
      let streamer :=
        if streamer.status ≠ .started then { streamer with status := .started } else streamer
      match ChatCompletionChunk.tryFrom format streamer.model chunk with
      | .ok response => (some (.ready (some (format.jsonData response))), streamer)
      | .error e => (some (.ready (some (.error (format.newError e)))), streamer)
    | .ok .finished =>
      (
        (format.data "[DONE]").map fun event => .ready (some (.ok event)),
        { streamer with status := .completed }
      )
    | .ok (.error error) =>
      (
        (format.data error).map fun event => .ready (some (.ok event)),
        { streamer with status := .failed error }
      )
    | .error error =>
      if streamer.status = .started ∧ error = .disconnected then
        (
          some (.ready none),
          { streamer with status := .interrupted "Stream disconnected" }
        )
      else
        (some .pending, streamer)

end Streamer

end AtomaInfer
