import AtomaInfer.Util.Json
import AtomaInfer.Server.Impl

/-!
The messages of a conversation and their JSON (`chat_completions.rs`). The structs and enums that
`serde` derives the code for are read from maps only, and a `Value` is read as it is.
-/

namespace AtomaInfer

open Json (DeserializeError asString asArray asObject asOption field fieldOr struct)

structure MessageContentPartImageUrl where
  url : String
  detail : Option String
  deriving DecidableEq

inductive MessageContentPart where
  | text (type : String) (text : String)
  | image (type : String) (imageUrl : MessageContentPartImageUrl)
  deriving DecidableEq

inductive MessageContent where
  | text (text : String)
  | array (parts : List MessageContentPart)
  deriving DecidableEq

/--
A message of a conversation, unlike the messages of the engine.
-/
inductive ChatCompletions.Message (Value : Type) where
  | system (content : Option MessageContent) (name : Option String)
  | user (content : Option MessageContent) (name : Option String)
  | assistant (content : Option MessageContent) (name : Option String) (refusal : Option String)
      (toolCalls : List (ToolCall Value))
  | tool (content : Option MessageContent) (toolCallId : String)

namespace MessageContentPartImageUrl

def serialize (imageUrl : MessageContentPartImageUrl) : Json :=
  struct [
    ("url", some (.string imageUrl.url)),
    ("detail", some ((imageUrl.detail.map .string).getD .null))
  ]

def deserialize (json : Json) : Except DeserializeError MessageContentPartImageUrl := do
  let members ← asObject json
  let url ← field members "url" asString
  let detail ← fieldOr members "detail" (asOption asString) none
  return { url, detail }

theorem deserialize_serialize (imageUrl : MessageContentPartImageUrl)
    : deserialize imageUrl.serialize = .ok imageUrl := by
  rcases imageUrl with ⟨url, detail⟩
  unfold deserialize serialize struct asObject
  simp only [bind, Except.bind]
  rw [Json.field_ofFields (by simp) rfl, Json.fieldOr_ofFields (by simp) rfl]
  cases detail <;> rfl

end MessageContentPartImageUrl

namespace MessageContentPart

def serialize (part : MessageContentPart) : Json :=
  match part with
  | .text type content => struct [("type", some (.string type)), ("text", some (.string content))]
  | .image type imageUrl =>
    struct [("type", some (.string type)), ("image_url", some imageUrl.serialize)]

def deserializeText (json : Json) : Except DeserializeError MessageContentPart := do
  let members ← asObject json
  let type ← field members "type" asString
  let text ← field members "text" asString
  return .text type text

def deserializeImage (json : Json) : Except DeserializeError MessageContentPart := do
  let members ← asObject json
  let type ← field members "type" asString
  let imageUrl ← field members "image_url" MessageContentPartImageUrl.deserialize
  return .image type imageUrl

/--
The first variant that can be read.
-/
def deserialize (json : Json) : Except DeserializeError MessageContentPart :=
  match deserializeText json, deserializeImage json with
  | .ok part, _ => .ok part
  | .error _, .ok part => .ok part
  | .error _, .error _ => .error (.noVariant "MessageContentPart")

theorem deserialize_serialize (part : MessageContentPart)
    : deserialize part.serialize = .ok part := by
  unfold deserialize
  cases part with
  | text type content =>
    have htext : deserializeText (MessageContentPart.text type content).serialize
        = .ok (.text type content) := by
      unfold deserializeText serialize struct asObject
      simp only [bind, Except.bind]
      rw [Json.field_ofFields (by simp) rfl, Json.field_ofFields (by simp) rfl]
      rfl
    rw [htext]
  | image type imageUrl =>
    -- there is no text, so the first variant does not match
    have htext : deserializeText (MessageContentPart.image type imageUrl).serialize
        = .error (.missingField "text") := by
      unfold deserializeText serialize struct asObject
      simp only [bind, Except.bind]
      rw [Json.field_ofFields (by simp) rfl]
      unfold field
      rw [Json.lookup_ofFields (by simp)]
      rfl
    have himage : deserializeImage (MessageContentPart.image type imageUrl).serialize
        = .ok (.image type imageUrl) := by
      unfold deserializeImage serialize struct asObject
      simp only [bind, Except.bind]
      rw [Json.field_ofFields (by simp) rfl, Json.field_ofFields (by simp) rfl,
        MessageContentPartImageUrl.deserialize_serialize]
      rfl
    rw [htext, himage]

end MessageContentPart

namespace MessageContent

def serialize (content : MessageContent) : Json :=
  match content with
  | .text content => .string content
  | .array parts => .array (parts.map (·.serialize))

def deserialize (json : Json) : Except DeserializeError MessageContent :=
  match json with
  | .string s => .ok (.text s)
  | .array values => (values.mapM MessageContentPart.deserialize).map .array
  | _ => .error (.custom "Expected a string or an array of content parts")

theorem deserialize_serialize (content : MessageContent)
    : deserialize content.serialize = .ok content := by
  cases content with
  | text text => rfl
  | array parts =>
    have hparts := Json.mapM_map_eq_ok MessageContentPart.deserialize_serialize parts
    exact congrArg (Except.map MessageContent.array) hparts

theorem asOption_serialize (content : MessageContent)
    : asOption deserialize content.serialize = .ok (some content) := by
  have hsome : asOption deserialize content.serialize
      = (deserialize content.serialize).map some := by
    cases content <;> rfl
  rw [hsome, deserialize_serialize]
  rfl

end MessageContent

namespace ToolCallFunction

def serialize (function : ToolCallFunction Json) : Json :=
  struct [("name", some (.string function.name)), ("arguments", some function.arguments)]

def deserialize (json : Json) : Except DeserializeError (ToolCallFunction Json) := do
  let members ← asObject json
  let name ← field members "name" asString
  let arguments ← field members "arguments" .ok
  return { name, arguments }

theorem deserialize_serialize (function : ToolCallFunction Json)
    : deserialize function.serialize = .ok function := by
  unfold deserialize serialize struct asObject
  simp only [bind, Except.bind]
  rw [Json.field_ofFields (by simp) rfl, Json.field_ofFields (by simp) rfl]
  rfl

end ToolCallFunction

namespace ToolCall

def serialize (toolCall : ToolCall Json) : Json :=
  struct [
    ("id", some (.string toolCall.id)),
    ("type", some (.string toolCall.type)),
    ("function", some toolCall.function.serialize)
  ]

def deserialize (json : Json) : Except DeserializeError (ToolCall Json) := do
  let members ← asObject json
  let id ← field members "id" asString
  let type ← field members "type" asString
  let function ← field members "function" ToolCallFunction.deserialize
  return { id, type, function }

def deserializeVec (json : Json) : Except DeserializeError (List (ToolCall Json)) := do
  let values ← asArray json
  values.mapM deserialize

theorem deserialize_serialize (toolCall : ToolCall Json)
    : deserialize toolCall.serialize = .ok toolCall := by
  unfold deserialize serialize struct asObject
  simp only [bind, Except.bind]
  rw [Json.field_ofFields (by simp) rfl, Json.field_ofFields (by simp) rfl,
    Json.field_ofFields (by simp) rfl, ToolCallFunction.deserialize_serialize]
  rfl

end ToolCall

namespace ChatCompletions.Message

/--
The tag comes first, then the fields that are not skipped.
-/
def serialize (message : Message Json) : Json :=
  match message with
  | system content name =>
    struct [
      ("role", some (.string "system")),
      ("content", content.map (·.serialize)),
      ("name", name.map .string)
    ]
  | user content name =>
    struct [
      ("role", some (.string "user")),
      ("content", content.map (·.serialize)),
      ("name", name.map .string)
    ]
  | assistant content name refusal toolCalls =>
    struct [
      ("role", some (.string "assistant")),
      ("content", content.map (·.serialize)),
      ("name", name.map .string),
      ("refusal", refusal.map .string),
      ("tool_calls",
        if toolCalls.isEmpty then none else some (.array (toolCalls.map (·.serialize))))
    ]
  | tool content toolCallId =>
    struct [
      ("role", some (.string "tool")),
      ("content", content.map (·.serialize)),
      ("tool_call_id", if toolCallId.isEmpty then none else some (.string toolCallId))
    ]

def deserialize (json : Json) : Except DeserializeError (Message Json) := do
  let members ← asObject json
  let role ← field members "role" asString
  let content := fieldOr members "content" (asOption MessageContent.deserialize) none
  let name := fieldOr members "name" (asOption asString) none
  if role = "system" then
    return .system (← content) (← name)
  else if role = "user" then
    return .user (← content) (← name)
  else if role = "assistant" then
    let refusal := fieldOr members "refusal" (asOption asString) none
    let toolCalls := fieldOr members "tool_calls" ToolCall.deserializeVec []
    return .assistant (← content) (← name) (← refusal) (← toolCalls)
  else if role = "tool" then
    return .tool (← content) (← fieldOr members "tool_call_id" asString "")
  else
    throw (.unknownVariant role)

section Fields

variable {fields : List (String × Option Json)}

theorem fieldOr_content (hnodup : (fields.map (·.1)).Nodup) {content : Option MessageContent}
    (h : fields.lookup "content" = some (content.map (·.serialize)))
    : fieldOr (Json.ofMembers (Json.ofFields fields)) "content"
        (asOption MessageContent.deserialize) none = .ok content := by
  rw [Json.fieldOr_ofFields hnodup h]
  cases content with
  | none => rfl
  | some content => exact content.asOption_serialize

theorem fieldOr_string (hnodup : (fields.map (·.1)).Nodup) {key : String} {value : Option String}
    (h : fields.lookup key = some (value.map .string))
    : fieldOr (Json.ofMembers (Json.ofFields fields)) key (asOption asString) none
        = .ok value := by
  rw [Json.fieldOr_ofFields hnodup h]
  cases value <;> rfl

theorem fieldOr_toolCalls (hnodup : (fields.map (·.1)).Nodup) {toolCalls : List (ToolCall Json)}
    (h : fields.lookup "tool_calls" = some (
      if toolCalls.isEmpty then none else some (.array (toolCalls.map (·.serialize)))))
    : fieldOr (Json.ofMembers (Json.ofFields fields)) "tool_calls"
        ToolCall.deserializeVec [] = .ok toolCalls := by
  rw [Json.fieldOr_ofFields hnodup h]
  cases toolCalls with
  | nil => rfl
  | cons toolCall toolCalls =>
    exact Json.mapM_map_eq_ok ToolCall.deserialize_serialize (toolCall :: toolCalls)

theorem fieldOr_toolCallId (hnodup : (fields.map (·.1)).Nodup) {toolCallId : String}
    (h : fields.lookup "tool_call_id"
      = some (if toolCallId.isEmpty then none else some (.string toolCallId)))
    : fieldOr (Json.ofMembers (Json.ofFields fields)) "tool_call_id" asString ""
        = .ok toolCallId := by
  rw [Json.fieldOr_ofFields hnodup h]
  split
  . next hempty =>
    rw [String.isEmpty_iff.mp hempty]
    rfl
  . rfl

end Fields

theorem deserialize_serialize_message (message : Message Json)
    : deserialize message.serialize = .ok message := by
  unfold deserialize
  cases message with
  | system content name =>
    unfold serialize struct asObject
    simp only [bind, Except.bind]
    rw [Json.field_ofFields (by simp) rfl, fieldOr_content (by simp) rfl,
      fieldOr_string (by simp) rfl]
    rfl
  | user content name =>
    unfold serialize struct asObject
    simp only [bind, Except.bind]
    rw [Json.field_ofFields (by simp) rfl, fieldOr_content (by simp) rfl,
      fieldOr_string (by simp) rfl]
    rfl
  | assistant content name refusal toolCalls =>
    unfold serialize struct asObject
    simp only [bind, Except.bind]
    rw [Json.field_ofFields (by simp) rfl, fieldOr_content (by simp) rfl,
      fieldOr_string (by simp) rfl, fieldOr_string (by simp) rfl,
      fieldOr_toolCalls (by simp) rfl]
    rfl
  | tool content toolCallId =>
    unfold serialize struct asObject
    simp only [bind, Except.bind]
    rw [Json.field_ofFields (by simp) rfl, fieldOr_content (by simp) rfl,
      fieldOr_toolCallId (by simp) rfl]
    rfl

end ChatCompletions.Message

end AtomaInfer
