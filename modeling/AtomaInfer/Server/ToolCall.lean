import AtomaInfer.Util.JsonText
import AtomaInfer.Server.Impl

/-!
The tool calls in the prompts of the models (`ToolCall::function_call_string`).
-/

namespace AtomaInfer

inductive Model where
  | llama27b
  | llama27bChatHf
  | llama270b
  | llama38b
  | llama38bInstruct
  | llama370b
  | llama370bInstruct
  | llama318b
  | llama318bInstruct
  | llama3170b
  | llama3170bInstruct
  | llama31405b
  | llama31405bInstruct
  | llama321b
  | llama321bInstruct
  | llama323b
  | llama323bInstruct
  | hermesLlama318b
  | hermesLlama3170b
  | hermesLlama31405b
  deriving DecidableEq

/--
The objects of a value are maps that are sorted by their keys.
-/
structure Value where
  json : Json
  ordered : json.IsOrdered

/--
What the server uses of `serde_json`.
-/
structure SerdeJson where
  toString : Json → String
  fromStr : String → Option Json

/--
The text of a value has no whitespace outside of its strings.
-/
def SerdeJson.WritesCompactly (serdeJson : SerdeJson) : Prop :=
  ∀ value : Value, (serdeJson.toString value.json).toList = value.json.compact

def replace.go (pattern replacement : List Char) (skip : Nat) (text : List Char) : List Char :=
  match text with
  | [] => []
  | c :: text =>
    match skip with
    | skip + 1 => go pattern replacement skip text
    | 0 =>
      if pattern <+: c :: text then
        replacement ++ go pattern replacement (pattern.length - 1) text
      else
        c :: go pattern replacement 0 text

/--
`str::replace` for a pattern that is not empty. The occurrences are found from the left.
-/
def replace (text pattern replacement : String) : String :=
  String.ofList (replace.go pattern.toList replacement.toList 0 text.toList)

def Model.IsHermes (model : Model) : Prop :=
  model = .hermesLlama318b ∨ model = .hermesLlama3170b ∨ model = .hermesLlama31405b

namespace ToolCall

def parameter (serdeJson : SerdeJson) (member : String × Json) : String :=
  match member with
  | (key, .string value) => key ++ "='" ++ value ++ "'"
  | (key, .number value) => key ++ "=" ++ String.ofList value.literal
  | (key, .bool value) => key ++ "=" ++ (if value then "true" else "false")
  | (key, value) => key ++ "=" ++ serdeJson.toString value

def parameters (serdeJson : SerdeJson) (members : List (String × Json)) : String :=
  ", ".intercalate (members.map (parameter serdeJson))

def functionCallString (serdeJson : SerdeJson) (call : ToolCall Value) (model : Model) : String :=
  let name := call.function.name
  match model with
  | .hermesLlama318b | .hermesLlama3170b | .hermesLlama31405b =>
    let formattedArguments :=
      replace (serdeJson.toString call.function.arguments.json) "\":\"" "\": \""
    "\x7b\"arguments\": " ++ formattedArguments ++ ", \"name\": \"" ++ name ++ "\"\x7d"
  | .llama38b | .llama38bInstruct | .llama370b | .llama370bInstruct | .llama31405b
  | .llama31405bInstruct | .llama318b | .llama318bInstruct | .llama3170b | .llama3170bInstruct
  | .llama321b | .llama321bInstruct | .llama323b | .llama323bInstruct =>
    match call.function.arguments.json with
    | .object members => name ++ "(" ++ parameters serdeJson members ++ ")"
    | .string arguments =>
      match serdeJson.fromStr arguments with
      | some (.object members) => name ++ "(" ++ parameters serdeJson members ++ ")"
      | _ => name ++ "(" ++ arguments ++ ")"
    | _ => name ++ "()"
  | .llama27b | .llama27bChatHf | .llama270b => name

end ToolCall

end AtomaInfer
