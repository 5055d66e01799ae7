import AtomaInfer.Server.Spacing

/-!
When the text of a tool call is a JSON text of the call.
-/

namespace AtomaInfer

open Json (Token Lexes)

namespace ToolCall

/--
What the text of a call says, read as JSON, is the call.
-/
def IsFaithful (call : ToolCall Value) (text : String) : Prop :=
  Json.parse text.toList
    = some (.object [
        ("arguments", call.function.arguments.json),
        ("name", .string call.function.name)
      ])

section Faithful

variable {serdeJson : SerdeJson} {call : ToolCall Value} {model : Model}

/--
The text after the arguments.
-/
def nameText (name : String) : List Char :=
  ", \"name\": ".toList ++ '"' :: (name.toList ++ ['"', '\x7d'])

theorem toList_functionCallString (hserde : serdeJson.WritesCompactly) (hmodel : model.IsHermes)
    : (functionCallString serdeJson call model).toList
        = "\x7b\"arguments\": ".toList
          ++ (addSpaces (call.function.arguments.json.compact ++ [])
            ++ nameText call.function.name) := by
  have hreplace := toList_replace (serdeJson.toString call.function.arguments.json)
  rw [hserde] at hreplace
  have hstring : ", \"name\": \"".toList = ", \"name\": ".toList ++ ['"'] := by decide
  have hclose : "\"\x7d".toList = ['"', '\x7d'] := by decide
  unfold functionCallString nameText
  rcases hmodel with rfl | rfl | rfl <;>
  . simp only [String.toList_append, hreplace, hstring, hclose, List.append_assoc,
      List.append_nil, List.cons_append, List.nil_append]

theorem lexes_functionCallString (hserde : serdeJson.WritesCompactly) (hmodel : model.IsHermes)
    : Lexes (functionCallString serdeJson call model).toList
        ([.openBrace, .string "arguments", .colon]
          ++ ((respaceJson false call.function.arguments.json).tokens
            ++ [.comma, .string "name", .colon]))
        ('"' :: (call.function.name.toList ++ ['"', '\x7d'])) := by
  have hfollows : Follows (nameText call.function.name) := by
    intro c hc
    injection hc with hc
    subst hc
    decide
  have harguments : ∀ text, Lexes ("\x7b\"arguments\": ".toList ++ text)
      [.openBrace, .string "arguments", .colon] text := by
    intro text
    refine (Lexes.punctuation rfl _).trans ((Lexes.string "arguments" _).trans ?_)
    exact (Lexes.punctuation rfl _).trans (Lexes.space rfl text)
  have hname : ∀ text, Lexes (", \"name\": ".toList ++ text)
      [.comma, .string "name", .colon] text := by
    intro text
    refine (Lexes.punctuation rfl _).trans ((Lexes.space rfl _).trans ?_)
    refine (Lexes.string "name" _).trans ?_
    exact (Lexes.punctuation rfl _).trans (Lexes.space rfl text)
  rw [toList_functionCallString hserde hmodel]
  refine (harguments _).trans ?_
  refine (respaces hfollows call.function.arguments.json [] (by simp [Follows])).trans ?_
  exact hname _

theorem parseValue_fields {fuel : Nat} {json : Json} (hfuel : json.tokens.length < fuel)
    (value : String) (tail : List Token)
    : Json.parseValue (fuel + 4)
          ([.openBrace, .string "arguments", .colon]
            ++ (json.tokens ++ .comma :: .string "name" :: .colon :: .string value :: tail))
        = (Json.parseMembers (fuel + 2) tail).map fun result =>
            (.object (Json.ofMembers
              (("arguments", json.ordered) :: ("name", .string value) :: result.1)), result.2) := by
  have harguments : Json.parseMember (fuel + 3)
        (.string "arguments" :: .colon
          :: (json.tokens ++ .comma :: .string "name" :: .colon :: .string value :: tail))
      = some (("arguments", json.ordered),
          .comma :: .string "name" :: .colon :: .string value :: tail) := by
    rw [Json.parseMember, Json.reads json _ _ (by omega)]
    rfl
  have hname : Json.parseMember (fuel + 2) (.string "name" :: .colon :: .string value :: tail)
      = some (("name", .string value), tail) := by
    rw [Json.parseMember, Json.parseValue]
    rfl
  rw [List.cons_append, Json.parseValue, if_neg (by simp)]
  simp only [List.cons_append, List.nil_append, harguments, Option.bind_eq_bind, Option.bind_some]
  rw [Json.parseMembers]
  simp only [hname, Option.bind_eq_bind, Option.bind_some, Option.bind_assoc]
  cases Json.parseMembers (fuel + 2) tail <;> rfl

/--
The parser after the arguments. What follows the first closing quote is read as more members.
-/
def parseName (json : Json) (name : String) : Option Json := do
  let (value, rest) ← Json.parseString (name.toList ++ ['"', '\x7d'])
  let tail ← Json.lex rest
  let (members, rest) ← Json.parseMembers (json.tokens.length + tail.length + 6) tail
  if rest = [] then
    some (.object (Json.ofMembers
      (("arguments", json.ordered) :: ("name", .string value) :: members)))
  else
    none

theorem parse_functionCallString (hserde : serdeJson.WritesCompactly) (hmodel : model.IsHermes)
    : Json.parse (functionCallString serdeJson call model).toList
        = parseName (respaceJson false call.function.arguments.json) call.function.name := by
  have hlex : Lexes (functionCallString serdeJson call model).toList _ _ :=
    lexes_functionCallString hserde hmodel
  generalize respaceJson false call.function.arguments.json = json at hlex ⊢
  unfold Lexes at hlex
  unfold Json.parse parseName
  rw [hlex]
  cases hname : Json.parseString (call.function.name.toList ++ ['"', '\x7d']) with
  | none =>
    rw [Json.lex_quote_of_parseString_eq_none hname]
    rfl
  | some result =>
    rcases result with ⟨value, rest⟩
    have hquote := Lexes.quote hname
    unfold Lexes at hquote
    rw [hquote]
    cases htail : Json.lex rest with
    | none =>
      simp only [Option.bind_eq_bind, Option.bind_some, htail]
      rfl
    | some tail =>
      have hlt : json.tokens.length < json.tokens.length + tail.length + 4 := by
        omega
      have hfields := parseValue_fields hlt value tail
      have hfuel : ([Token.openBrace, .string "arguments", .colon]
            ++ (json.tokens
              ++ Token.comma :: .string "name" :: .colon :: .string value :: tail)).length + 1
          = json.tokens.length + tail.length + 4 + 4 := by
        simp only [List.length_append, List.length_cons, List.length_nil]
        omega
      simp only [Option.map_some, Option.bind_eq_bind, Option.bind_some, List.append_assoc,
        List.cons_append, List.nil_append, htail] at hfuel hfields ⊢
      rw [hfuel, hfields]
      cases Json.parseMembers (json.tokens.length + tail.length + 6) tail <;> rfl

theorem ofMembers_fields (json : Json) (name : String)
    : Json.ofMembers [("arguments", json), ("name", .string name)]
        = [("arguments", json), ("name", .string name)] := by
  have hsorted : ["arguments", "name"].Pairwise (· < ·) := by decide
  exact Json.ofMembers_of_pairwise hsorted

theorem parseName_of_isPlain {name : String} (h : ∀ c ∈ name.toList, Json.IsPlain c) (json : Json)
    : parseName json name
        = some (.object [("arguments", json.ordered), ("name", .string name)]) := by
  have hname := Json.parseString_escape name ['\x7d']
  rw [Json.escape_of_isPlain h] at hname
  have hclose : Json.lex ['\x7d'] = some [.closeBrace] := by decide
  unfold parseName
  rw [hname]
  simp only [Option.bind_eq_bind, Option.bind_some, hclose]
  rw [Json.parseMembers]
  simp only [Option.bind_some, if_true, ofMembers_fields]

/--
Members after the name are too short to have the whole text of the name as a value.
-/
theorem isPlain_of_parseName {json arguments : Json} {name : String}
    (h : parseName json name = some (.object [("arguments", arguments), ("name", .string name)]))
    : json.ordered = arguments ∧ ∀ c ∈ name.toList, Json.IsPlain c := by
  unfold parseName at h
  simp only [Option.bind_eq_bind, Option.bind_eq_some_iff] at h
  rcases h with ⟨⟨value, rest⟩, hname, tail, htail, ⟨members, last⟩, hmembers, h⟩
  dsimp only at htail hmembers h
  have hlength := Json.length_of_parseString hname
  rw [List.length_append, List.length_cons, List.length_cons, List.length_nil] at hlength
  split at h
  . injection h with h
    injection h with h
    have hmem : ("name", Json.string name)
        ∈ ("arguments", json.ordered) :: ("name", .string value) :: members := by
      refine Json.mem_of_mem_ofMembers ?_
      rw [h]
      simp
    have hvalue : value = name := by
      rcases List.mem_cons.mp hmem with heq | hmem
      . have hne : "name" ≠ "arguments" := by decide
        exact absurd (congrArg Prod.fst heq) hne
      . rcases List.mem_cons.mp hmem with heq | hmem
        . injection heq with _ heq
          injection heq with heq
          exact heq.symm
        . have htoken := ((Json.readsFrom _).members hmembers).2 _ hmem name rfl
          have hlt := Json.length_of_mem_lex htail htoken
          omega
    subst hvalue
    have hrest : rest ≠ [] := by
      rintro rfl
      rw [Json.lex_nil] at htail
      cases htail
      cases hmembers
    have hpos := List.length_pos_iff.mpr hrest
    rcases hlength.2 (by omega) with ⟨htext, hplain⟩
    have hclose : rest = ['\x7d'] := by
      have heq := List.append_cancel_left htext
      injection heq with _ heq
      exact heq.symm
    subst hclose
    cases htail
    cases hmembers
    rw [ofMembers_fields] at h
    injection h with h
    exact ⟨congrArg Prod.snd h, hplain⟩
  . cases h

/--
The text of a call is faithful exactly if the edit leaves the strings of the arguments alone and no
character of the name has to be escaped.
-/
theorem isFaithful_functionCallString_iff (hserde : serdeJson.WritesCompactly)
    (call : ToolCall Value) (hmodel : model.IsHermes)
    : call.IsFaithful (functionCallString serdeJson call model)
        ↔ IsKept false call.function.arguments.json
          ∧ ∀ c ∈ call.function.name.toList, Json.IsPlain c := by
  have hkept := ordered_respaceJson_eq_self_iff call.function.arguments.ordered false
  unfold IsFaithful
  rw [parse_functionCallString hserde hmodel, ← hkept]
  constructor
  . exact isPlain_of_parseName
  . rintro ⟨harguments, hplain⟩
    rw [parseName_of_isPlain hplain, harguments]

end Faithful

def compactJson : SerdeJson where
  toString json := String.ofList json.compact
  fromStr text := Json.parse text.toList

theorem compactJson_writesCompactly : compactJson.WritesCompactly := by
  intro value
  exact String.toList_ofList

def cityCall : ToolCall Value where
  id := "call_1"
  type := "function"
  function := {
    name := "get_weather"
    arguments := {
      json := .object [("city", .string "Paris"), ("unit", .string ":")]
      ordered := .object (by decide) (by simp [Json.IsOrdered.string])
    }
  }

theorem isFaithful_cityCall
    : cityCall.IsFaithful (functionCallString compactJson cityCall .hermesLlama318b) := by
  refine (isFaithful_functionCallString_iff compactJson_writesCompactly cityCall (Or.inl rfl)).mpr
    ⟨.object false ?_ ?_, ?_⟩
  . simp only [List.forall_mem_cons]
    decide
  . have hparis : ¬GainsSpace true "Paris" := by decide
    have hcolon : ¬GainsSpace true ":" := by decide
    simp [IsKept.string hparis, IsKept.string hcolon]
  . have hplain : "get_weather".toList.all (fun c => decide (Json.IsPlain c)) = true := by decide
    exact fun c hc => of_decide_eq_true (List.all_eq_true.mp hplain c hc)

def colonCall : ToolCall Value where
  id := "call_1"
  type := "function"
  function := {
    name := "f"
    arguments := {
      json := .array [.string ":"]
      ordered := .array (by simp [Json.IsOrdered.string])
    }
  }

/--
A colon that is an argument is read back with a space.
-/
theorem not_isFaithful_colonCall
    : compactJson.WritesCompactly
        ∧ ¬colonCall.IsFaithful (functionCallString compactJson colonCall .hermesLlama318b) := by
  refine ⟨compactJson_writesCompactly, ?_⟩
  have htext : functionCallString compactJson colonCall .hermesLlama318b
      = "\x7b\"arguments\": [\": \"], \"name\": \"f\"\x7d" := by
    decide +kernel
  have hlex : Json.lex "\x7b\"arguments\": [\": \"], \"name\": \"f\"\x7d".toList
      = some [.openBrace, .string "arguments", .colon, .openBracket, .string ": ", .closeBracket,
          .comma, .string "name", .colon, .string "f", .closeBrace] := by
    decide +kernel
  have hparse : Json.parse "\x7b\"arguments\": [\": \"], \"name\": \"f\"\x7d".toList
      = some (.object [("arguments", .array [.string ": "]), ("name", .string "f")]) := by
    unfold Json.parse
    rw [hlex]
    rfl
  intro h
  unfold IsFaithful at h
  rw [htext, hparse] at h
  simp [colonCall] at h

end ToolCall

end AtomaInfer
