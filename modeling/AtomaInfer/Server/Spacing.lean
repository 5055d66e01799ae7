import AtomaInfer.Server.ToolCall

/-!
The edit of the arguments of a tool call, and the value that is read after it.
-/

namespace AtomaInfer

open Json (Token Lexes tokens tokensOfValues tokensOfMember tokensOfMembers textOf)

namespace ToolCall

/--
The edit of the arguments.
-/
def addSpaces (text : List Char) : List Char :=
  replace.go ['"', ':', '"'] ['"', ':', ' ', '"'] 0 text

theorem toList_replace (text : String)
    : (replace text "\":\"" "\": \"").toList = addSpaces text.toList := by
  have hpattern : "\":\"".toList = ['"', ':', '"'] := by decide
  have hreplacement : "\": \"".toList = ['"', ':', ' ', '"'] := by decide
  unfold replace addSpaces
  rw [String.toList_ofList, hpattern, hreplacement]

theorem addSpaces_pattern (text : List Char)
    : addSpaces ('"' :: ':' :: '"' :: text) = '"' :: ':' :: ' ' :: '"' :: addSpaces text := by
  unfold addSpaces
  rw [replace.go, if_pos (by simp)]
  rfl

theorem addSpaces_quote {text : List Char} (h : ¬[':', '"'] <+: text)
    : addSpaces ('"' :: text) = '"' :: addSpaces text := by
  unfold addSpaces
  rw [replace.go, if_neg (by simpa using h)]

theorem addSpaces_of_notMem {chars : List Char} (h : '"' ∉ chars) (text : List Char)
    : addSpaces (chars ++ text) = chars ++ addSpaces text := by
  induction chars with
  | nil => rfl
  | cons c chars ih =>
    rw [List.mem_cons, not_or] at h
    have hprefix : ¬['"', ':', '"'] <+: c :: (chars ++ text) := by
      rw [List.cons_prefix_cons]
      exact fun hprefix => h.1 hprefix.1
    rw [List.cons_append, List.cons_append, ← ih h.2]
    unfold addSpaces
    rw [replace.go, if_neg hprefix]

theorem head?_addSpaces (text : List Char) : (addSpaces text).head? = text.head? := by
  cases text with
  | nil => rfl
  | cons c text =>
    unfold addSpaces
    rw [replace.go]
    split
    . next hprefix =>
      rw [List.cons_prefix_cons] at hprefix
      rw [← hprefix.1]
      rfl
    . rfl

/--
After a quote, the text of a string completes the pattern only if the string is a colon.
-/
theorem colon_quote_prefix_iff (chars text : List Char)
    : [':', '"'] <+: Json.escape chars ++ '"' :: text ↔ chars = [':'] := by
  constructor
  . intro h
    cases chars with
    | nil =>
      rw [Json.escape, List.flatMap_nil, List.nil_append, List.cons_prefix_cons] at h
      exact absurd h.1 (by decide)
    | cons c chars =>
      rcases Json.exists_escapeChar c with ⟨head, tail, heq, -, hcolon⟩
      rw [Json.escape, List.flatMap_cons, heq, List.append_assoc, List.cons_append,
        List.cons_prefix_cons] at h
      have hc := hcolon h.1.symm
      subst hc
      injection heq with _ htail
      subst htail
      cases chars with
      | nil => rfl
      | cons d chars =>
        rcases Json.exists_escapeChar d with ⟨head, tail, heq, hne, -⟩
        rw [List.flatMap_cons, heq, List.nil_append, List.append_assoc, List.cons_append,
          List.cons_prefix_cons] at h
        exact absurd h.2.1.symm hne
  . rintro rfl
    exact List.prefix_append [':', '"'] text

/--
In the text of a string, the pattern is found only where the string ends with a quote and a colon.
-/
theorem addSpaces_escape (chars text : List Char)
    : addSpaces (Json.escape chars ++ '"' :: text)
        = if ['"', ':'] <:+ chars then
            Json.escape (chars ++ [' ']) ++ '"' :: addSpaces text
          else
            Json.escape chars ++ addSpaces ('"' :: text) := by
  induction chars with
  | nil =>
    rw [if_neg (by simp)]
    rfl
  | cons c chars ih =>
    have hcons : ∀ chars, Json.escape (c :: chars) = Json.escapeChar c ++ Json.escape chars := by
      intro chars
      unfold Json.escape
      rw [List.flatMap_cons]
    by_cases hquote : c = '"'
    . subst hquote
      have hfirst : ∀ chars text, addSpaces (Json.escape ('"' :: chars) ++ text)
          = '\\' :: addSpaces ('"' :: (Json.escape chars ++ text)) := by
        intro chars text
        have hbackslash : '"' ∉ ['\\'] := by decide
        exact addSpaces_of_notMem hbackslash _
      rw [hfirst]
      by_cases hcolon : chars = [':']
      . subst hcolon
        rw [if_pos (List.suffix_refl _)]
        exact congrArg _ (addSpaces_pattern text)
      . have hsuffix : ['"', ':'] <:+ '"' :: chars ↔ ['"', ':'] <:+ chars := by
          rw [List.suffix_cons_iff]
          simp [Ne.symm hcolon]
        rw [addSpaces_quote (mt (colon_quote_prefix_iff chars text).mp hcolon), ih]
        simp only [hsuffix, List.cons_append, hcons]
        split <;> rfl
    . have hsuffix : ['"', ':'] <:+ c :: chars ↔ ['"', ':'] <:+ chars := by
        rw [List.suffix_cons_iff]
        simp [Ne.symm hquote]
      rw [hcons, List.append_assoc, addSpaces_of_notMem (Json.quote_notMem_escapeChar hquote), ih]
      simp only [hsuffix, List.cons_append, hcons]
      split <;> rw [List.append_assoc]

/--
The pattern ends with the closing quote of a string. The opening quote of a string starts no
occurrence if it ended one already (`opened`).
-/
def GainsSpace (opened : Bool) (value : String) : Prop :=
  (opened = false ∧ value.toList = [':']) ∨ ['"', ':'] <:+ value.toList

instance (opened : Bool) (value : String) : Decidable (GainsSpace opened value) :=
  inferInstanceAs (Decidable (_ ∨ _))

/--
The string that is read after the edit.
-/
def respace (opened : Bool) (value : String) : String :=
  if GainsSpace opened value then value ++ " " else value

/--
The value that is read after the edit.
-/
def respaceJson (opened : Bool) (json : Json) : Json :=
  match json with
  | .null => .null
  | .bool value => .bool value
  | .number value => .number value
  | .string value => .string (respace opened value)
  | .array values => .array (values.map (respaceJson false))
  | .object members =>
    .object (members.map fun member =>
      (respace false member.1, respaceJson (!decide (GainsSpace false member.1)) member.2))
termination_by json
decreasing_by
  . exact Nat.lt_trans (List.sizeOf_lt_of_mem ‹_›) (by simp)
  . next hmem =>
    have hlt := List.sizeOf_lt_of_mem hmem
    have hmember : sizeOf member = 1 + sizeOf member.1 + sizeOf member.2 := rfl
    simp only [Json.object.sizeOf_spec]
    omega

/--
What may follow a value.
-/
def Follows (text : List Char) : Prop :=
  ∀ c, text.head? = some c → Json.isWordChar c = false ∧ c ≠ ':'

theorem Follows.addSpaces_quote {text : List Char} (h : Follows text)
    : addSpaces ('"' :: text) = '"' :: addSpaces text := by
  refine ToolCall.addSpaces_quote fun hprefix => ?_
  cases text with
  | nil => simp at hprefix
  | cons c text =>
    rw [List.cons_prefix_cons] at hprefix
    exact (h c rfl).2 hprefix.1.symm

section Lexes

variable {text rest : List Char}

theorem addSpaces_opened_string (value : String) (text : List Char)
    : addSpaces (Json.escape value.toList ++ '"' :: text)
        = if GainsSpace true value then
            Json.escape (value ++ " ").toList ++ '"' :: addSpaces text
          else
            Json.escape value.toList ++ addSpaces ('"' :: text) := by
  have hgains : GainsSpace true value ↔ ['"', ':'] <:+ value.toList := by
    unfold GainsSpace
    simp
  have hspace : (value ++ " ").toList = value.toList ++ [' '] := String.toList_append
  rw [addSpaces_escape, hspace]
  simp only [hgains]

theorem addSpaces_string (value : String) (text : List Char)
    : addSpaces ('"' :: (Json.escape value.toList ++ '"' :: text))
        = '"' :: (if GainsSpace false value then
            Json.escape (value ++ " ").toList ++ '"' :: addSpaces text
          else
            Json.escape value.toList ++ addSpaces ('"' :: text)) := by
  by_cases hcolon : value.toList = [':']
  . have hvalue : value = ":" := String.toList_injective hcolon
    subst hvalue
    rw [if_pos (by decide)]
    exact addSpaces_pattern text
  . have hgains : GainsSpace false value ↔ GainsSpace true value := by
      unfold GainsSpace
      simp [hcolon]
    rw [ToolCall.addSpaces_quote (mt (colon_quote_prefix_iff _ _).mp hcolon),
      addSpaces_opened_string]
    simp only [hgains]

theorem lexes_opened_string (value : String) (htext : Follows text)
    : Lexes ('"' :: (addSpaces (Json.escape value.toList ++ '"' :: text) ++ rest))
        [.string (respace true value)] (addSpaces text ++ rest) := by
  rw [addSpaces_opened_string, htext.addSpaces_quote, respace]
  split <;>
  . rw [List.append_assoc]
    exact Lexes.string _ _

theorem lexes_string (value : String) (htext : Follows text)
    : Lexes (addSpaces ('"' :: (Json.escape value.toList ++ '"' :: text)) ++ rest)
        [.string (respace false value)] (addSpaces text ++ rest) := by
  rw [addSpaces_string, htext.addSpaces_quote, respace, List.cons_append]
  split <;>
  . rw [List.append_assoc]
    exact Lexes.string _ _

theorem addSpaces_cons {c : Char} (h : c ≠ '"') (text : List Char)
    : addSpaces (c :: text) = c :: addSpaces text :=
  addSpaces_of_notMem (by simpa using h.symm : '"' ∉ [c]) text

theorem lexes_punctuation {c : Char} {token : Token} (h : Json.punctuation c = some token)
    (text rest : List Char)
    : Lexes (addSpaces (c :: text) ++ rest) [token] (addSpaces text ++ rest) := by
  have hne : c ≠ '"' := by
    rintro rfl
    cases h
  rw [addSpaces_cons hne]
  exact Lexes.punctuation h _

theorem lexes_word {chars : List Char} (hne : chars ≠ [])
    (hchars : chars.all Json.isWordChar = true) (htext : Follows text) (hrest : Follows rest)
    : Lexes (addSpaces (chars ++ text) ++ rest) [.word chars] (addSpaces text ++ rest) := by
  rw [List.all_eq_true] at hchars
  have hquote : '"' ∉ chars := by
    intro hmem
    cases hchars _ hmem
  rw [addSpaces_of_notMem hquote, List.append_assoc]
  refine Lexes.word hne hchars fun c hc => ?_
  rw [List.head?_append, head?_addSpaces] at hc
  cases hhead : text.head? with
  | none =>
    rw [hhead] at hc
    exact (hrest c hc).1
  | some d =>
    rw [hhead] at hc
    injection hc with hc
    subst hc
    exact (htext _ hhead).1

/--
The edited text of a value is read as the respaced value.
-/
def Respaces (rest : List Char) (json : Json) : Prop :=
  ∀ text, Follows text →
    Lexes (addSpaces (json.compact ++ text) ++ rest) (respaceJson false json).tokens
      (addSpaces text ++ rest)

theorem lexes_member {key : String} {value : Json} (h : Respaces rest value) (htext : Follows text)
    : Lexes (addSpaces (textOf (tokensOfMember (key, value)) ++ text) ++ rest)
        (tokensOfMember
          (respace false key, respaceJson (!decide (GainsSpace false key)) value))
        (addSpaces text ++ rest) := by
  have htextOf : textOf (tokensOfMember (key, value)) ++ text
      = '"' :: (Json.escape key.toList ++ '"' :: ':' :: (value.compact ++ text)) := by
    rw [tokensOfMember]
    simp [textOf, Json.compact, Token.text]
  rw [htextOf, addSpaces_string, respace, tokensOfMember]
  by_cases hgains : GainsSpace false key
  . rw [if_pos hgains, if_pos hgains, decide_eq_true hgains, List.cons_append, List.append_assoc]
    refine (Lexes.string (key ++ " ") _).trans ?_
    exact (lexes_punctuation rfl _ rest).trans (h text htext)
  . rw [if_neg hgains, if_neg hgains, decide_eq_false hgains, List.cons_append, List.append_assoc]
    by_cases hvalue : value.compact.head? = some '"'
    . rcases Json.head?_compact hvalue with ⟨s, rfl⟩
      have hpattern : addSpaces ('"' :: ':' :: ((Json.string s).compact ++ text))
          = '"' :: ':' :: ' ' :: '"' :: addSpaces (Json.escape s.toList ++ '"' :: text) := by
        rw [← addSpaces_pattern, Json.compact, tokens]
        simp [textOf, Token.text]
      rw [hpattern, respaceJson, tokens]
      refine (Lexes.string key _).trans ?_
      refine (Lexes.punctuation rfl _).trans ?_
      exact (Lexes.space rfl _).trans (lexes_opened_string s htext)
    . have hprefix : ¬[':', '"'] <+: ':' :: (value.compact ++ text) := by
        rcases Json.exists_compact value with ⟨head, tail, heq⟩
        rw [heq] at hvalue ⊢
        simpa [eq_comm] using hvalue
      have hopened : respaceJson true value = respaceJson false value := by
        cases value with
        | string s => exact absurd (by rw [Json.compact, tokens]; rfl) hvalue
        | _ => simp only [respaceJson]
      rw [addSpaces_quote hprefix, Bool.not_false, hopened]
      refine (Lexes.string key _).trans ?_
      exact (lexes_punctuation rfl _ rest).trans (h text htext)

theorem follows_tokensOfValues (values : List Json) (text : List Char)
    : Follows (textOf (tokensOfValues values) ++ text) := by
  intro c hc
  cases values <;>
  . rw [tokensOfValues] at hc
    injection hc with hc
    subst hc
    decide

theorem follows_tokensOfMembers (members : List (String × Json)) (text : List Char)
    : Follows (textOf (tokensOfMembers members) ++ text) := by
  intro c hc
  cases members <;>
  . rw [tokensOfMembers] at hc
    injection hc with hc
    subst hc
    decide

theorem lexes_values {values : List Json} (h : ∀ value ∈ values, Respaces rest value)
    (text : List Char)
    : Lexes (addSpaces (textOf (tokensOfValues values) ++ text) ++ rest)
        (tokensOfValues (values.map (respaceJson false))) (addSpaces text ++ rest) := by
  induction values with
  | nil =>
    rw [List.map_nil, tokensOfValues]
    exact lexes_punctuation rfl text rest
  | cons value values ih =>
    rw [List.forall_mem_cons] at h
    rw [List.map_cons, tokensOfValues, tokensOfValues, Json.textOf_cons, List.append_assoc,
      List.append_assoc]
    refine (lexes_punctuation rfl _ rest).trans ?_
    exact (h.1 _ (follows_tokensOfValues values text)).trans (ih h.2)

theorem lexes_members {members : List (String × Json)}
    (h : ∀ member ∈ members, Respaces rest member.2) (text : List Char)
    : Lexes (addSpaces (textOf (tokensOfMembers members) ++ text) ++ rest)
        (tokensOfMembers (members.map fun member =>
          (respace false member.1, respaceJson (!decide (GainsSpace false member.1)) member.2)))
        (addSpaces text ++ rest) := by
  induction members with
  | nil =>
    rw [List.map_nil, tokensOfMembers]
    exact lexes_punctuation rfl text rest
  | cons member members ih =>
    rcases member with ⟨key, value⟩
    rw [List.forall_mem_cons] at h
    rw [List.map_cons, tokensOfMembers, tokensOfMembers, Json.textOf_cons, List.append_assoc,
      List.append_assoc]
    refine (lexes_punctuation rfl _ rest).trans ?_
    exact (lexes_member h.1 (follows_tokensOfMembers members text)).trans (ih h.2)

theorem respaces (hrest : Follows rest) (json : Json) : Respaces rest json := by
  unfold Respaces Json.compact
  induction json using Json.induction with
  | null =>
    intro text htext
    rw [respaceJson, tokens]
    exact lexes_word (by decide) (by decide) htext hrest
  | bool value =>
    intro text htext
    cases value <;>
    . rw [respaceJson, tokens]
      exact lexes_word (by decide) (by decide) htext hrest
  | number value =>
    intro text htext
    have hchars := Json.isWordChar_of_isLiteral value.valid
    rw [respaceJson, tokens, Json.textOf_singleton]
    exact lexes_word hchars.1 (List.all_eq_true.mpr hchars.2) htext hrest
  | string value =>
    intro text htext
    rw [respaceJson, tokens, tokens, Json.textOf_singleton, Token.text, List.cons_append,
      List.append_assoc]
    exact lexes_string value htext
  | array values ih =>
    intro text htext
    cases values with
    | nil =>
      rw [respaceJson, List.map_nil, tokens]
      exact (lexes_punctuation rfl _ rest).trans (lexes_punctuation rfl text rest)
    | cons value values =>
      rw [List.forall_mem_cons] at ih
      rw [respaceJson, List.map_cons, tokens, tokens, Json.textOf_cons, List.append_assoc,
        List.append_assoc]
      refine (lexes_punctuation rfl _ rest).trans ?_
      exact (ih.1 _ (follows_tokensOfValues values text)).trans (lexes_values ih.2 text)
  | object members ih =>
    intro text htext
    cases members with
    | nil =>
      rw [respaceJson, List.map_nil, tokens]
      exact (lexes_punctuation rfl _ rest).trans (lexes_punctuation rfl text rest)
    | cons member members =>
      rcases member with ⟨key, value⟩
      rw [List.forall_mem_cons] at ih
      rw [respaceJson, List.map_cons, tokens, tokens, Json.textOf_cons, List.append_assoc,
        List.append_assoc]
      refine (lexes_punctuation rfl _ rest).trans ?_
      exact (lexes_member ih.1 (follows_tokensOfMembers members text)).trans
        (lexes_members ih.2 text)

end Lexes

/--
No string of the value gains a space. The value of a member may be a single colon.
-/
inductive IsKept : Bool → Json → Prop where
  | null (opened : Bool) : IsKept opened .null
  | bool (opened : Bool) (value : Bool) : IsKept opened (.bool value)
  | number (opened : Bool) (value : JsonNumber) : IsKept opened (.number value)
  | string {opened : Bool} {value : String} : ¬GainsSpace opened value →
    IsKept opened (.string value)
  | array (opened : Bool) {values : List Json} : (∀ value ∈ values, IsKept false value) →
    IsKept opened (.array values)
  | object (opened : Bool) {members : List (String × Json)} :
    (∀ member ∈ members, ¬GainsSpace false member.1) →
    (∀ member ∈ members, IsKept true member.2) → IsKept opened (.object members)

theorem respaceJson_eq_self {opened : Bool} {json : Json} (h : IsKept opened json)
    : respaceJson opened json = json := by
  induction h with
  | null opened => rw [respaceJson]
  | bool opened value => rw [respaceJson]
  | number opened value => rw [respaceJson]
  | string hgains => rw [respaceJson, respace, if_neg hgains]
  | @array opened values _ ih =>
    have hvalues : values.map (respaceJson false) = values.map fun value => value :=
      List.map_congr_left ih
    rw [respaceJson, hvalues, List.map_id']
  | @object opened members hkeys _ ih =>
    have hmembers : (members.map fun member =>
          (respace false member.1, respaceJson (!decide (GainsSpace false member.1)) member.2))
        = members.map fun member => member := by
      refine List.map_congr_left fun member hmember => ?_
      have hgains := hkeys member hmember
      rw [respace, if_neg hgains, decide_eq_false hgains, Bool.not_false, ih member hmember]
    rw [respaceJson, hmembers, List.map_id']

theorem not_gainsSpace_append_space (opened : Bool) (value : String)
    : ¬GainsSpace opened (value ++ " ") := by
  have hspace : (value ++ " ").toList = value.toList ++ [' '] := String.toList_append
  unfold GainsSpace
  rw [hspace]
  rintro (⟨-, hcolon⟩ | hsuffix)
  . have hlast := congrArg List.getLast? hcolon
    rw [List.getLast?_append_cons] at hlast
    cases hlast
  . have hlast := hsuffix.getLast (by simp)
    rw [List.getLast_append_of_ne_nil (by simp) (by simp)] at hlast
    cases hlast

theorem gainsSpace_of_respace_ne {opened : Bool} {value : String} (h : respace opened value = value)
    : ¬GainsSpace opened value := by
  intro hgains
  rw [respace, if_pos hgains] at h
  exact not_gainsSpace_append_space opened value (h.symm ▸ hgains)

/--
The keys of an edited object are not the ones it had, so it is another object if a key gains a
space.
-/
theorem keys_kept {members : List (String × Json)} {value : String × Json → Json}
    (h : Json.ofMembers (members.map fun member => (respace false member.1, value member))
      = members)
    : ∀ member ∈ members, ¬GainsSpace false member.1 := by
  intro member hmember hgains
  rw [← h] at hmember
  rcases List.mem_map.mp (Json.mem_of_mem_ofMembers hmember) with ⟨source, hsource, heq⟩
  have hkey : respace false source.1 = member.1 := congrArg Prod.fst heq
  unfold respace at hkey
  split at hkey
  . rw [← hkey] at hgains
    exact not_gainsSpace_append_space _ _ hgains
  . next hnot =>
    rw [hkey] at hnot
    exact hnot hgains

/--
The edit keeps a value exactly if no string of it gains a space.
-/
theorem ordered_respaceJson_eq_self_iff {json : Json} (hordered : json.IsOrdered) (opened : Bool)
    : (respaceJson opened json).ordered = json ↔ IsKept opened json := by
  constructor
  . intro h
    induction hordered generalizing opened with
    | null => exact .null opened
    | bool value => exact .bool opened value
    | number value => exact .number opened value
    | string value =>
      rw [respaceJson, Json.ordered] at h
      injection h with h
      exact .string (gainsSpace_of_respace_ne h)
    | @array values _ ih =>
      rw [respaceJson, Json.ordered, List.map_map] at h
      injection h with h
      refine .array opened fun value hvalue => ih value hvalue false ?_
      exact List.map_inj_left.mp (h.trans (List.map_id' values).symm) value hvalue
    | @object members hsorted _ ih =>
      rw [respaceJson, Json.ordered, List.map_map] at h
      injection h with h
      have hkeys := keys_kept h
      refine .object opened hkeys fun member hmember => ih member hmember true ?_
      rw [Json.ofMembers_of_pairwise] at h
      . have heq := List.map_inj_left.mp (h.trans (List.map_id' members).symm) member hmember
        have hvalue := congrArg Prod.snd heq
        dsimp only [Function.comp_apply] at hvalue
        rwa [decide_eq_false (hkeys member hmember)] at hvalue
      . have hmap : (members.map fun member => respace false member.1)
            = members.map fun member => member.1 := by
          refine List.map_congr_left fun member hmember => ?_
          rw [respace, if_neg (hkeys member hmember)]
        rw [List.map_map]
        exact hmap ▸ hsorted
  . intro h
    rw [respaceJson_eq_self h, Json.ordered_eq_self hordered]

end ToolCall

end AtomaInfer
