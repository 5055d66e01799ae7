import AtomaInfer.Util.JsonString

/-!
JSON texts: the tokens of a value, the text of the tokens, and a parser that reads them back.
-/

namespace Json

inductive Token where
  | openBrace
  | closeBrace
  | openBracket
  | closeBracket
  | comma
  | colon
  | word (chars : List Char)
  | string (value : String)
  deriving DecidableEq

def isSpace (c : Char) : Bool :=
  c = ' ' || c = '\t' || c = '\n' || c = '\r'

def punctuation (c : Char) : Option Token :=
  match c with
  | '{' => some .openBrace
  | '}' => some .closeBrace
  | '[' => some .openBracket
  | ']' => some .closeBracket
  | ',' => some .comma
  | ':' => some .colon
  | _ => none

/--
The characters that numbers and the names of constants are read from.
-/
def isWordChar (c : Char) : Bool :=
  !isSpace c && c ≠ '"' && (punctuation c).isNone

def lexToken (text : List Char) : Option (Token × List Char) :=
  match text with
  | [] => none
  | c :: text =>
    match punctuation c with
    | some token => some (token, text)
    | none =>
      if c = '"' then
        (parseString text).map fun result => (.string result.1, result.2)
      else
        some (.word (c :: text.takeWhile isWordChar), text.dropWhile isWordChar)

def lex.go (fuel : Nat) (text : List Char) : Option (List Token) :=
  match fuel with
  | 0 => none
  | fuel + 1 =>
    match text with
    | [] => some []
    | c :: rest =>
      if isSpace c then
        go fuel rest
      else do
        let (token, rest) ← lexToken (c :: rest)
        let tokens ← go fuel rest
        return token :: tokens

def lex (text : List Char) : Option (List Token) :=
  lex.go (text.length + 1) text

namespace Token

def text (token : Token) : List Char :=
  match token with
  | openBrace => ['{']
  | closeBrace => ['}']
  | openBracket => ['[']
  | closeBracket => [']']
  | comma => [',']
  | colon => [':']
  | word chars => chars
  | string value => '"' :: (escape value.toList ++ ['"'])

end Token

def textOf (tokens : List Token) : List Char :=
  tokens.flatMap Token.text

def scalar (chars : List Char) : Option Json :=
  if chars = ['n', 'u', 'l', 'l'] then
    some .null
  else if chars = ['t', 'r', 'u', 'e'] then
    some (.bool true)
  else if chars = ['f', 'a', 'l', 's', 'e'] then
    some (.bool false)
  else if h : JsonNumber.isLiteral chars = true then
    some (.number ⟨chars, h⟩)
  else
    none

mutual

/--
The value at the front of the tokens.
-/
def parseValue (fuel : Nat) (tokens : List Token) : Option (Json × List Token) :=
  match fuel with
  | 0 => none
  | fuel + 1 =>
    match tokens with
    | .word chars :: tokens => (scalar chars).map fun json => (json, tokens)
    | .string value :: tokens => some (.string value, tokens)
    | .openBracket :: tokens =>
      if tokens.head? = some .closeBracket then
        some (.array [], tokens.tail)
      else do
        let (value, tokens) ← parseValue fuel tokens
        let (values, tokens) ← parseValues fuel tokens
        return (.array (value :: values), tokens)
    | .openBrace :: tokens =>
      if tokens.head? = some .closeBrace then
        some (.object [], tokens.tail)
      else do
        let (member, tokens) ← parseMember fuel tokens
        let (members, tokens) ← parseMembers fuel tokens
        return (.object (ofMembers (member :: members)), tokens)
    | _ => none

/--
The values of an array after the first one.
-/
def parseValues (fuel : Nat) (tokens : List Token) : Option (List Json × List Token) :=
  match fuel with
  | 0 => none
  | fuel + 1 =>
    match tokens with
    | .closeBracket :: tokens => some ([], tokens)
    | .comma :: tokens => do
      let (value, tokens) ← parseValue fuel tokens
      let (values, tokens) ← parseValues fuel tokens
      return (value :: values, tokens)
    | _ => none

def parseMember (fuel : Nat) (tokens : List Token) : Option ((String × Json) × List Token) :=
  match fuel with
  | 0 => none
  | fuel + 1 =>
    match tokens with
    | .string key :: .colon :: tokens => do
      let (value, tokens) ← parseValue fuel tokens
      return ((key, value), tokens)
    | _ => none

/--
The members of an object after the first one.
-/
def parseMembers (fuel : Nat) (tokens : List Token)
    : Option (List (String × Json) × List Token) :=
  match fuel with
  | 0 => none
  | fuel + 1 =>
    match tokens with
    | .closeBrace :: tokens => some ([], tokens)
    | .comma :: tokens => do
      let (member, tokens) ← parseMember fuel tokens
      let (members, tokens) ← parseMembers fuel tokens
      return (member :: members, tokens)
    | _ => none

end

/--
The value that a text is.
-/
def parse (text : List Char) : Option Json := do
  let tokens ← lex text
  let (json, rest) ← parseValue (tokens.length + 1) tokens
  if rest = [] then some json else none

mutual

/--
The tokens that a value is written with.
-/
def tokens (json : Json) : List Token :=
  match json with
  | .null => [.word ['n', 'u', 'l', 'l']]
  | .bool true => [.word ['t', 'r', 'u', 'e']]
  | .bool false => [.word ['f', 'a', 'l', 's', 'e']]
  | .number value => [.word value.literal]
  | .string value => [.string value]
  | .array [] => [.openBracket, .closeBracket]
  | .array (value :: values) => .openBracket :: (tokens value ++ tokensOfValues values)
  | .object [] => [.openBrace, .closeBrace]
  | .object (member :: members) =>
    .openBrace :: (tokensOfMember member ++ tokensOfMembers members)

def tokensOfValues (values : List Json) : List Token :=
  match values with
  | [] => [.closeBracket]
  | value :: values => .comma :: (tokens value ++ tokensOfValues values)

def tokensOfMember (member : String × Json) : List Token :=
  match member with
  | (key, value) => .string key :: .colon :: tokens value

def tokensOfMembers (members : List (String × Json)) : List Token :=
  match members with
  | [] => [.closeBrace]
  | member :: members => .comma :: (tokensOfMember member ++ tokensOfMembers members)

end

/--
The compact text of a value. It has no space outside of the strings.
-/
def compact (json : Json) : List Char :=
  textOf (tokens json)

theorem length_of_lexToken {token : Token} {text rest : List Char}
    (h : lexToken text = some (token, rest))
    : rest.length < text.length
        ∧ ∀ value, token = .string value → value.toList.length + rest.length + 1 < text.length := by
  unfold lexToken at h
  split at h
  . cases h
  . next c text =>
    rw [List.length_cons]
    split at h
    . next token' hpunctuation =>
      injection h with heq
      injection heq with htoken hrest
      subst htoken hrest
      refine ⟨Nat.lt_succ_self _, fun value heq => ?_⟩
      subst heq
      unfold punctuation at hpunctuation
      split at hpunctuation <;> cases hpunctuation
    . split at h
      . rcases Option.map_eq_some_iff.mp h with ⟨⟨value, rest'⟩, hparse, heq⟩
        injection heq with htoken hrest
        subst htoken hrest
        have hlt := (length_of_parseString hparse).1
        dsimp only
        refine ⟨by omega, fun value' heq => ?_⟩
        injection heq with heq
        subst heq
        omega
      . injection h with heq
        injection heq with htoken hrest
        subst htoken hrest
        have hle := (List.dropWhile_suffix isWordChar (l := text)).length_le
        refine ⟨by omega, fun value heq => ?_⟩
        cases heq

theorem lex.go_eq_go {fuel fuel' : Nat} {text : List Char} (h : text.length < fuel)
    (h' : text.length < fuel') : go fuel text = go fuel' text := by
  induction fuel generalizing fuel' text with
  | zero => cases h
  | succ fuel ih =>
    cases fuel' with
    | zero => cases h'
    | succ fuel' =>
      cases text with
      | nil => rfl
      | cons c text =>
        rw [List.length_cons] at h h'
        rw [go, go]
        dsimp only
        split
        . exact ih (by omega) (by omega)
        . cases htoken : lexToken (c :: text) with
          | none => rfl
          | some result =>
            have hlt := (length_of_lexToken htoken).1
            rw [List.length_cons] at hlt
            have hgo : go fuel result.2 = go fuel' result.2 := ih (by omega) (by omega)
            simp only [Option.bind_eq_bind, Option.bind_some]
            rw [hgo]

theorem lex_nil : lex [] = some [] := by
  rfl

/--
The text starts with the tokens, and the rest follows them.
-/
def Lexes (text : List Char) (tokens : List Token) (rest : List Char) : Prop :=
  lex text = (lex rest).map (tokens ++ ·)

theorem Lexes.trans {text middle rest : List Char} {tokens tokens' : List Token}
    (h : Lexes text tokens middle) (h' : Lexes middle tokens' rest)
    : Lexes text (tokens ++ tokens') rest := by
  unfold Lexes at h h' ⊢
  rw [h, h', Option.map_map]
  simp only [Function.comp_def, List.append_assoc]

theorem Lexes.space {c : Char} (h : isSpace c = true) (text : List Char)
    : Lexes (c :: text) [] text := by
  have hlex : lex (c :: text) = lex text := by
    unfold lex
    rw [List.length_cons, lex.go]
    dsimp only
    rw [if_pos h]
  unfold Lexes
  rw [hlex]
  exact (congrFun Option.map_id (lex text)).symm

theorem lex_of_lexToken_eq_none {c : Char} {text : List Char} (hspace : isSpace c = false)
    (h : lexToken (c :: text) = none) : lex (c :: text) = none := by
  unfold lex
  rw [List.length_cons, lex.go]
  dsimp only
  rw [hspace, h]
  rfl

theorem Lexes.token {c : Char} {text rest : List Char} {token : Token}
    (hspace : isSpace c = false) (h : lexToken (c :: text) = some (token, rest))
    : Lexes (c :: text) [token] rest := by
  have hlt := (length_of_lexToken h).1
  unfold Lexes lex
  rw [List.length_cons] at hlt ⊢
  rw [lex.go]
  dsimp only
  rw [hspace, h]
  simp only [Bool.false_eq_true, if_false, Option.bind_eq_bind, Option.bind_some]
  rw [lex.go_eq_go (by omega) (Nat.lt_succ_self rest.length)]
  cases lex.go (rest.length + 1) rest <;> rfl

theorem Lexes.punctuation {c : Char} {token : Token} (h : Json.punctuation c = some token)
    (text : List Char) : Lexes (c :: text) [token] text := by
  have hspace : isSpace c = false := by
    unfold Json.punctuation at h
    split at h
    all_goals first | rfl | cases h
  have htoken : lexToken (c :: text) = some (token, text) := by
    unfold lexToken
    dsimp only
    rw [h]
  exact Lexes.token hspace htoken

theorem lex_quote_of_parseString_eq_none {text : List Char} (h : parseString text = none)
    : lex ('"' :: text) = none := by
  have htoken : lexToken ('"' :: text) = (parseString text).map fun result =>
      (.string result.1, result.2) := by
    rfl
  rw [h] at htoken
  exact lex_of_lexToken_eq_none rfl htoken

theorem Lexes.quote {value : String} {text rest : List Char}
    (h : parseString text = some (value, rest)) : Lexes ('"' :: text) [.string value] rest := by
  have htoken : lexToken ('"' :: text) = (parseString text).map fun result =>
      (.string result.1, result.2) := by
    rfl
  rw [h] at htoken
  exact Lexes.token rfl htoken

theorem Lexes.string (value : String) (text : List Char)
    : Lexes ('"' :: (escape value.toList ++ '"' :: text)) [.string value] text :=
  Lexes.quote (parseString_escape value text)

/--
A word ends where no other character of a word follows.
-/
theorem Lexes.word {chars text : List Char} (hne : chars ≠ [])
    (hchars : ∀ c ∈ chars, isWordChar c = true)
    (htext : ∀ c, text.head? = some c → isWordChar c = false)
    : Lexes (chars ++ text) [.word chars] text := by
  cases chars with
  | nil => contradiction
  | cons c chars =>
    rw [List.forall_mem_cons] at hchars
    have hc := hchars.1
    unfold isWordChar at hc
    simp only [Bool.and_eq_true, Bool.not_eq_true', decide_eq_true_eq,
      Option.isNone_iff_eq_none] at hc
    rcases hc with ⟨⟨hspace, hquote⟩, hpunctuation⟩
    have htake : (chars ++ text).takeWhile isWordChar = chars := by
      rw [List.takeWhile_append_of_pos hchars.2]
      cases text with
      | nil => rw [List.takeWhile_nil, List.append_nil]
      | cons d text =>
        rw [List.takeWhile_cons_of_neg (by simp [htext d rfl]), List.append_nil]
    have hdrop : (chars ++ text).dropWhile isWordChar = text := by
      rw [List.dropWhile_append_of_pos hchars.2]
      cases text with
      | nil => rfl
      | cons d text => exact List.dropWhile_cons_of_neg (by simp [htext d rfl])
    have htoken : lexToken (c :: (chars ++ text)) = some (.word (c :: chars), text) := by
      unfold lexToken
      dsimp only
      rw [hpunctuation]
      dsimp only
      rw [if_neg hquote, htake, hdrop]
    exact Lexes.token hspace htoken

theorem isWordChar_of_isDigit {c : Char} (h : c.isDigit = true) : isWordChar c = true := by
  have hne : ∀ d, d.isDigit = false → c ≠ d := by
    rintro d hd rfl
    rw [h] at hd
    cases hd
  have hpunctuation : punctuation c = none := by
    unfold punctuation
    split <;> first | cases h | rfl
  unfold isWordChar isSpace
  rw [hpunctuation]
  simp [hne ' ' (by decide), hne '\t' (by decide), hne '\n' (by decide), hne '\r' (by decide),
    hne '"' (by decide)]

section Literal

variable {text : List Char}

theorem isWordChar_of_isDigits (h : JsonNumber.isDigits text = true)
    : ∀ c ∈ text, isWordChar c = true := by
  unfold JsonNumber.isDigits at h
  rw [Bool.and_eq_true, List.all_eq_true] at h
  exact fun c hmem => isWordChar_of_isDigit (h.2 c hmem)

theorem isWordChar_of_isExponent (h : JsonNumber.isExponent text = true)
    : ∀ c ∈ text, isWordChar c = true := by
  cases text with
  | nil => exact fun c hmem => by cases hmem
  | cons c text =>
    rw [JsonNumber.isExponent, Bool.and_eq_true] at h
    rw [List.forall_mem_cons]
    refine ⟨?_, ?_⟩
    . have hletter := h.1
      rw [Bool.or_eq_true, decide_eq_true_eq, decide_eq_true_eq] at hletter
      rcases hletter with rfl | rfl <;> decide
    . have hdigits := isWordChar_of_isDigits h.2
      split at hdigits
      . next hsign =>
        cases text with
        | nil => exact fun c hmem => by cases hmem
        | cons sign text =>
          rw [List.forall_mem_cons]
          refine ⟨?_, hdigits⟩
          simp only [List.head?_cons, Option.some.injEq, Bool.or_eq_true,
            decide_eq_true_eq] at hsign
          rcases hsign with rfl | rfl <;> decide
      . exact hdigits

theorem isWordChar_of_isFraction (h : JsonNumber.isFraction text = true)
    : ∀ c ∈ text, isWordChar c = true := by
  unfold JsonNumber.isFraction at h
  split at h
  . next hpoint =>
    cases text with
    | nil => cases hpoint
    | cons point text =>
      injection hpoint with hpoint
      subst hpoint
      rw [Bool.and_eq_true] at h
      rw [List.forall_mem_cons]
      refine ⟨by decide, fun c hmem => ?_⟩
      rw [← List.takeWhile_append_dropWhile (p := (·.isDigit)) (l := text), List.mem_append] at hmem
      rcases hmem with hmem | hmem
      . exact isWordChar_of_isDigits h.1 c hmem
      . exact isWordChar_of_isExponent h.2 c hmem
  . exact isWordChar_of_isExponent h

theorem isWordChar_of_isUnsigned (h : JsonNumber.isUnsigned text = true)
    : text ≠ [] ∧ ∀ c ∈ text, isWordChar c = true := by
  unfold JsonNumber.isUnsigned at h
  dsimp only at h
  rw [Bool.and_eq_true, Bool.and_eq_true] at h
  refine ⟨?_, fun c hmem => ?_⟩
  . rintro rfl
    cases h.1.1
  . rw [← List.takeWhile_append_dropWhile (p := (·.isDigit)) (l := text), List.mem_append] at hmem
    rcases hmem with hmem | hmem
    . exact isWordChar_of_isDigits h.1.1 c hmem
    . exact isWordChar_of_isFraction h.2 c hmem

theorem isWordChar_of_isLiteral (h : JsonNumber.isLiteral text = true)
    : text ≠ [] ∧ ∀ c ∈ text, isWordChar c = true := by
  unfold JsonNumber.isLiteral at h
  split at h
  . next hsign =>
    cases text with
    | nil => cases hsign
    | cons sign text =>
      injection hsign with hsign
      subst hsign
      refine ⟨List.cons_ne_nil _ _, ?_⟩
      rw [List.forall_mem_cons]
      exact ⟨by decide, (isWordChar_of_isUnsigned h).2⟩
  . exact isWordChar_of_isUnsigned h

end Literal

theorem textOf_singleton (token : Token) : textOf [token] = token.text := by
  unfold textOf
  rw [List.flatMap_singleton]

theorem textOf_cons (token : Token) (tokens tokens' : List Token)
    : textOf (token :: (tokens ++ tokens')) = token.text ++ (textOf tokens ++ textOf tokens') := by
  unfold textOf
  rw [List.flatMap_cons, List.flatMap_append]

theorem head?_compact {json : Json} (h : json.compact.head? = some '"')
    : ∃ value, json = .string value := by
  unfold compact textOf at h
  cases json with
  | string value => exact ⟨value, rfl⟩
  | null => cases h
  | bool value => cases value <;> cases h
  | number value =>
    rw [tokens, List.flatMap_singleton] at h
    have hchars := (isWordChar_of_isLiteral value.valid).2 _ (List.mem_of_head? h)
    cases hchars
  | array values => cases values <;> cases h
  | object members => cases members <;> cases h

theorem exists_compact (json : Json) : ∃ head tail, json.compact = head :: tail := by
  unfold compact textOf
  cases json with
  | null => exact ⟨_, _, rfl⟩
  | bool value => cases value <;> exact ⟨_, _, rfl⟩
  | number value =>
    rw [tokens, List.flatMap_singleton]
    exact List.exists_cons_of_ne_nil (isWordChar_of_isLiteral value.valid).1
  | string value => exact ⟨_, _, rfl⟩
  | array values => cases values <;> exact ⟨_, _, rfl⟩
  | object members => cases members <;> exact ⟨_, _, rfl⟩

/--
A string is shorter than a text that has it as a token.
-/
theorem length_of_mem_lex {value : String} {text : List Char} {tokens : List Token}
    (h : lex text = some tokens) (hmem : Token.string value ∈ tokens)
    : value.toList.length + 1 < text.length := by
  unfold lex at h
  generalize text.length + 1 = fuel at h
  induction fuel generalizing text tokens with
  | zero => cases h
  | succ fuel ih =>
    cases text with
    | nil =>
      injection h with heq
      subst heq
      cases hmem
    | cons c text =>
      rw [lex.go] at h
      dsimp only at h
      split at h
      . have hlt := ih hmem h
        rw [List.length_cons]
        omega
      . rw [Option.bind_eq_bind, Option.bind_eq_some_iff] at h
        rcases h with ⟨⟨token, rest⟩, htoken, h⟩
        rw [Option.bind_eq_bind, Option.bind_eq_some_iff] at h
        rcases h with ⟨tokens', hgo, heq⟩
        injection heq with heq
        subst heq
        have hlength := length_of_lexToken htoken
        rcases List.mem_cons.mp hmem with heq | hmem
        . have hlt := hlength.2 value heq.symm
          omega
        . have hlt := ih hmem hgo
          dsimp only at hlt
          omega

/--
The objects of a value as the maps of their members.
-/
def ordered (json : Json) : Json :=
  match json with
  | .null => .null
  | .bool value => .bool value
  | .number value => .number value
  | .string value => .string value
  | .array values => .array (values.map ordered)
  | .object members => .object (ofMembers (members.map fun member => (member.1, ordered member.2)))
decreasing_by
  . exact Nat.lt_trans (List.sizeOf_lt_of_mem ‹_›) (by simp)
  . next hmem =>
    have hlt := List.sizeOf_lt_of_mem hmem
    have hmember : sizeOf member = 1 + sizeOf member.1 + sizeOf member.2 := rfl
    simp only [object.sizeOf_spec]
    omega

/--
The members of every object are sorted by their keys, which are distinct.
-/
inductive IsOrdered : Json → Prop where
  | null : IsOrdered .null
  | bool (value : Bool) : IsOrdered (.bool value)
  | number (value : JsonNumber) : IsOrdered (.number value)
  | string (value : String) : IsOrdered (.string value)
  | array {values : List Json} : (∀ value ∈ values, IsOrdered value) → IsOrdered (.array values)
  | object {members : List (String × Json)} : (members.map (·.1)).Pairwise (· < ·)
    → (∀ member ∈ members, IsOrdered member.2) → IsOrdered (.object members)

theorem exists_tokens (json : Json)
    : ∃ head tail, tokens json = head :: tail ∧ head ≠ .closeBracket ∧ head ≠ .colon := by
  cases json with
  | bool value => cases value <;> exact ⟨_, _, by rw [tokens], by decide, by decide⟩
  | array values => cases values <;> exact ⟨_, _, by rw [tokens], by decide, by decide⟩
  | object members => cases members <;> exact ⟨_, _, by rw [tokens], by decide, by decide⟩
  | null => exact ⟨_, _, by rw [tokens], by decide, by decide⟩
  | number value => exact ⟨_, _, by rw [tokens], by simp, by simp⟩
  | string value => exact ⟨_, _, by rw [tokens], by simp, by simp⟩

theorem scalar_literal (value : JsonNumber) : scalar value.literal = some (.number value) := by
  rcases value with ⟨literal, valid⟩
  unfold scalar
  have hne : ∀ chars, JsonNumber.isLiteral chars = false → literal ≠ chars := by
    rintro chars hchars rfl
    rw [valid] at hchars
    cases hchars
  rw [if_neg (hne _ (by decide)), if_neg (hne _ (by decide)), if_neg (hne _ (by decide)),
    dif_pos valid]

/--
The parser reads a value from its tokens.
-/
def Reads (json : Json) : Prop :=
  ∀ fuel rest, (tokens json).length < fuel →
    parseValue fuel (tokens json ++ rest) = some (ordered json, rest)

theorem parseValues_tokensOfValues {values : List Json} (h : ∀ value ∈ values, Reads value)
    {fuel : Nat} (hfuel : (tokensOfValues values).length < fuel) (rest : List Token)
    : parseValues fuel (tokensOfValues values ++ rest) = some (values.map ordered, rest) := by
  induction values generalizing fuel with
  | nil =>
    cases fuel with
    | zero => cases hfuel
    | succ fuel =>
      rw [tokensOfValues, List.singleton_append, parseValues]
      rfl
  | cons value values ih =>
    cases fuel with
    | zero => cases hfuel
    | succ fuel =>
      rw [List.forall_mem_cons] at h
      rw [tokensOfValues, List.length_cons, List.length_append] at hfuel
      rw [tokensOfValues, List.cons_append, List.append_assoc, parseValues]
      simp only [Option.bind_eq_bind]
      rw [h.1 fuel _ (by omega), Option.bind_some]
      dsimp only
      rw [ih h.2 (by omega)]
      rfl

theorem parseMember_tokensOfMember {member : String × Json} (h : Reads member.2) {fuel : Nat}
    (hfuel : (tokensOfMember member).length < fuel) (rest : List Token)
    : parseMember fuel (tokensOfMember member ++ rest)
        = some ((member.1, ordered member.2), rest) := by
  rcases member with ⟨key, value⟩
  cases fuel with
  | zero => cases hfuel
  | succ fuel =>
    rw [tokensOfMember, List.length_cons, List.length_cons] at hfuel
    rw [tokensOfMember, List.cons_append, List.cons_append, parseMember]
    simp only [Option.bind_eq_bind]
    rw [h fuel _ (Nat.lt_of_succ_lt (Nat.lt_of_succ_lt_succ hfuel))]
    rfl

theorem parseMembers_tokensOfMembers {members : List (String × Json)}
    (h : ∀ member ∈ members, Reads member.2) {fuel : Nat}
    (hfuel : (tokensOfMembers members).length < fuel) (rest : List Token)
    : parseMembers fuel (tokensOfMembers members ++ rest)
        = some (members.map fun member => (member.1, ordered member.2), rest) := by
  induction members generalizing fuel with
  | nil =>
    cases fuel with
    | zero => cases hfuel
    | succ fuel =>
      rw [tokensOfMembers, List.singleton_append, parseMembers]
      rfl
  | cons member members ih =>
    cases fuel with
    | zero => cases hfuel
    | succ fuel =>
      rw [List.forall_mem_cons] at h
      rw [tokensOfMembers, List.length_cons, List.length_append] at hfuel
      rw [tokensOfMembers, List.cons_append, List.append_assoc, parseMembers]
      simp only [Option.bind_eq_bind]
      rw [parseMember_tokensOfMember h.1 (by omega), Option.bind_some]
      dsimp only
      rw [ih h.2 (by omega)]
      rfl

theorem reads (json : Json) : Reads json := by
  induction json using Json.induction with
  | null =>
    intro fuel rest hfuel
    cases fuel with
    | zero => cases hfuel
    | succ fuel =>
      rw [tokens, ordered, List.singleton_append, parseValue]
      rfl
  | bool value =>
    intro fuel rest hfuel
    cases fuel with
    | zero => cases hfuel
    | succ fuel =>
      cases value <;>
      . rw [tokens, ordered, List.singleton_append, parseValue]
        rfl
  | number value =>
    intro fuel rest hfuel
    cases fuel with
    | zero => cases hfuel
    | succ fuel =>
      rw [tokens, ordered, List.singleton_append, parseValue, scalar_literal, Option.map_some]
  | string value =>
    intro fuel rest hfuel
    cases fuel with
    | zero => cases hfuel
    | succ fuel =>
      rw [tokens, ordered, List.singleton_append, parseValue]
  | array values ih =>
    intro fuel rest hfuel
    cases fuel with
    | zero => cases hfuel
    | succ fuel =>
      cases values with
      | nil =>
        rw [tokens, ordered, List.cons_append, parseValue]
        rfl
      | cons value values =>
        rw [List.forall_mem_cons] at ih
        have hhead : (tokens value ++ (tokensOfValues values ++ rest)).head?
            ≠ some .closeBracket := by
          rcases exists_tokens value with ⟨head, tail, heq, hne, -⟩
          rw [heq]
          simpa using hne
        rw [tokens, List.length_cons, List.length_append] at hfuel
        rw [tokens, List.cons_append, List.append_assoc, parseValue, if_neg hhead]
        simp only [Option.bind_eq_bind]
        rw [ih.1 fuel _ (by omega), Option.bind_some]
        dsimp only
        rw [parseValues_tokensOfValues ih.2 (by omega), ordered]
        rfl
  | object members ih =>
    intro fuel rest hfuel
    cases fuel with
    | zero => cases hfuel
    | succ fuel =>
      cases members with
      | nil =>
        rw [tokens, ordered, List.cons_append, parseValue]
        rfl
      | cons member members =>
        rw [List.forall_mem_cons] at ih
        have hhead : (tokensOfMember member ++ (tokensOfMembers members ++ rest)).head?
            ≠ some .closeBrace := by
          rcases member with ⟨key, value⟩
          rw [tokensOfMember]
          simp
        rw [tokens, List.length_cons, List.length_append] at hfuel
        rw [tokens, List.cons_append, List.append_assoc, parseValue, if_neg hhead]
        simp only [Option.bind_eq_bind]
        rw [parseMember_tokensOfMember ih.1 (by omega), Option.bind_some]
        dsimp only
        rw [parseMembers_tokensOfMembers ih.2 (by omega), ordered]
        rfl

theorem ordered_eq_self {json : Json} (h : IsOrdered json) : ordered json = json := by
  induction h with
  | null => rw [ordered]
  | bool value => rw [ordered]
  | number value => rw [ordered]
  | string value => rw [ordered]
  | @array values _ ih =>
    have hvalues : values.map ordered = values.map id := List.map_congr_left ih
    rw [ordered, hvalues, List.map_id]
  | @object members hsorted _ ih =>
    have hmembers : (members.map fun member => (member.1, ordered member.2)) = members.map id :=
      List.map_congr_left fun member hmember => Prod.ext rfl (ih member hmember)
    rw [ordered, hmembers, List.map_id, ofMembers_of_pairwise hsorted]

/--
The parser leaves the tokens after what it reads, and the strings that it reads are tokens.
-/
structure ReadsFrom (fuel : Nat) : Prop where
  value : ∀ {tokens json rest}, parseValue fuel tokens = some (json, rest) →
    rest <:+ tokens ∧ ∀ s, json = .string s → Token.string s ∈ tokens
  values : ∀ {tokens values rest}, parseValues fuel tokens = some (values, rest) → rest <:+ tokens
  member : ∀ {tokens member rest}, parseMember fuel tokens = some (member, rest) →
    rest <:+ tokens ∧ ∀ s, member.2 = .string s → Token.string s ∈ tokens
  members : ∀ {tokens members rest}, parseMembers fuel tokens = some (members, rest) →
    rest <:+ tokens ∧ ∀ member ∈ members, ∀ s, member.2 = .string s → Token.string s ∈ tokens

section ReadsFrom

variable {fuel : Nat} {tokens rest : List Token}

theorem suffix_of_parseValue (ih : ReadsFrom fuel) {json : Json}
    (h : parseValue (fuel + 1) tokens = some (json, rest))
    : rest <:+ tokens ∧ ∀ s, json = .string s → Token.string s ∈ tokens := by
  rw [parseValue.eq_def] at h
  dsimp only at h
  split at h
  . next chars tokens =>
    rcases Option.map_eq_some_iff.mp h with ⟨json', hscalar, heq⟩
    injection heq with hjson hrest
    subst hjson hrest
    refine ⟨List.suffix_cons _ _, ?_⟩
    rintro s rfl
    unfold scalar at hscalar
    split at hscalar
    . cases hscalar
    . split at hscalar
      . cases hscalar
      . split at hscalar
        . cases hscalar
        . split at hscalar <;> cases hscalar
  . injection h with heq
    injection heq with hjson hrest
    subst hjson hrest
    refine ⟨List.suffix_cons _ _, ?_⟩
    rintro s heq
    injection heq with heq
    subst heq
    exact List.mem_cons_self
  . next tokens =>
    split at h
    . injection h with heq
      injection heq with hjson hrest
      subst hjson hrest
      exact ⟨(List.tail_suffix _).trans (List.suffix_cons _ _), fun s heq => by cases heq⟩
    . rw [Option.bind_eq_bind, Option.bind_eq_some_iff] at h
      rcases h with ⟨⟨value, middle⟩, hvalue, h⟩
      rw [Option.bind_eq_bind, Option.bind_eq_some_iff] at h
      rcases h with ⟨⟨values, last⟩, hvalues, h⟩
      injection h with heq
      injection heq with hjson hrest
      subst hjson hrest
      refine ⟨?_, fun s heq => by cases heq⟩
      exact ((ih.values hvalues).trans (ih.value hvalue).1).trans (List.suffix_cons _ _)
  . next tokens =>
    split at h
    . injection h with heq
      injection heq with hjson hrest
      subst hjson hrest
      exact ⟨(List.tail_suffix _).trans (List.suffix_cons _ _), fun s heq => by cases heq⟩
    . rw [Option.bind_eq_bind, Option.bind_eq_some_iff] at h
      rcases h with ⟨⟨member, middle⟩, hmember, h⟩
      rw [Option.bind_eq_bind, Option.bind_eq_some_iff] at h
      rcases h with ⟨⟨members, last⟩, hmembers, h⟩
      injection h with heq
      injection heq with hjson hrest
      subst hjson hrest
      refine ⟨?_, fun s heq => by cases heq⟩
      exact ((ih.members hmembers).1.trans (ih.member hmember).1).trans (List.suffix_cons _ _)
  . cases h

theorem suffix_of_parseValues (ih : ReadsFrom fuel) {values : List Json}
    (h : parseValues (fuel + 1) tokens = some (values, rest)) : rest <:+ tokens := by
  rw [parseValues.eq_def] at h
  dsimp only at h
  split at h
  . injection h with heq
    injection heq with _ hrest
    subst hrest
    exact List.suffix_cons _ _
  . rw [Option.bind_eq_bind, Option.bind_eq_some_iff] at h
    rcases h with ⟨⟨value, middle⟩, hvalue, h⟩
    rw [Option.bind_eq_bind, Option.bind_eq_some_iff] at h
    rcases h with ⟨⟨values, last⟩, hvalues, h⟩
    injection h with heq
    injection heq with _ hrest
    subst hrest
    exact ((ih.values hvalues).trans (ih.value hvalue).1).trans (List.suffix_cons _ _)
  . cases h

theorem suffix_of_parseMember (ih : ReadsFrom fuel) {member : String × Json}
    (h : parseMember (fuel + 1) tokens = some (member, rest))
    : rest <:+ tokens ∧ ∀ s, member.2 = .string s → Token.string s ∈ tokens := by
  rw [parseMember.eq_def] at h
  dsimp only at h
  split at h
  . next key tokens =>
    rw [Option.bind_eq_bind, Option.bind_eq_some_iff] at h
    rcases h with ⟨⟨value, last⟩, hvalue, h⟩
    injection h with heq
    injection heq with hmember hrest
    subst hmember hrest
    have hsuffix : tokens <:+ .string key :: .colon :: tokens :=
      (List.suffix_cons _ _).trans (List.suffix_cons _ _)
    refine ⟨(ih.value hvalue).1.trans hsuffix, fun s heq => ?_⟩
    exact hsuffix.subset ((ih.value hvalue).2 s heq)
  . cases h

theorem suffix_of_parseMembers (ih : ReadsFrom fuel) {members : List (String × Json)}
    (h : parseMembers (fuel + 1) tokens = some (members, rest))
    : rest <:+ tokens
        ∧ ∀ member ∈ members, ∀ s, member.2 = .string s → Token.string s ∈ tokens := by
  rw [parseMembers.eq_def] at h
  dsimp only at h
  split at h
  . injection h with heq
    injection heq with hmembers hrest
    subst hmembers hrest
    exact ⟨List.suffix_cons _ _, fun member hmember => by cases hmember⟩
  . next tokens =>
    rw [Option.bind_eq_bind, Option.bind_eq_some_iff] at h
    rcases h with ⟨⟨member, middle⟩, hmember, h⟩
    rw [Option.bind_eq_bind, Option.bind_eq_some_iff] at h
    rcases h with ⟨⟨members, last⟩, hmembers, h⟩
    injection h with heq
    injection heq with heq hrest
    subst heq hrest
    have hmiddle := (ih.member hmember).1.trans (List.suffix_cons .comma _)
    refine ⟨(ih.members hmembers).1.trans hmiddle, fun member' hmem s heq => ?_⟩
    rcases List.mem_cons.mp hmem with rfl | hmem
    . exact List.mem_cons_of_mem _ ((ih.member hmember).2 s heq)
    . exact hmiddle.subset ((ih.members hmembers).2 member' hmem s heq)
  . cases h

end ReadsFrom

theorem readsFrom (fuel : Nat) : ReadsFrom fuel := by
  induction fuel with
  | zero =>
    exact {
      value := fun h => by cases h
      values := fun h => by cases h
      member := fun h => by cases h
      members := fun h => by cases h
    }
  | succ fuel ih =>
    exact {
      value := suffix_of_parseValue ih
      values := suffix_of_parseValues ih
      member := suffix_of_parseMember ih
      members := suffix_of_parseMembers ih
    }

end Json
