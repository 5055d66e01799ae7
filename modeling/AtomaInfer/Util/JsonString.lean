import AtomaInfer.Util.Json

/-!
The characters of a JSON string: how they are escaped, and how they are read back.
-/

namespace Json

/--
The control characters, which a string may not contain as they are.
-/
def isControl (c : Char) : Bool :=
  decide (c.toNat < 0x20)

/--
The letter that stands for a character after a backslash.
-/
def escapeLetter (c : Char) : Option Char :=
  match c with
  | '"' => some '"'
  | '\\' => some '\\'
  | '\x08' => some 'b'
  | '\x0c' => some 'f'
  | '\n' => some 'n'
  | '\r' => some 'r'
  | '\t' => some 't'
  | _ => none

def hexDigit (n : Nat) : Char :=
  Char.ofNat (if n < 10 then '0'.toNat + n else 'a'.toNat + (n - 10))

def escapeChar (c : Char) : List Char :=
  match escapeLetter c with
  | some letter => ['\\', letter]
  | none =>
    if isControl c then
      ['\\', 'u', '0', '0', hexDigit (c.toNat / 16), hexDigit (c.toNat % 16)]
    else
      [c]

/--
The characters of a string between its quotes.
-/
def escape (text : List Char) : List Char :=
  text.flatMap escapeChar

/--
The character that a letter after a backslash stands for.
-/
def unescapeLetter (c : Char) : Option Char :=
  match c with
  | '"' => some '"'
  | '\\' => some '\\'
  | '/' => some '/'
  | 'b' => some '\x08'
  | 'f' => some '\x0c'
  | 'n' => some '\n'
  | 'r' => some '\r'
  | 't' => some '\t'
  | _ => none

def hexValue (c : Char) : Option Nat :=
  if '0' ≤ c ∧ c ≤ '9' then
    some (c.toNat - '0'.toNat)
  else if 'a' ≤ c ∧ c ≤ 'f' then
    some (c.toNat - 'a'.toNat + 10)
  else if 'A' ≤ c ∧ c ≤ 'F' then
    some (c.toNat - 'A'.toNat + 10)
  else
    none

/--
Four hexadecimal digits.
-/
def parseHex (text : List Char) : Option (Nat × List Char) :=
  match text with
  | a :: b :: c :: d :: text => do
    let a ← hexValue a
    let b ← hexValue b
    let c ← hexValue c
    let d ← hexValue d
    return (((a * 16 + b) * 16 + c) * 16 + d, text)
  | _ => none

/--
What follows `\u`. A character above 0xffff is written as two surrogates.
-/
def parseUnicode (text : List Char) : Option (Char × List Char) := do
  let (n, text) ← parseHex text
  if 0xd800 ≤ n ∧ n < 0xdc00 then
    match text with
    | backslash :: letter :: text =>
      if backslash = '\\' ∧ letter = 'u' then
        let (m, text) ← parseHex text
        if 0xdc00 ≤ m ∧ m < 0xe000 then
          return (Char.ofNat (0x10000 + (n - 0xd800) * 0x400 + (m - 0xdc00)), text)
        else
          none
      else
        none
    | _ => none
  else if 0xdc00 ≤ n ∧ n < 0xe000 then
    none
  else
    return (Char.ofNat n, text)

/--
One character of a string.
-/
def parseChar (text : List Char) : Option (Char × List Char) :=
  match text with
  | [] => none
  | c :: text =>
    if c = '\\' then
      match text with
      | [] => none
      | letter :: text =>
        if letter = 'u' then
          parseUnicode text
        else
          (unescapeLetter letter).map fun c => (c, text)
    else if c = '"' ∨ isControl c then
      none
    else
      some (c, text)

/--
The characters of a string up to the closing quote.
-/
def parseString.go (fuel : Nat) (text : List Char) : Option (List Char × List Char) :=
  match fuel with
  | 0 => none
  | fuel + 1 =>
    if text.head? = some '"' then
      some ([], text.tail)
    else do
      let (c, text) ← parseChar text
      let (chars, text) ← go fuel text
      return (c :: chars, text)

def parseString (text : List Char) : Option (String × List Char) :=
  (parseString.go text.length text).map fun result => (String.ofList result.1, result.2)

theorem hexValue_hexDigit {n : Nat} (h : n < 16) : hexValue (hexDigit n) = some n := by
  decide +revert

theorem hexValue_zero : hexValue '0' = some 0 := by
  decide

theorem toNat_escapeLetter {c letter : Char} (h : escapeLetter c = some letter)
    : letter ≠ 'u' ∧ unescapeLetter letter = some c := by
  unfold escapeLetter at h
  split at h <;> cases h <;> decide

theorem parseChar_escapeChar (c : Char) (text : List Char)
    : parseChar (escapeChar c ++ text) = some (c, text) := by
  unfold escapeChar
  cases hletter : escapeLetter c with
  | some letter =>
    rcases toNat_escapeLetter hletter with ⟨hne, hunescape⟩
    simp [parseChar, hne, hunescape]
  | none =>
    dsimp only
    have hquote : c ≠ '"' := by
      rintro rfl
      cases hletter
    have hbackslash : c ≠ '\\' := by
      rintro rfl
      cases hletter
    split
    . next hcontrol =>
      unfold isControl at hcontrol
      rw [decide_eq_true_eq] at hcontrol
      have hhigh := hexValue_hexDigit (n := c.toNat / 16) (by omega)
      have hlow := hexValue_hexDigit (n := c.toNat % 16) (by omega)
      have hvalue : ((0 * 16 + 0) * 16 + c.toNat / 16) * 16 + c.toNat % 16 = c.toNat := by
        omega
      simp only [List.cons_append, List.nil_append, parseChar, if_true]
      simp only [parseUnicode, parseHex, hexValue_zero, hhigh, hlow, Option.bind_eq_bind,
        Option.bind_some, Option.pure_def, hvalue]
      rw [if_neg (by omega), if_neg (by omega), Char.ofNat_toNat]
    . next hcontrol =>
      simp [parseChar, hquote, hbackslash, hcontrol]

/--
The characters that a string has as they are.
-/
def IsPlain (c : Char) : Prop :=
  c ≠ '"' ∧ c ≠ '\\' ∧ isControl c = false

instance : DecidablePred IsPlain :=
  fun c => inferInstanceAs (Decidable (c ≠ '"' ∧ c ≠ '\\' ∧ isControl c = false))

theorem escapeChar_of_isPlain {c : Char} (h : IsPlain c) : escapeChar c = [c] := by
  unfold escapeChar escapeLetter
  rcases h with ⟨hquote, hbackslash, hcontrol⟩
  split
  . next letter hletter =>
    split at hletter <;> contradiction
  . rw [hcontrol]
    rfl

theorem escape_of_isPlain {chars : List Char} (h : ∀ c ∈ chars, IsPlain c)
    : escape chars = chars := by
  induction chars with
  | nil => rfl
  | cons c chars ih =>
    rw [List.forall_mem_cons] at h
    unfold escape at ih ⊢
    rw [List.flatMap_cons, ih h.2, escapeChar_of_isPlain h.1]
    rfl

/--
No escaped character starts with a quote.
-/
theorem exists_escapeChar (c : Char)
    : ∃ head tail, escapeChar c = head :: tail ∧ head ≠ '"' ∧ (head = ':' → c = ':') := by
  unfold escapeChar
  cases hletter : escapeLetter c with
  | some letter =>
    exact ⟨'\\', [letter], rfl, by decide, fun heq => absurd heq (by decide)⟩
  | none =>
    dsimp only
    split
    . exact ⟨'\\', _, rfl, by decide, fun heq => absurd heq (by decide)⟩
    . refine ⟨c, [], rfl, ?_, id⟩
      rintro rfl
      cases hletter

theorem quote_notMem_escapeChar {c : Char} (h : c ≠ '"') : '"' ∉ escapeChar c := by
  unfold escapeChar
  cases hletter : escapeLetter c with
  | some letter =>
    unfold escapeLetter at hletter
    split at hletter <;> cases hletter <;> first | contradiction | decide
  | none =>
    dsimp only
    split
    . next hcontrol =>
      unfold isControl at hcontrol
      rw [decide_eq_true_eq] at hcontrol
      have hdigit : ∀ n < 16, hexDigit n ≠ '"' := by decide
      have hhigh := hdigit (c.toNat / 16) (by omega)
      have hlow := hdigit (c.toNat % 16) (by omega)
      simp [hhigh.symm, hlow.symm]
    . simpa using h.symm

theorem parseString.go_escape {fuel : Nat} {chars : List Char} (hfuel : chars.length < fuel)
    (text : List Char) : go fuel (escape chars ++ '"' :: text) = some (chars, text) := by
  induction chars generalizing fuel with
  | nil =>
    cases fuel with
    | zero => cases hfuel
    | succ fuel => rfl
  | cons c chars ih =>
    cases fuel with
    | zero => cases hfuel
    | succ fuel =>
      have hhead : (escapeChar c ++ (escape chars ++ '"' :: text)).head? ≠ some '"' := by
        rcases exists_escapeChar c with ⟨head, tail, heq, hne, -⟩
        rw [heq]
        simpa using hne
      have hescape : escape (c :: chars) = escapeChar c ++ escape chars := by
        unfold escape
        rw [List.flatMap_cons]
      rw [hescape, List.append_assoc, go, if_neg hhead, parseChar_escapeChar]
      simp only [Option.bind_eq_bind, Option.bind_some]
      rw [ih (Nat.lt_of_succ_lt_succ hfuel)]
      rfl

theorem length_le_length_escape (chars : List Char) : chars.length ≤ (escape chars).length := by
  induction chars with
  | nil => exact Nat.le_refl _
  | cons c chars ih =>
    rcases exists_escapeChar c with ⟨head, tail, heq, -⟩
    unfold escape at ih ⊢
    rw [List.flatMap_cons, List.length_append, heq, List.length_cons, List.length_cons]
    omega

theorem parseString_escape (value : String) (text : List Char)
    : parseString (escape value.toList ++ '"' :: text) = some (value, text) := by
  have hfuel : value.toList.length < (escape value.toList ++ '"' :: text).length := by
    have hle := length_le_length_escape value.toList
    rw [List.length_append, List.length_cons]
    omega
  unfold parseString
  rw [parseString.go_escape hfuel, Option.map_some, String.ofList_toList]

theorem length_of_parseHex {n : Nat} {text rest : List Char} (h : parseHex text = some (n, rest))
    : rest.length < text.length := by
  unfold parseHex at h
  split at h
  . next a b c d text =>
    simp only [Option.bind_eq_bind, Option.bind_eq_some_iff, Option.pure_def] at h
    rcases h with ⟨_, -, _, -, _, -, _, -, heq⟩
    injection heq with heq
    injection heq with _ heq
    subst heq
    simp only [List.length_cons]
    omega
  . cases h

theorem length_of_parseUnicode {c : Char} {text rest : List Char}
    (h : parseUnicode text = some (c, rest)) : rest.length < text.length := by
  unfold parseUnicode at h
  rw [Option.bind_eq_bind, Option.bind_eq_some_iff] at h
  rcases h with ⟨⟨n, low⟩, hhex, h⟩
  have hlow := length_of_parseHex hhex
  dsimp only at h
  split at h
  . split at h
    . next backslash letter text' =>
      split at h
      . rw [Option.bind_eq_some_iff] at h
        rcases h with ⟨⟨m, last⟩, hhex', h⟩
        have hlast := length_of_parseHex hhex'
        dsimp only at h
        split at h
        . injection h with heq
          injection heq with _ heq
          subst heq
          rw [List.length_cons, List.length_cons] at hlow
          omega
        . cases h
      . cases h
    . cases h
  . split at h
    . cases h
    . injection h with heq
      injection heq with _ heq
      subst heq
      exact hlow

/--
Only a plain character is read from a single one.
-/
theorem length_of_parseChar {c : Char} {text rest : List Char}
    (h : parseChar text = some (c, rest))
    : rest.length < text.length
        ∧ (rest.length + 1 = text.length → text = c :: rest ∧ IsPlain c) := by
  unfold parseChar at h
  split at h
  . cases h
  . next head text =>
    split at h
    . next hbackslash =>
      split at h
      . cases h
      . next letter text =>
        rw [List.length_cons, List.length_cons]
        have hlt : rest.length < text.length + 1 := by
          split at h
          . have := length_of_parseUnicode h
            omega
          . rcases Option.map_eq_some_iff.mp h with ⟨_, -, heq⟩
            injection heq with _ heq
            rw [heq]
            omega
        exact ⟨by omega, fun heq => by omega⟩
    . next hbackslash =>
      split at h
      . cases h
      . next hraw =>
        rw [not_or] at hraw
        injection h with heq
        injection heq with hhead hrest
        subst hhead hrest
        refine ⟨Nat.lt_succ_self _, fun _ => ⟨rfl, hraw.1, hbackslash, ?_⟩⟩
        exact Bool.eq_false_iff.mpr hraw.2

theorem parseString.length_of_go {fuel : Nat} {chars text rest : List Char}
    (h : go fuel text = some (chars, rest))
    : chars.length + rest.length < text.length
        ∧ (chars.length + rest.length + 1 = text.length
          → text = chars ++ '"' :: rest ∧ ∀ c ∈ chars, IsPlain c) := by
  induction fuel generalizing chars text with
  | zero => cases h
  | succ fuel ih =>
    rw [go] at h
    split at h
    . next hquote =>
      injection h with heq
      injection heq with hchars hrest
      subst hchars hrest
      cases text with
      | nil => cases hquote
      | cons head text =>
        injection hquote with hquote
        subst hquote
        exact ⟨by simp, fun _ => ⟨rfl, by simp⟩⟩
    . rw [Option.bind_eq_bind, Option.bind_eq_some_iff] at h
      rcases h with ⟨⟨c, middle⟩, hchar, h⟩
      rw [Option.bind_eq_bind, Option.bind_eq_some_iff] at h
      rcases h with ⟨⟨chars', rest'⟩, hgo, h⟩
      injection h with heq
      injection heq with hchars hrest
      subst hchars hrest
      have hlt := length_of_parseChar hchar
      have hle := ih hgo
      rw [List.length_cons]
      refine ⟨by omega, fun heq => ?_⟩
      rcases hlt.2 (by omega) with ⟨htext, hplain⟩
      rcases hle.2 (by omega) with ⟨hmiddle, hchars⟩
      rw [htext, hmiddle, List.forall_mem_cons]
      exact ⟨rfl, hplain, hchars⟩

/--
A string is shorter than the text that it is read from, and it is one character shorter only if
all of its characters are plain.
-/
theorem length_of_parseString {value : String} {text rest : List Char}
    (h : parseString text = some (value, rest))
    : value.toList.length + rest.length < text.length
        ∧ (value.toList.length + rest.length + 1 = text.length
          → text = value.toList ++ '"' :: rest ∧ ∀ c ∈ value.toList, IsPlain c) := by
  unfold parseString at h
  rcases Option.map_eq_some_iff.mp h with ⟨⟨chars, rest'⟩, hgo, heq⟩
  injection heq with hvalue hrest
  subst hvalue hrest
  rw [String.toList_ofList]
  exact parseString.length_of_go hgo

end Json
