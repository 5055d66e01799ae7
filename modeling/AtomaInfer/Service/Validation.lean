import Mathlib.Algebra.Order.Field.Rat
import AtomaInfer.Sequence.Lemmas
import AtomaInfer.Service.Impl

/-!
The validation of requests (`validation.rs`) and the preparation of their inputs (`tokenizer.rs`).
As for sequences, the rounding of `f32` is not modelled.
-/

namespace AtomaInfer

structure GenerateParameters where
  bestOf : Option Nat
  temperature : Option ℚ
  repetitionPenalty : Option ℚ
  frequencyPenalty : Option ℚ
  repeatLastN : Option UInt32
  topK : Option UInt32
  topP : Option ℚ
  typicalP : Option ℚ
  doSample : Bool
  maxNewTokens : Option UInt32
  returnFullText : Option Bool
  stop : List String
  truncate : Option Nat
  randomSeed : Option UInt64
  topNTokens : Option UInt32
  n : Nat
  deriving DecidableEq

structure GenerateRequest where
  requestId : String
  inputs : String
  parameters : GenerateParameters
  deriving DecidableEq

/--
The errors of the source, and `panic` for a sum that overflows.
-/
inductive ValidationError where
  | tokenizerError (message : String)
  | maxTotalTokens (maxTotalTokens : UInt32) (inputLen : Nat) (maxNewTokens : UInt32)
  | inputLength (maxInputLength inputLen : Nat)
  | bestOfSampling
  | temperature
  | repetitionPenalty
  | frequencyPenalty
  | topP
  | typicalP
  | topK
  | negativeMaxNewTokens
  | stopSequence (maxStopSequences numStopSequences : Nat)
  | topNTokens (maxTopNTokens topNTokens : UInt32)
  | emptyInput
  | truncate (maxInputLength truncate : Nat)
  | panic (message : String)
  deriving DecidableEq

def ValidationError.message (error : ValidationError) : String :=
  match error with
  | tokenizerError message => s!"Tokenizer error: `{message}`"
  | maxTotalTokens max inputLen maxNewTokens =>
    s!"Maximum total number error: max_total_tokens = `{max}`, input_len = `{inputLen}`, max_new_tokens = `{maxNewTokens}`"
  | inputLength max inputLen => s!"Input length error: max_input_len = `{max}`, input_len = `{inputLen}`"
  | bestOfSampling => "Invalid best of sampling parameter"
  | temperature => "Invalid temperature parameter"
  | repetitionPenalty => "Invalid repetition parameter"
  | frequencyPenalty => "Invalid frequency penalty parameter"
  | topP => "Invalid top p parameter"
  | typicalP => "Invalid typical p parameter"
  | topK => "Invalid top k parameter"
  | negativeMaxNewTokens => "Negative max new tokens to generate"
  | stopSequence max num =>
    s!"Stop sequences size exceeds maximum number of stop sequences allowed: `{max}` < `{num}`"
  | topNTokens max num => s!"Invalid top n tokens parameter: `{max}`, `{num}`"
  | emptyInput => "Empty input"
  | truncate max num => s!"Invalid truncate paremeter: `{max}` < `{num}`"
  | panic message => message

/--
`tokenizer` gives the token ids of a text, with the special tokens. Whether sums are checked for
overflow depends on the profile that the source is compiled with.
-/
structure Validation where
  maxStopSequences : Nat
  maxTopNTokens : UInt32
  maxInputLength : Nat
  maxTotalTokens : UInt32
  tokenizer : String → Except String (List Nat)
  overflowChecks : Bool

/--
The last `truncate` characters of the input.
-/
def truncateInput (input : String) (truncate : Option Nat) : String :=
  match truncate with
  | some truncate =>
    if input.length < truncate then
      input
    else
      let start := input.length - truncate
      -- an index behind the last character falls back to the first
      if start < input.length then String.ofList (input.toList.drop start) else input
  | none => input

def prepareInputs (tokenizer : String → Except String (List Nat)) (input : String)
    (truncate : Option Nat) : Except String (List Nat × String) := do
  let input := truncateInput input truncate
  let encoding ← tokenizer input
  return (encoding, input)

namespace Validation

/--
The value of a parameter that is checked if it is given.
-/
def checked {α : Type} (value : Option α) (invalid : α → Bool) (error : α → ValidationError)
    (default : α) : Except ValidationError α :=
  match value with
  | some value => if invalid value then .error (error value) else .ok value
  | none => .ok default

def reject (invalid : Bool) (error : ValidationError) : Except ValidationError Unit :=
  if invalid then .error error else .ok ()

variable (validation : Validation)

def tokenize (input : String) (truncate : Option Nat)
    : Except ValidationError (List Nat × String) :=
  (prepareInputs validation.tokenizer input truncate).mapError .tokenizerError

def sum (a b : UInt32) : Except ValidationError UInt32 :=
  if validation.overflowChecks && decide (2 ^ 32 ≤ a.toNat + b.toNat) then
    .error (.panic "attempt to add with overflow")
  else
    .ok (a + b)

/--
The number of tokens that the limits are checked for.
-/
def inputLen (truncate : Option Nat) (encoding : List Nat) : Nat :=
  match truncate with
  | some truncate => min truncate encoding.length
  | none => encoding.length

/--
Without a number of new tokens, there may be as many as are left.
-/
def maxNewTokensOf (maxNewTokens : Option UInt32) (inputLen : Nat) : UInt32 :=
  match maxNewTokens with
  | some maxNewTokens => maxNewTokens
  | none =>
    -- a saturating subtraction
    if inputLen.toUInt32 ≤ validation.maxTotalTokens then
      validation.maxTotalTokens - inputLen.toUInt32
    else
      0

def validateInput (input : String) (truncate : Option Nat) (maxNewTokens : Option UInt32)
    : Except ValidationError (String × List Nat × UInt32) := do
  let (encoding, input) ← validation.tokenize input truncate
  let inputLen := inputLen truncate encoding
  let maxNewTokens := validation.maxNewTokensOf maxNewTokens inputLen
  let totalTokens ← validation.sum inputLen.toUInt32 maxNewTokens
  reject (validation.maxTotalTokens < totalTokens)
    (.maxTotalTokens validation.maxTotalTokens inputLen maxNewTokens)
  reject (validation.maxInputLength < inputLen) (.inputLength validation.maxInputLength inputLen)
  return (input, encoding, maxNewTokens)

def validate (request : GenerateRequest) : Except ValidationError ValidGenerateRequest := do
  let parameters := request.parameters
  let bestOf := parameters.bestOf.getD 1
  let sampling := parameters.doSample || parameters.temperature.isSome || parameters.topK.isSome
    || parameters.topP.isSome || parameters.typicalP.isSome
  reject (1 < bestOf && !sampling) .bestOfSampling
  let temperature := parameters.temperature.getD 1
  reject (temperature ≤ 0) .temperature
  let repetitionPenalty := parameters.repetitionPenalty.getD 1
  reject (repetitionPenalty ≤ 0) .repetitionPenalty
  let frequencyPenalty := parameters.frequencyPenalty.getD 0
  reject (!(-2 ≤ frequencyPenalty && frequencyPenalty ≤ 2)) .frequencyPenalty
  let topP ← checked parameters.topP (fun value => value ≤ 0 || 1 ≤ value) (fun _ => .topP) 1
  let _ ← checked parameters.typicalP (fun value => value ≤ 0 || 1 ≤ value) (fun _ => .typicalP) 1
  let topK ← checked parameters.topK (fun value => value = 0) (fun _ => .topK) 0
  reject (parameters.maxNewTokens = some 0) .negativeMaxNewTokens
  reject (validation.maxStopSequences < parameters.stop.length)
    (.stopSequence validation.maxStopSequences parameters.stop.length)
  let randomSeed ← checked parameters.randomSeed (fun _ => 1 < bestOf) (fun _ => .bestOfSampling)
    1283768955
  let _ ← checked parameters.topNTokens (fun value => validation.maxTopNTokens < value)
    (.topNTokens validation.maxTopNTokens) 0
  let repeatLastN := parameters.repeatLastN.getD 0
  reject request.inputs.isEmpty .emptyInput
  let truncate := parameters.truncate
  let _ ← checked truncate (fun value => value = 0 || validation.maxInputLength < value)
    (.truncate validation.maxInputLength) 0
  let (inputs, encoding, maxNewTokens) ←
    validation.validateInput request.inputs truncate parameters.maxNewTokens
  return {
    inputs
    encoding
    parameters := {
      n := parameters.n
      bestOf
      temperature
      topK := topK.toNat
      topP
      doSample := parameters.doSample
      randomSeed := randomSeed.toNat
      repetitionPenalty
      repeatLastN := repeatLastN.toNat
    }
    stoppingParameters := {
      maxNewTokens := maxNewTokens.toNat
      stopSequences := parameters.stop
      ignoreEosToken := false
    }
    returnFullText := parameters.returnFullText.getD false
  }

variable {validation}

theorem reject_eq_ok {invalid : Bool} {error : ValidationError} {u : Unit}
    (h : reject invalid error = .ok u) : invalid = false := by
  unfold reject at h
  split at h
  . cases h
  . next hvalid => simpa using hvalid

/--
What is known of a request that is accepted.
-/
theorem validate_eq_ok {request : GenerateRequest} {valid : ValidGenerateRequest}
    (h : validation.validate request = .ok valid)
    : request.parameters.maxNewTokens ≠ some 0
        ∧ ∃ maxNewTokens,
            validation.validateInput request.inputs request.parameters.truncate
                request.parameters.maxNewTokens = .ok (valid.inputs, valid.encoding, maxNewTokens)
              ∧ valid.stoppingParameters.maxNewTokens = maxNewTokens.toNat := by
  rcases Except.bind_eq_ok.mp h with ⟨_, -, h⟩
  rcases Except.bind_eq_ok.mp h with ⟨_, -, h⟩
  rcases Except.bind_eq_ok.mp h with ⟨_, -, h⟩
  rcases Except.bind_eq_ok.mp h with ⟨_, -, h⟩
  rcases Except.bind_eq_ok.mp h with ⟨topP, -, h⟩
  rcases Except.bind_eq_ok.mp h with ⟨typicalP, -, h⟩
  rcases Except.bind_eq_ok.mp h with ⟨topK, -, h⟩
  rcases Except.bind_eq_ok.mp h with ⟨_, hzero, h⟩
  rcases Except.bind_eq_ok.mp h with ⟨_, -, h⟩
  rcases Except.bind_eq_ok.mp h with ⟨randomSeed, -, h⟩
  rcases Except.bind_eq_ok.mp h with ⟨topNTokens, -, h⟩
  rcases Except.bind_eq_ok.mp h with ⟨_, -, h⟩
  rcases Except.bind_eq_ok.mp h with ⟨truncate, -, h⟩
  rcases Except.bind_eq_ok.mp h with ⟨result, hinput, hpure⟩
  cases hpure
  exact ⟨of_decide_eq_false (reject_eq_ok hzero), result.2.2, hinput, rfl⟩

theorem sum_eq_ok {a b c : UInt32} (h : validation.sum a b = .ok c) : c = a + b := by
  unfold sum at h
  split at h
  . cases h
  . cases h
    rfl

theorem validateInput_eq_ok {input input' : String} {truncate : Option Nat}
    {maxNewTokens : Option UInt32} {encoding : List Nat} {newTokens : UInt32}
    (h : validation.validateInput input truncate maxNewTokens = .ok (input', encoding, newTokens))
    : validation.tokenizer (truncateInput input truncate) = .ok encoding
        ∧ newTokens = validation.maxNewTokensOf maxNewTokens (inputLen truncate encoding)
        ∧ (inputLen truncate encoding).toUInt32 + newTokens ≤ validation.maxTotalTokens
        ∧ inputLen truncate encoding ≤ validation.maxInputLength := by
  rcases Except.bind_eq_ok.mp h with ⟨prepared, hprepare, h⟩
  rcases Except.bind_eq_ok.mp h with ⟨totalTokens, hsum, h⟩
  rcases Except.bind_eq_ok.mp h with ⟨_, htotal, h⟩
  rcases Except.bind_eq_ok.mp h with ⟨_, hlength, hpure⟩
  cases hpure
  rcases Except.bind_eq_ok.mp (Except.mapError_eq_ok.mp hprepare) with ⟨encoding, hencoding, hpure⟩
  cases hpure
  refine ⟨hencoding, rfl, ?_, ?_⟩
  . rw [← sum_eq_ok hsum]
    exact UInt32.not_lt.mp (of_decide_eq_false (reject_eq_ok htotal))
  . exact Nat.not_lt.mp (of_decide_eq_false (reject_eq_ok hlength))

/--
An accepted request keeps the limits.
-/
structure FitsLimits (validation : Validation) (request : GenerateRequest)
    (valid : ValidGenerateRequest) : Prop where
  pos : 1 ≤ valid.encoding.length
  le_maxInputLength : valid.encoding.length ≤ validation.maxInputLength
  newTokens_pos : 1 ≤ valid.stoppingParameters.maxNewTokens
  le_maxTotalTokens : valid.encoding.length + valid.stoppingParameters.maxNewTokens
    ≤ validation.maxTotalTokens.toNat
  le_truncate : ∀ truncate, request.parameters.truncate = some truncate →
    valid.encoding.length ≤ truncate

theorem inputLen_eq {truncate : Option Nat} {encoding : List Nat}
    (h : ∀ value, truncate = some value → encoding.length ≤ value)
    : inputLen truncate encoding = encoding.length := by
  cases truncate with
  | none => rfl
  | some value => exact Nat.min_eq_right (h value rfl)

/--
The sum of 32 bits is the sum of the numbers.
-/
theorem fits_of_le {maxNewTokens : Option UInt32} {newTokens : UInt32} {length : Nat}
    (hnonzero : maxNewTokens ≠ some 0)
    (hdefault : newTokens = validation.maxNewTokensOf maxNewTokens length)
    (htotal : length.toUInt32 + newTokens ≤ validation.maxTotalTokens)
    (hnone : maxNewTokens = none → length < validation.maxTotalTokens.toNat)
    (hsome : ∀ value, maxNewTokens = some value → length + value.toNat < 2 ^ 32)
    : 1 ≤ newTokens.toNat ∧ length + newTokens.toNat ≤ validation.maxTotalTokens.toNat := by
  have hmax := validation.maxTotalTokens.toNat_lt
  have hlength : length.toUInt32.toNat = length % 2 ^ 32 := UInt32.toNat_ofNat'
  cases maxNewTokens with
  | none =>
    have hlt := hnone rfl
    have hle : length.toUInt32 ≤ validation.maxTotalTokens := by
      rw [UInt32.le_iff_toNat_le]
      omega
    unfold maxNewTokensOf at hdefault
    dsimp only at hdefault
    rw [if_pos hle] at hdefault
    rw [hdefault, UInt32.toNat_sub_of_le _ _ hle]
    omega
  | some value =>
    change newTokens = value at hdefault
    subst hdefault
    have hlt := hsome newTokens rfl
    rw [UInt32.le_iff_toNat_le, UInt32.toNat_add] at htotal
    have hpos : newTokens.toNat ≠ 0 := by
      intro hzero
      exact hnonzero (congrArg some (UInt32.toNat_inj.mp hzero))
    omega

/--
A truncated text may have more tokens than it has characters. Without a number of new tokens, the
prompt may use up all tokens, and with one the sum may wrap around.
-/
theorem fitsLimits_iff {request : GenerateRequest} {valid : ValidGenerateRequest}
    {encoding : List Nat} (h : validation.validate request = .ok valid)
    (hencoding : validation.tokenizer
      (truncateInput request.inputs request.parameters.truncate) = .ok encoding)
    : validation.FitsLimits request valid
        ↔ 1 ≤ encoding.length
          ∧ (∀ truncate, request.parameters.truncate = some truncate → encoding.length ≤ truncate)
          ∧ (request.parameters.maxNewTokens = none →
              encoding.length < validation.maxTotalTokens.toNat)
          ∧ ∀ maxNewTokens, request.parameters.maxNewTokens = some maxNewTokens →
              encoding.length + maxNewTokens.toNat < 2 ^ 32 := by
  rcases validate_eq_ok h with ⟨hnonzero, newTokens, hinput, hnewTokens⟩
  rcases validateInput_eq_ok hinput with ⟨hencoding', hdefault, htotal, hlength⟩
  rw [hencoding] at hencoding'
  cases hencoding'
  have hmax := validation.maxTotalTokens.toNat_lt
  constructor
  . intro hfits
    have hpos := hfits.newTokens_pos
    have htotal := hfits.le_maxTotalTokens
    rw [hnewTokens] at hpos htotal
    refine ⟨hfits.pos, hfits.le_truncate, fun _ => by omega, ?_⟩
    intro maxNewTokens hsome
    rw [hsome] at hdefault
    change newTokens = maxNewTokens at hdefault
    subst hdefault
    omega
  . rintro ⟨hpos, htruncate, hnone, hsome⟩
    rw [inputLen_eq htruncate] at hdefault htotal hlength
    have hfits := fits_of_le hnonzero hdefault htotal hnone hsome
    rw [← hnewTokens] at hfits
    exact ⟨hpos, hlength, hfits.1, hfits.2, htruncate⟩

/--
Texts are spelled out after a token for their beginning, as many tokenizers do.
-/
def spelled (maxTotalTokens : UInt32) : Validation where
  maxStopSequences := 4
  maxTopNTokens := 5
  maxInputLength := 8
  maxTotalTokens
  tokenizer text := .ok (1 :: text.toList.map Char.toNat)
  overflowChecks := false

/--
A request for the text "a" with the given limits.
-/
def request (truncate : Option Nat) (maxNewTokens : Option UInt32) : GenerateRequest where
  requestId := "request"
  inputs := "a"
  parameters := {
    bestOf := none
    temperature := none
    repetitionPenalty := none
    frequencyPenalty := none
    repeatLastN := none
    topK := none
    topP := none
    typicalP := none
    doSample := true
    maxNewTokens
    returnFullText := none
    stop := []
    truncate
    randomSeed := none
    topNTokens := none
    n := 1
  }

theorem fitsLimits_iff_default
    : ∃ valid,
        (spelled 16).validate (request none none) = .ok valid
          ∧ (spelled 16).FitsLimits (request none none) valid := by
  have hrun : ((spelled 16).validate (request none none)).toOption.isSome = true := by
    decide +kernel
  cases hvalid : (spelled 16).validate (request none none) with
  | error e =>
    rw [hvalid] at hrun
    cases hrun
  | ok valid =>
    refine ⟨valid, rfl, (fitsLimits_iff hvalid rfl).mpr ⟨by decide, ?_, fun _ => by decide, ?_⟩⟩
    . intro truncate htruncate
      cases htruncate
    . intro maxNewTokens hmaxNewTokens
      cases hmaxNewTokens

/--
The text "a" is kept as it is one character long, but it has two tokens.
-/
theorem not_fitsLimits_truncate
    : ∃ valid,
        (spelled 16).validate (request (some 1) none) = .ok valid
          ∧ ¬ (spelled 16).FitsLimits (request (some 1) none) valid := by
  have hrun : ((spelled 16).validate (request (some 1) none)).toOption.any
      (fun valid => valid.encoding.length = 2) = true := by
    decide +kernel
  rcases Except.exists_eq_ok_of_any hrun with ⟨valid, hvalid, hlength⟩
  refine ⟨valid, hvalid, ?_⟩
  intro hfits
  have hle := hfits.le_truncate 1 rfl
  have htwo := of_decide_eq_true hlength
  omega

end Validation

namespace LlmService

def processReceivedRequest (validation : Validation) (request : GenerateRequest)
    : Except LlmServiceError ValidGenerateRequest :=
  (validation.validate request).mapError fun error => .validationError error.message

/--
The tokens of an accepted request become the prompt of its sequence.
-/
theorem exists_validate_of_handleRequest {service service' : LlmService} {validation : Validation}
    {request : GenerateRequest} {arrivalTime addr : Nat} {group : SequenceGroup}
    {sequence : Sequence}
    (h : service.handleRequest request.requestId arrivalTime addr
      (processReceivedRequest validation request) = .ok (group, sequence, service'))
    : ∃ valid,
        validation.validate request = .ok valid
          ∧ sequence.sequenceData.promptTokenIds = valid.encoding
          ∧ group.stoppingCriteria = valid.stoppingParameters := by
  rcases Except.bind_eq_ok.mp h with ⟨valid, hvalid, h⟩
  rcases Except.bind_eq_ok.mp h with ⟨sequence', hsequence, h⟩
  rcases Except.bind_eq_ok.mp h with ⟨group', hgroup, hpure⟩
  cases hpure
  refine ⟨valid, Except.mapError_eq_ok.mp hvalid, ?_, ?_⟩
  . rw [Sequence.appendTokensToBlocks_eq_ok (Except.mapError_eq_ok.mp hsequence)]
    rfl
  . have hnew := Except.mapError_eq_ok.mp hgroup
    simp only [SequenceGroup.new, List.isEmpty_cons, Bool.false_eq_true, if_false] at hnew
    cases hnew
    rfl

end LlmService

end AtomaInfer
