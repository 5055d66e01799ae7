import AtomaInfer.Engine.Generation

/-!
What a client gets to read of the text that is generated for it.
-/

namespace AtomaInfer

namespace Sequence

variable {returnFullText : Bool} {numTokens : Nat} {tokenizer : List Nat → Except String String}
variable {sequence : Sequence} {text : String}

theorem HasText.length_prompt_le
    (h : sequence.HasText returnFullText numTokens tokenizer text)
    : sequence.prompt.length ≤ text.length := by
  rw [← String.length_toList, ← String.length_toList]
  exact h.isPrefix.length_le

/--
The pieces make up the text after the prompt unless the second of several repeats the end of the
first text, as long as the prompt.
-/
theorem HasText.join_tokens_iff (h : sequence.HasText returnFullText (numTokens + 1) tokenizer text)
    : String.join sequence.tokens = String.ofList (text.toList.drop sequence.prompt.length)
        ↔ returnFullText = true ∨ sequence.prompt = "" ∨ numTokens = 0 := by
  have hle := h.length_prompt_le
  rw [← String.toList_inj, String.toList_ofList]
  constructor
  . intro hjoin
    by_contra hnot
    simp only [not_or, Bool.not_eq_true] at hnot
    rcases hnot with ⟨hfull, hprompt, hnumTokens⟩
    have hjoined := congrArg String.length h.joined
    have hlater := h.later (by omega)
    have hlength := congrArg List.length hjoin
    rw [hfull] at hjoined
    simp only [Bool.false_eq_true, if_false, String.length_append, String.length_empty] at hjoined
    simp only [String.length_toList, List.length_drop] at hlength
    have hpos : sequence.prompt.length ≠ 0 := fun hzero =>
      hprompt (String.length_eq_zero_iff.mp hzero)
    omega
  . intro hcondition
    by_cases hone : numTokens = 0
    . exact h.first (by omega)
    . have hfull : returnFullText = true ∨ sequence.prompt = "" :=
        hcondition.imp_right fun h => h.resolve_right hone
      have hjoined := h.joined
      rw [h.full hfull] at hjoined
      rw [hjoined, String.toList_append]
      rcases hfull with hfull | hprompt
      . rw [if_pos hfull, List.drop_left' String.length_toList]
      . simp [hprompt]

end Sequence

namespace LlmEngine

variable {engine between start : LlmEngine} {seq : SequenceRef} {requestId : String}
variable {returnFullText : Bool} {numTokens : Nat}

/--
Both kinds of clients get the generated text, after the prompt where the full text is returned.
-/
structure ReturnsText (seq : SequenceRef) (requestId : String) (returnFullText : Bool)
    (engine : LlmEngine) : Prop where
  outputText : (engine.scheduler.memory.sequences seq).outputText
    = (if returnFullText then (engine.scheduler.memory.sequences seq).prompt else "")
      ++ engine.generatedText seq
  tokens : String.join (engine.scheduler.memory.sequences seq).tokens = engine.generatedText seq
  streamed : ∀ channel, engine.responseStreamingSenders.lookup requestId = some channel →
    String.join (chunkTexts (engine.received channel)) = engine.generatedText seq

/--
Every chunk of a stream has the whole text so far.
-/
theorem Generated.join_chunkTexts_iff {output : SequenceOutput}
    {criteria : StoppingCriteriaParameters} {added : Sequence} {text : String} {channel : Channel}
    (h : Generated seq requestId returnFullText numTokens between)
    (hextends : ExtendsText between.tokenizer)
    (hsampled : Sampled seq requestId output criteria between engine added text)
    (hlookup : between.responseStreamingSenders.lookup requestId = some channel)
    : String.join (chunkTexts (engine.received channel)) = engine.generatedText seq
        ↔ between.decodedText seq = "" := by
  have hprefix := hsampled.isPrefix hextends h
  have hle := hprefix.length_le
  have hpromptLe := h.hasText.length_prompt_le
  have hprompt : (engine.scheduler.memory.sequences seq).prompt
      = (between.scheduler.memory.sequences seq).prompt := by
    rw [hsampled.sequence_eq]
    dsimp only [withText]
    rw [(Sequence.addTokenId_eq_ok hsampled.added_eq).1]
  rcases hsampled.received_eq channel hlookup with ⟨chunk, hchunk, hreceived⟩
  unfold generatedText
  rw [chunkTexts_received hreceived, hchunk, hsampled.decodedText_eq, hprompt, String.join_append]
  simp only [String.length_toList] at hle
  constructor
  . intro hjoin
    have hlength := congrArg String.length hjoin
    simp only [String.length_append, String.join_cons, String.join_nil, String.append_empty,
      String.length_ofList, List.length_drop, String.length_toList] at hlength
    have hempty : String.join (chunkTexts (between.received channel)) = "" :=
      String.length_eq_zero_iff.mp (by omega)
    rcases (h.streamed channel hlookup).mp hempty with hzero | hdecoded
    . rw [h.hasText.zero hzero]
      exact String.length_eq_zero_iff.mp (by omega)
    . exact hdecoded
  . intro hdecoded
    rw [hdecoded, String.length_empty] at hpromptLe
    rw [(h.streamed channel hlookup).mpr (.inr hdecoded), Nat.le_zero.mp hpromptLe]
    simp

/--
The text that is returned is the generated text, unless a prompt is left out of it and a second
token is sampled. The text that is streamed is not, unless it was empty before the last token.
-/
theorem returnsText_iff {created : Nat} {output : SequenceOutput} {metadata : SequenceGroupMetadata}
    {criteria : StoppingCriteriaParameters} (hextends : ExtendsText start.tokenizer)
    (hbegins : start.Begins seq requestId returnFullText) (hprompt : start.DecodesPrompt seq)
    (hgenerates : start.Generates seq requestId numTokens between)
    (hrequestId : metadata.requestId = requestId) (hsample : metadata.doSample = true)
    (hupdate : between.updateSequence created seq output metadata criteria = .ok engine)
    : ReturnsText seq requestId returnFullText engine
        ↔ (returnFullText = true ∨ (between.scheduler.memory.sequences seq).prompt = ""
            ∨ numTokens = 0)
          ∧ ((between.responseStreamingSenders.lookup requestId).isSome = true →
              between.decodedText seq = "") := by
  rcases generated_of_generates hbegins hprompt hextends hgenerates with ⟨htokenizer, hbetween⟩
  rw [← htokenizer] at hextends
  subst hrequestId
  rcases exists_sampled hsample hupdate with ⟨added, text, hsampled⟩
  have hgenerated := hbetween.sampled hextends hsampled
  have hprompt : (engine.scheduler.memory.sequences seq).prompt
      = (between.scheduler.memory.sequences seq).prompt := by
    rw [hsampled.sequence_eq]
    dsimp only [withText]
    rw [(Sequence.addTokenId_eq_ok hsampled.added_eq).1]
  have htokens := hgenerated.hasText.join_tokens_iff
  rw [hprompt] at htokens
  constructor
  . intro h
    refine ⟨htokens.mp ?_, ?_⟩
    . rw [h.tokens, generatedText, hprompt]
    . intro hsome
      rcases Option.isSome_iff_exists.mp hsome with ⟨channel, hlookup⟩
      refine (hbetween.join_chunkTexts_iff hextends hsampled hlookup).mp (h.streamed channel ?_)
      rw [hsampled.sender_eq]
      exact hlookup
  . rintro ⟨hcondition, hstreamed⟩
    have hjoin : String.join (engine.scheduler.memory.sequences seq).tokens
        = engine.generatedText seq := by
      rw [htokens.mpr hcondition, generatedText, hprompt]
    refine ⟨?_, hjoin, ?_⟩
    . rw [← hjoin]
      exact hgenerated.hasText.joined
    . intro channel hlookup
      rw [hsampled.sender_eq] at hlookup
      refine (hbetween.join_chunkTexts_iff hextends hsampled hlookup).mpr (hstreamed ?_)
      rw [hlookup]
      rfl

/--
The full text of two tokens is returned.
-/
theorem returnsText_iff_full_text
    : ∃ engine,
        (spelling true ∅).sampleTokens ⟨5, [], false⟩ [98, 99] = .ok engine
          ∧ ReturnsText ⟨0, 0⟩ "request" true engine := by
  have hrun : ((spelling true ∅).sampleTokens ⟨5, [], false⟩ [98, 99]).toOption.any
      (fun _ => true) = true := by
    decide +kernel
  rcases Except.exists_eq_ok_of_any hrun with ⟨engine, hengine, -⟩
  refine ⟨engine, hengine, ?_⟩
  rcases Except.bind_eq_ok.mp hengine with ⟨between, hbetween, hrest⟩
  rcases Except.bind_eq_ok.mp hrest with ⟨updated, hupdate, hpure⟩
  cases hpure
  have hgenerates : (spelling true ∅).Generates ⟨0, 0⟩ "request" 1 between :=
    .update .begin rfl rfl hbetween
  refine (returnsText_iff extendsText_spell (begins_spelling true ∅) (decodesPrompt_spelling true ∅)
    hgenerates rfl rfl hupdate).mpr ⟨.inl rfl, ?_⟩
  rcases updateSequence_eq_ok rfl hbetween with ⟨-, sequence, responses, -, rfl⟩
  exact nofun

/--
The prompt "a" is not returned. After the tokens "b" and "c" the text is "bbc".
-/
theorem not_returnsText_second_token
    : ¬ ∀ numTokens engine,
        (spelling false ∅).Generates ⟨0, 0⟩ "request" numTokens engine → 1 ≤ numTokens →
          ReturnsText ⟨0, 0⟩ "request" false engine := by
  intro h
  have hrun : ((spelling false ∅).sampleTokens ⟨5, [], false⟩ [98, 99]).toOption.any
      (fun engine => (engine.scheduler.memory.sequences ⟨0, 0⟩).outputText = "bbc"
        ∧ engine.generatedText ⟨0, 0⟩ = "bc") = true := by
    decide +kernel
  rcases Except.exists_eq_ok_of_any hrun with ⟨engine, hengine, htexts⟩
  have hreturns := (h 2 engine (generates_of_sampleTokens hengine) (by decide)).outputText
  rw [(of_decide_eq_true htexts).1, (of_decide_eq_true htexts).2, if_neg (by decide)] at hreturns
  exact absurd hreturns (by decide)

end LlmEngine

end AtomaInfer
