import AtomaInfer.Engine.Update
import AtomaInfer.Sequence.Lemmas

/-!
The tokens of one sequence are sampled one by one. In between the engine may do anything that
leaves the text of the sequence and the stream of its client alone.
-/

namespace AtomaInfer

/--
The text of more tokens starts with the text of fewer.
-/
def ExtendsText (tokenizer : List Nat → Except String String) : Prop :=
  ∀ tokenIds tokenId text text', tokenizer tokenIds = .ok text →
    tokenizer (tokenIds ++ [tokenId]) = .ok text' → text.toList <+: text'.toList

/--
Two sequences with the same tokens and texts, of which both or none are finished.
-/
structure Sequence.SameText (sequence sequence' : Sequence) : Prop where
  prompt_eq : sequence'.prompt = sequence.prompt
  tokenIds_eq : sequence'.sequenceData.getTokenIds = sequence.sequenceData.getTokenIds
  outputText_eq : sequence'.outputText = sequence.outputText
  tokens_eq : sequence'.tokens = sequence.tokens
  stopReason_eq : sequence'.stopReason = sequence.stopReason
  isFinished_eq : sequence'.isFinished = sequence.isFinished

/--
The text of a sequence for which `numTokens` tokens were sampled. The second and the later pieces
start behind as many characters of `text` as there are in `outputText`, which has not got the prompt
unless the full text is returned.
-/
structure Sequence.HasText (returnFullText : Bool) (numTokens : Nat)
    (tokenizer : List Nat → Except String String) (sequence : Sequence) (text : String) : Prop where
  decoded : tokenizer sequence.sequenceData.getTokenIds = .ok text
  isPrefix : sequence.prompt.toList <+: text.toList
  numTokens_eq : sequence.tokens.length = numTokens
  joined : sequence.outputText
    = (if returnFullText then sequence.prompt else "") ++ String.join sequence.tokens
  zero : numTokens = 0 → text = sequence.prompt
  full : returnFullText = true ∨ sequence.prompt = "" → sequence.outputText = text
  first : numTokens = 1 →
    (String.join sequence.tokens).toList = text.toList.drop sequence.prompt.length
  later : 2 ≤ numTokens → sequence.outputText.length = text.length
  le : sequence.outputText.length ≤ text.length

namespace Sequence

variable {returnFullText : Bool} {numTokens : Nat} {tokenizer : List Nat → Except String String}
variable {sequence sequence' added : Sequence} {text text' : String}

theorem SameText.hasText (hsame : sequence.SameText sequence')
    (h : sequence.HasText returnFullText numTokens tokenizer text)
    : sequence'.HasText returnFullText numTokens tokenizer text := by
  rcases hsame with ⟨hprompt, htokenIds, houtput, htokens, -, -⟩
  constructor <;> simp only [hprompt, htokenIds, houtput, htokens]
  . exact h.decoded
  . exact h.isPrefix
  . exact h.numTokens_eq
  . exact h.joined
  . exact h.zero
  . exact h.full
  . exact h.first
  . exact h.later
  . exact h.le

theorem toList_generatedToken (sequence : Sequence) (text : String)
    : (sequence.generatedToken text).toList
        = text.toList.drop
            (if sequence.tokens = [] then sequence.prompt.length else sequence.outputText.length) := by
  unfold generatedToken
  cases htokens : sequence.tokens with
  | nil => simp
  | cons token tokens => simp [List.getLast?_cons]

theorem hasText_of_new {prompt : String} {promptTokenIds : List Nat} {blockSize : Nat}
    (h : Sequence.new prompt promptTokenIds blockSize returnFullText = .ok sequence)
    (hdecoded : tokenizer sequence.sequenceData.getTokenIds = .ok sequence.prompt)
    : sequence.HasText returnFullText 0 tokenizer sequence.prompt := by
  rw [appendTokensToBlocks_eq_ok h] at hdecoded ⊢
  constructor
  . exact hdecoded
  . exact List.prefix_refl _
  . rfl
  . simp
  . intro _
    rfl
  . rintro (hfull | hempty)
    . simp [hfull]
    . dsimp only at hempty ⊢
      simp [hempty]
  . intro h
    cases h
  . intro h
    omega
  . dsimp only
    split <;> simp

/--
A token that has no log-probability is sampled without an effect on the tokens.
-/
theorem isPrefix_of_addTokenId {tokenId : Nat} {logprobs : LogProbs}
    (hadd : sequence.addTokenId tokenId logprobs = .ok added) (hextends : ExtendsText tokenizer)
    (htext : tokenizer sequence.sequenceData.getTokenIds = .ok text)
    (htext' : tokenizer added.sequenceData.getTokenIds = .ok text')
    : text.toList <+: text'.toList := by
  have hdata := (addTokenId_eq_ok hadd).2
  split at hdata
  . rw [hdata, htext] at htext'
    cases htext'
    exact List.prefix_refl _
  . rw [hdata] at htext'
    refine hextends _ tokenId text text' htext ?_
    rw [← htext']
    simp [SequenceData.getTokenIds, SequenceData.addTokenId]

/--
What a sampled token adds to a text.
-/
theorem HasText.toList_generatedToken (h : sequence.HasText returnFullText numTokens tokenizer text)
    {tokenId : Nat} {logprobs : LogProbs}
    (hadd : sequence.addTokenId tokenId logprobs = .ok added) (text' : String)
    : (added.generatedToken text').toList
        = text'.toList.drop
            (if numTokens = 0 then sequence.prompt.length else sequence.outputText.length) := by
  rw [Sequence.toList_generatedToken, (addTokenId_eq_ok hadd).1, ← h.numTokens_eq]
  simp only [List.length_eq_zero_iff]

theorem HasText.sampled (h : sequence.HasText returnFullText numTokens tokenizer text)
    {tokenId : Nat} {logprobs : LogProbs}
    (hadd : sequence.addTokenId tokenId logprobs = .ok added) (hextends : ExtendsText tokenizer)
    (htext' : tokenizer added.sequenceData.getTokenIds = .ok text') (engine : LlmEngine)
    (output : SequenceOutput) (criteria : StoppingCriteriaParameters)
    : (engine.withText text' output criteria added).HasText returnFullText (numTokens + 1) tokenizer
        text' := by
  have hprefix := isPrefix_of_addTokenId hadd hextends h.decoded htext'
  have hlength : text.length ≤ text'.length := by
    rw [← String.length_toList, ← String.length_toList]
    exact hprefix.length_le
  have hpiece := h.toList_generatedToken hadd text'
  have hpieceLength := congrArg List.length hpiece
  simp only [String.length_toList, List.length_drop] at hpieceLength
  have hprompt : added.prompt = sequence.prompt := by rw [(addTokenId_eq_ok hadd).1]
  have houtput : added.outputText = sequence.outputText := by rw [(addTokenId_eq_ok hadd).1]
  have htokens : added.tokens = sequence.tokens := by rw [(addTokenId_eq_ok hadd).1]
  have hpromptLength : sequence.prompt.length ≤ text.length := by
    rw [← String.length_toList, ← String.length_toList]
    exact h.isPrefix.length_le
  have hle := h.le
  constructor <;> simp only [LlmEngine.withText, hprompt, houtput, htokens]
  . exact htext'
  . exact h.isPrefix.trans hprefix
  . simp [h.numTokens_eq]
  . rw [h.joined, String.join_append, String.append_assoc]
    simp
  . intro hzero
    cases hzero
  . intro hfull
    have hfull' := h.full hfull
    have hstart : (if numTokens = 0 then sequence.prompt.length else sequence.outputText.length)
        = text.toList.length := by
      split
      . next hzero => rw [← h.zero hzero, String.length_toList]
      . rw [hfull', String.length_toList]
    rw [hstart] at hpiece
    rw [← String.toList_inj, String.toList_append, hfull', hpiece]
    exact List.prefix_iff_eq_append.mp hprefix
  . intro hone
    have hzero : numTokens = 0 := by omega
    have hnil : sequence.tokens = [] := by
      rw [← List.length_eq_zero_iff, h.numTokens_eq, hzero]
    rw [if_pos hzero] at hpiece
    rw [hnil]
    simp [hpiece]
  . intro htwo
    rw [if_neg (by omega)] at hpieceLength
    rw [String.length_append, hpieceLength]
    omega
  . rw [String.length_append, hpieceLength]
    split
    . next hzero =>
      have hzero' := congrArg String.length (h.zero hzero)
      omega
    . omega

end Sequence

namespace LlmEngine

section Definitions

variable (engine : LlmEngine)

/--
The messages that were sent on a channel.
-/
def received (channel : Channel) : List Message :=
  (engine.sent.filter (·.1 = channel)).map (·.2)

/--
The text of all tokens of a sequence.
-/
def decodedText (seq : SequenceRef) : String :=
  (engine.tokenizer (engine.scheduler.memory.sequences seq).sequenceData.getTokenIds).toOption.getD
    ""

/--
The text of a sequence after its prompt.
-/
def generatedText (seq : SequenceRef) : String :=
  String.ofList ((engine.decodedText seq).toList.drop
    (engine.scheduler.memory.sequences seq).prompt.length)

/--
A sequence before its first update. Nothing was sent to its client.
-/
structure Begins (seq : SequenceRef) (requestId : String) (returnFullText : Bool) : Prop where
  created : ∃ prompt promptTokenIds blockSize,
    Sequence.new prompt promptTokenIds blockSize returnFullText
      = .ok (engine.scheduler.memory.sequences seq)
  received : ∀ channel, engine.responseStreamingSenders.lookup requestId = some channel →
    engine.received channel = []

def DecodesPrompt (seq : SequenceRef) : Prop :=
  engine.tokenizer (engine.scheduler.memory.sequences seq).sequenceData.getTokenIds
    = .ok (engine.scheduler.memory.sequences seq).prompt

/--
What the engine does to other sequences and other clients.
-/
structure Leaves (seq : SequenceRef) (requestId : String) (engine engine' : LlmEngine) : Prop where
  tokenizer_eq : engine'.tokenizer = engine.tokenizer
  sender_eq :
    engine'.responseStreamingSenders.lookup requestId
      = engine.responseStreamingSenders.lookup requestId
  received_eq : ∀ channel, engine.responseStreamingSenders.lookup requestId = some channel →
    engine'.received channel = engine.received channel
  sameText :
    (engine.scheduler.memory.sequences seq).SameText (engine'.scheduler.memory.sequences seq)

/--
`numTokens` tokens were sampled for a sequence.
-/
inductive Generates (seq : SequenceRef) (requestId : String) : Nat → LlmEngine → Prop where
  | begin : Generates seq requestId 0 engine
  | leave {numTokens : Nat} {between engine' : LlmEngine}
      (h : Generates seq requestId numTokens between)
      (hleaves : Leaves seq requestId between engine')
    : Generates seq requestId numTokens engine'
  | update {numTokens : Nat} {between engine' : LlmEngine} {created : Nat}
      {output : SequenceOutput} {metadata : SequenceGroupMetadata}
      {criteria : StoppingCriteriaParameters} (h : Generates seq requestId numTokens between)
      (hrequestId : metadata.requestId = requestId) (hsample : metadata.doSample = true)
      (hupdate : between.updateSequence created seq output metadata criteria = .ok engine')
    : Generates seq requestId (numTokens + 1) engine'

end Definitions

variable {engine engine' start : LlmEngine} {seq : SequenceRef} {requestId : String}
variable {responses : List StreamResponse} {channel : Channel}

theorem received_stream (h : engine.responseStreamingSenders.lookup requestId = some channel)
    : (engine.stream requestId responses).received channel
        = engine.received channel ++ responses.map .streaming := by
  unfold received stream messages
  rw [h]
  simp [List.filter_map, Function.comp_def]

/--
What an update does that samples a token.
-/
structure Sampled (seq : SequenceRef) (requestId : String) (output : SequenceOutput)
    (criteria : StoppingCriteriaParameters) (engine engine' : LlmEngine) (added : Sequence)
    (text : String) : Prop where
  added_eq : (engine.scheduler.memory.sequences seq).addTokenId output.outputToken output.logprob
    = .ok added
  decoded : engine.tokenizer added.sequenceData.getTokenIds = .ok text
  sequence_eq : engine'.scheduler.memory.sequences seq = engine.withText text output criteria added
  tokenizer_eq : engine'.tokenizer = engine.tokenizer
  sender_eq : engine'.responseStreamingSenders = engine.responseStreamingSenders
  received_eq : ∀ channel, engine.responseStreamingSenders.lookup requestId = some channel →
    ∃ chunk : GenerateStreamingOutput,
      chunk.outputText = text
        ∧ engine'.received channel
            = engine.received channel
              ++ .streaming (.chunk chunk)
              :: (engine.metConditions text output criteria added).map fun _ => .streaming .finished

theorem exists_sampled {created : Nat} {output : SequenceOutput} {metadata : SequenceGroupMetadata}
    {criteria : StoppingCriteriaParameters} (hsample : metadata.doSample = true)
    (h : engine.updateSequence created seq output metadata criteria = .ok engine')
    : ∃ added text, Sampled seq metadata.requestId output criteria engine engine' added text := by
  rcases updateSequence_eq_ok hsample h with ⟨-, sequence, responses, hresult, rfl⟩
  rcases exists_of_sample hresult with ⟨added, text, chunk, hadd, htext, rfl, hchunk, rfl⟩
  refine ⟨added, text, hadd, htext, Function.update_self _ _ _, rfl, rfl, ?_⟩
  intro channel hlookup
  refine ⟨chunk, hchunk, ?_⟩
  change (engine.stream metadata.requestId _).received channel = _
  rw [received_stream hlookup]
  simp

theorem decodedText_eq {text : String}
    (h : engine.tokenizer (engine.scheduler.memory.sequences seq).sequenceData.getTokenIds = .ok text)
    : engine.decodedText seq = text := by
  unfold decodedText
  rw [h]
  rfl

theorem Sampled.decodedText_eq {output : SequenceOutput} {criteria : StoppingCriteriaParameters}
    {added : Sequence} {text : String}
    (h : Sampled seq requestId output criteria engine engine' added text)
    : engine'.decodedText seq = text := by
  apply LlmEngine.decodedText_eq
  rw [h.sequence_eq, h.tokenizer_eq]
  exact h.decoded

/--
The texts of the chunks among `messages`.
-/
def chunkTexts (messages : List Message) : List String :=
  messages.filterMap fun message =>
    match message with
    | .streaming (.chunk output) => some output.outputText
    | _ => none

theorem chunkTexts_received {messages messages' : List Message} {chunk : GenerateStreamingOutput}
    {met : List (Bool × SequenceStatus)}
    (h : messages' = messages
      ++ .streaming (.chunk chunk) :: met.map fun _ => .streaming .finished)
    : chunkTexts messages' = chunkTexts messages ++ [chunk.outputText] := by
  rw [h]
  unfold chunkTexts
  simp

variable {returnFullText : Bool} {numTokens : Nat}

/--
A sequence for which `numTokens` tokens were sampled, and the text that its client has received.
-/
structure Generated (seq : SequenceRef) (requestId : String) (returnFullText : Bool)
    (numTokens : Nat) (engine : LlmEngine) : Prop where
  hasText : (engine.scheduler.memory.sequences seq).HasText returnFullText numTokens engine.tokenizer
    (engine.decodedText seq)
  streamed : ∀ channel, engine.responseStreamingSenders.lookup requestId = some channel →
    (String.join (chunkTexts (engine.received channel)) = ""
      ↔ numTokens = 0 ∨ engine.decodedText seq = "")

/--
What holds until a sequence is finished: its client has received a chunk for each token.
-/
structure Ongoing (seq : SequenceRef) (requestId : String) (numTokens : Nat) (engine : LlmEngine)
    : Prop where
  stopReason_eq : (engine.scheduler.memory.sequences seq).stopReason = none
  received : ∀ channel, engine.responseStreamingSenders.lookup requestId = some channel →
    ∃ outputs : List GenerateStreamingOutput,
      outputs.length = numTokens
        ∧ engine.received channel = outputs.map fun output => .streaming (.chunk output)

theorem Begins.generated (h : engine.Begins seq requestId returnFullText)
    (hprompt : engine.DecodesPrompt seq)
    : Generated seq requestId returnFullText 0 engine := by
  rcases h.created with ⟨prompt, promptTokenIds, blockSize, hnew⟩
  constructor
  . rw [decodedText_eq hprompt]
    exact Sequence.hasText_of_new hnew hprompt
  . intro channel hlookup
    simp [h.received channel hlookup, chunkTexts]

theorem Begins.ongoing (h : engine.Begins seq requestId returnFullText)
    : Ongoing seq requestId 0 engine := by
  rcases h.created with ⟨prompt, promptTokenIds, blockSize, hnew⟩
  constructor
  . rw [Sequence.appendTokensToBlocks_eq_ok hnew]
  . intro channel hlookup
    exact ⟨[], rfl, h.received channel hlookup⟩

theorem Generated.leave (h : Generated seq requestId returnFullText numTokens engine)
    (hleaves : Leaves seq requestId engine engine')
    : Generated seq requestId returnFullText numTokens engine' := by
  have htext : engine'.decodedText seq = engine.decodedText seq := by
    unfold decodedText
    rw [hleaves.tokenizer_eq, hleaves.sameText.tokenIds_eq]
  constructor
  . rw [htext, hleaves.tokenizer_eq]
    exact hleaves.sameText.hasText h.hasText
  . intro channel hlookup
    rw [hleaves.sender_eq] at hlookup
    rw [htext, hleaves.received_eq channel hlookup]
    exact h.streamed channel hlookup

theorem Ongoing.leave (h : Ongoing seq requestId numTokens engine)
    (hleaves : Leaves seq requestId engine engine') : Ongoing seq requestId numTokens engine' := by
  constructor
  . rw [hleaves.sameText.stopReason_eq]
    exact h.stopReason_eq
  . intro channel hlookup
    rw [hleaves.sender_eq] at hlookup
    rw [hleaves.received_eq channel hlookup]
    exact h.received channel hlookup

section Step

variable {output : SequenceOutput} {criteria : StoppingCriteriaParameters} {added : Sequence}
variable {text : String}

theorem Sampled.isPrefix (h : Sampled seq requestId output criteria engine engine' added text)
    (hextends : ExtendsText engine.tokenizer)
    (hgenerated : Generated seq requestId returnFullText numTokens engine)
    : (engine.decodedText seq).toList <+: text.toList :=
  Sequence.isPrefix_of_addTokenId h.added_eq hextends hgenerated.hasText.decoded h.decoded

/--
As long as a sequence is not finished, it meets none of the conditions.
-/
theorem Sampled.metConditions_eq_nil
    (h : Sampled seq requestId output criteria engine engine' added text)
    (hfinished : (engine'.scheduler.memory.sequences seq).isFinished = false)
    : engine.metConditions text output criteria added = [] := by
  by_contra hmet
  rw [h.sequence_eq, isFinished_withText hmet] at hfinished
  cases hfinished

theorem Sampled.isFinished_eq_false
    (h : Sampled seq requestId output criteria engine engine' added text)
    (hfinished : (engine'.scheduler.memory.sequences seq).isFinished = false)
    : (engine.scheduler.memory.sequences seq).isFinished = false := by
  have hmet := h.metConditions_eq_nil hfinished
  rw [h.sequence_eq] at hfinished
  unfold Sequence.isFinished at hfinished ⊢
  rw [sequenceStatus_withText hmet, (Sequence.addTokenId_eq_ok h.added_eq).1] at hfinished
  exact hfinished

theorem Generated.sampled (h : Generated seq requestId returnFullText numTokens engine)
    (hextends : ExtendsText engine.tokenizer)
    (hsampled : Sampled seq requestId output criteria engine engine' added text)
    : Generated seq requestId returnFullText (numTokens + 1) engine' := by
  have hprefix := hsampled.isPrefix hextends h
  constructor
  . rw [hsampled.decodedText_eq, hsampled.sequence_eq, hsampled.tokenizer_eq]
    exact h.hasText.sampled hsampled.added_eq hextends hsampled.decoded engine output criteria
  . intro channel hlookup
    rw [hsampled.sender_eq] at hlookup
    rcases hsampled.received_eq channel hlookup with ⟨chunk, hchunk, hreceived⟩
    rw [chunkTexts_received hreceived, hchunk, hsampled.decodedText_eq, String.join_append]
    have hstreamed := h.streamed channel hlookup
    constructor
    . intro hempty
      right
      have hlength := congrArg String.length hempty
      simp only [String.length_append, String.join_cons, String.join_nil, String.append_empty,
        String.length_empty] at hlength
      exact String.length_eq_zero_iff.mp (by omega)
    . rintro (hzero | hempty)
      . cases hzero
      . rw [hempty, String.toList_empty, List.prefix_nil, String.toList_eq_nil_iff] at hprefix
        rw [hstreamed.mpr (.inr hprefix), hempty]
        rfl

theorem Ongoing.sampled (h : Ongoing seq requestId numTokens engine)
    (hsampled : Sampled seq requestId output criteria engine engine' added text)
    (hfinished : (engine'.scheduler.memory.sequences seq).isFinished = false)
    : Ongoing seq requestId (numTokens + 1) engine' := by
  have hmet := hsampled.metConditions_eq_nil hfinished
  constructor
  . have hstop : added.generatedToken text ∉ criteria.stopSequences := by
      intro hmem
      refine List.filter_eq_nil_iff.mp hmet (true, .finishedStopped) ?_ rfl
      simp [stoppingConditions, hmem]
    rw [hsampled.sequence_eq]
    unfold withText
    dsimp only
    rw [if_neg hstop, (Sequence.addTokenId_eq_ok hsampled.added_eq).1]
    exact h.stopReason_eq
  . intro channel hlookup
    rw [hsampled.sender_eq] at hlookup
    rcases h.received channel hlookup
      with ⟨outputs, hlength, hreceived⟩
    rcases hsampled.received_eq channel hlookup with ⟨chunk, -, hreceived'⟩
    refine ⟨outputs ++ [chunk], by simp [hlength], ?_⟩
    rw [hreceived', hreceived, hmet]
    simp

theorem generated_of_generates (hbegins : start.Begins seq requestId returnFullText)
    (hprompt : start.DecodesPrompt seq) (hextends : ExtendsText start.tokenizer)
    (h : start.Generates seq requestId numTokens engine)
    : engine.tokenizer = start.tokenizer
        ∧ Generated seq requestId returnFullText numTokens engine := by
  induction h with
  | begin => exact ⟨rfl, hbegins.generated hprompt⟩
  | leave _ hleaves ih => exact ⟨hleaves.tokenizer_eq.trans ih.1, ih.2.leave hleaves⟩
  | update _ hrequestId hsample hupdate ih =>
    subst hrequestId
    rcases exists_sampled hsample hupdate with ⟨added, text, hsampled⟩
    refine ⟨hsampled.tokenizer_eq.trans ih.1, ih.2.sampled ?_ hsampled⟩
    rw [ih.1]
    exact hextends

/--
A sequence that is not finished never was.
-/
theorem ongoing_of_generates (hbegins : start.Begins seq requestId returnFullText)
    (h : start.Generates seq requestId numTokens engine)
    (hunfinished : (engine.scheduler.memory.sequences seq).isFinished = false)
    : Ongoing seq requestId numTokens engine := by
  induction h with
  | begin => exact hbegins.ongoing
  | leave _ hleaves ih =>
    rw [hleaves.sameText.isFinished_eq] at hunfinished
    exact (ih hunfinished).leave hleaves
  | update _ hrequestId hsample hupdate ih =>
    subst hrequestId
    rcases exists_sampled hsample hupdate with ⟨added, text, hsampled⟩
    exact (ih (hsampled.isFinished_eq_false hunfinished)).sampled hsampled hunfinished

end Step

/--
The tokens are the code points of the text.
-/
def spell (tokenIds : List Nat) : Except String String :=
  .ok (String.ofList (tokenIds.map Char.ofNat))

theorem extendsText_spell : ExtendsText spell := by
  intro tokenIds tokenId text text' htext htext'
  cases htext
  cases htext'
  simp

/--
An engine with a sequence for the prompt "a", before the first token is sampled for it.
-/
def spelling (returnFullText : Bool) (senders : AList fun _ : String => Channel) : LlmEngine :=
  let sequence := (Sequence.new "a" [97] 16 returnFullText).toOption.get (by
    cases returnFullText <;> rfl)
  {
    LlmEngine.new (Scheduler.new ⟨16, 4, 16, 0, false⟩ 16 4 4 none (fun _ => sequence) 0) spell with
    responseStreamingSenders := senders
  }

theorem begins_spelling (returnFullText : Bool) (senders : AList fun _ : String => Channel)
    : (spelling returnFullText senders).Begins ⟨0, 0⟩ "request" returnFullText where
  created := ⟨"a", [97], 16, by cases returnFullText <;> rfl⟩
  received _ _ := rfl

theorem decodesPrompt_spelling (returnFullText : Bool) (senders : AList fun _ : String => Channel)
    : (spelling returnFullText senders).DecodesPrompt ⟨0, 0⟩ := by
  cases returnFullText <;> rfl

/--
Sample the given tokens one after the other.
-/
def sampleTokens (criteria : StoppingCriteriaParameters) (engine : LlmEngine) (tokenIds : List Nat)
    : Except EngineError LlmEngine :=
  tokenIds.foldlM
    (fun engine tokenId =>
      engine.updateSequence 0 ⟨0, 0⟩
        ⟨0, tokenId, AList.insert tokenId ⟨0, none, none⟩ ∅, false⟩
        {
          requestId := "request"
          isPrompt := false
          nextTokenChooserParams := ⟨1, 1, 1, 0, 1, true, 0, 1, 0⟩
          stoppingCriteriaParams := criteria
          blockTables := ∅
          doSample := true
          tokenChunkSize := 1
          sequenceData := ∅
          logitsProcessor := ⟨0, .argMax⟩
        }
        criteria)
    engine

theorem generates_of_sampleTokens {criteria : StoppingCriteriaParameters} {tokenIds : List Nat}
    (h : start.sampleTokens criteria tokenIds = .ok engine)
    : start.Generates ⟨0, 0⟩ "request" tokenIds.length engine := by
  induction tokenIds using List.reverseRecOn generalizing engine with
  | nil =>
    cases h
    exact .begin
  | append_singleton tokenIds tokenId ih =>
    unfold sampleTokens at h
    rw [List.foldlM_append] at h
    rcases Except.bind_eq_ok.mp h with ⟨between, hbetween, h⟩
    rw [List.foldlM_cons] at h
    rcases Except.bind_eq_ok.mp h with ⟨updated, hupdate, hpure⟩
    cases hpure
    rw [List.length_append]
    exact (ih hbetween).update rfl rfl hupdate

end LlmEngine

end AtomaInfer
