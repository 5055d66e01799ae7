import AtomaInfer.Engine.Generation
import AtomaInfer.Server.Message
import AtomaInfer.Server.Stream

/-!
The usage that the server reports for a request (`chat_completions.rs`).
-/

namespace AtomaInfer

inductive FinishReason where
  | stopped
  | lengthCapped
  | contentFilter
  deriving DecidableEq

def FinishReason.tryFrom (value : Option String) : Except String FinishReason :=
  match value with
  | some value =>
    if value = "stopped" then .ok .stopped
    else if value = "length_capped" then .ok .lengthCapped
    else if value = "content_filter" then .ok .contentFilter
    else .error ("Invalid finish reason: " ++ value)
  | none => .ok .stopped

structure Choice (Value : Type) where
  index : UInt32
  message : ChatCompletions.Message Value
  logprobs : Option Value
  finishReason : FinishReason

structure ChatCompletionResponse (Value : Type) where
  id : String
  object : String
  created : Nat
  model : String
  systemFingerprint : String
  choices : List (Choice Value)
  usage : Usage

variable {Value Event Error : Type}
variable (format : EventFormat Value Event Error (ChatCompletionChunk Value))

namespace ChatCompletionResponse

def choice (output : InferenceOutput) : Except String (Choice Value) := do
  let logprobs ← (format.toValue output.logprobs).mapError fun e =>
    "Failed to convert logprobs to JSON: " ++ e
  let finishReason ← FinishReason.tryFrom output.finishReason
  return {
    index := output.index.toUInt32
    message := .assistant (some (.text output.outputText)) none none []
    logprobs := some logprobs
    finishReason
  }

/--
The sum wraps around.
-/
def usageOf (value : GenerateRequestOutput) : Usage :=
  let promptTokens := value.promptTokenIds.length.toUInt32
  let numCompletionTokens : Nat := (value.inferenceOutputs.map (·.tokenIds.length)).sum
  let completionTokens := numCompletionTokens.toUInt32
  { promptTokens, completionTokens, totalTokens := promptTokens + completionTokens }

/--
`created` is the time of the response. The time at which the request was finished is known once it
is.
-/
def tryFrom (created : Nat) (model : String) (value : GenerateRequestOutput)
    : Except String (ChatCompletionResponse Value) := do
  let choices ← value.inferenceOutputs.mapM (choice format)
  if value.isFinished then
    return {
      id := value.requestId
      object := "chat.completions"
      created
      model
      systemFingerprint := "vllm"
      choices
      usage := usageOf value
    }
  else
    throw "Finished time not found"

variable {format} {created : Nat} {model : String} {value : GenerateRequestOutput}
variable {response : ChatCompletionResponse Value}

theorem usage_of_tryFrom (h : tryFrom format created model value = .ok response)
    : response.usage = usageOf value := by
  rcases Except.bind_eq_ok.mp h with ⟨choices, -, h⟩
  split at h
  . cases h
    rfl
  . cases h

theorem exists_tryFrom (hvalue : ∀ logprobs, ∃ value, format.toValue logprobs = .ok value)
    (hreason : ∀ output ∈ value.inferenceOutputs,
      ∃ reason, FinishReason.tryFrom output.finishReason = .ok reason)
    (hfinished : value.isFinished = true) (created : Nat) (model : String)
    : ∃ response, tryFrom format created model value = .ok response := by
  have hchoice : ∀ output ∈ value.inferenceOutputs, ∃ c, choice format output = .ok c := by
    intro output houtput
    rcases hvalue output.logprobs with ⟨logprobs, hlogprobs⟩
    rcases hreason output houtput with ⟨reason, hreason⟩
    unfold choice
    rw [hlogprobs, hreason]
    exact ⟨_, rfl⟩
  rcases Except.exists_mapM hchoice with ⟨choices, hchoices⟩
  unfold tryFrom
  rw [hchoices]
  simp only [bind, Except.bind, hfinished, if_true]
  exact ⟨_, rfl⟩

end ChatCompletionResponse

theorem ChatCompletionChunk.usage_of_tryFrom {format : EventFormat Value Event Error
    (ChatCompletionChunk Value)} {model : String} {value : GenerateStreamingOutput}
    {chunk : ChatCompletionChunk Value} (h : tryFrom format model value = .ok chunk)
    : chunk.usage = {
        promptTokens := value.numPromptTokens.toUInt32
        completionTokens := value.numCompletionTokens.toUInt32
        totalTokens := value.numPromptTokens.toUInt32 + value.numCompletionTokens.toUInt32 } := by
  rcases Except.bind_eq_ok.mp h with ⟨logprobs, -, hpure⟩
  cases hpure
  rfl

/--
The usage for `numPromptTokens` prompt tokens and `numCompletionTokens` generated tokens.
-/
structure Usage.Counts (numPromptTokens numCompletionTokens : Nat) (usage : Usage) : Prop where
  promptTokens : usage.promptTokens.toNat = numPromptTokens
  completionTokens : usage.completionTokens.toNat = numCompletionTokens
  totalTokens : usage.totalTokens.toNat = numPromptTokens + numCompletionTokens

namespace LlmEngine

/--
The chunks among `messages`.
-/
def chunks (messages : List Message) : List GenerateStreamingOutput :=
  messages.filterMap fun message =>
    match message with
    | .streaming (.chunk output) => some output
    | _ => none

variable {engine engine' between start : LlmEngine} {seq : SequenceRef} {requestId : String}
variable {returnFullText : Bool} {numTokens created : Nat} {output : SequenceOutput}
variable {metadata : SequenceGroupMetadata} {criteria : StoppingCriteriaParameters}
variable {channel : Channel}

/--
The number of tokens in a chunk is the one before its own token is counted.
-/
theorem chunks_of_updateSequence (hsample : metadata.doSample = true)
    (h : engine.updateSequence created seq output metadata criteria = .ok engine')
    : (engine'.scheduler.memory.sequences seq).tokens.length
          = (engine.scheduler.memory.sequences seq).tokens.length + 1
        ∧ engine'.responseStreamingSenders = engine.responseStreamingSenders
        ∧ ∀ channel, engine.responseStreamingSenders.lookup metadata.requestId = some channel →
            ∃ chunk,
              chunk.numCompletionTokens = (engine.scheduler.memory.sequences seq).tokens.length
                ∧ chunks (engine'.received channel) = chunks (engine.received channel) ++ [chunk] := by
  rcases updateSequence_eq_ok hsample h with ⟨-, sequence, responses, hresult, rfl⟩
  rcases Except.bind_eq_ok.mp hresult with ⟨added, hadd, hresult⟩
  rcases Except.bind_eq_ok.mp hresult with ⟨text, -, hpure⟩
  have htokens : added.tokens = (engine.scheduler.memory.sequences seq).tokens := by
    rw [(Sequence.addTokenId_eq_ok (Except.mapError_eq_ok.mp hadd)).1]
  cases hpure
  refine ⟨?_, rfl, ?_⟩
  . simp [writeSequence, htokens]
  . intro channel hlookup
    refine ⟨{
      requestId := metadata.requestId
      created
      finishReason := none
      logprobs := added.outputLogprobs
      numPromptTokens := added.sequenceData.promptTokenIds.length
      numCompletionTokens := added.tokens.length
      outputText := text }, congrArg List.length htokens, ?_⟩
    change chunks ((engine.stream metadata.requestId _).received channel) = _
    rw [received_stream hlookup]
    simp [chunks, List.filterMap_append]

/--
The chunks of a stream count the tokens from zero on.
-/
theorem chunks_of_generates (hbegins : start.Begins seq requestId returnFullText)
    (h : start.Generates seq requestId numTokens engine)
    : (engine.scheduler.memory.sequences seq).tokens.length = numTokens
        ∧ ∀ channel, engine.responseStreamingSenders.lookup requestId = some channel →
            (chunks (engine.received channel)).map (·.numCompletionTokens)
              = List.range numTokens := by
  induction h with
  | begin =>
    rcases hbegins.created with ⟨prompt, promptTokenIds, blockSize, hnew⟩
    refine ⟨?_, ?_⟩
    . rw [Sequence.appendTokensToBlocks_eq_ok hnew]
      rfl
    . intro channel hlookup
      rw [hbegins.received channel hlookup]
      rfl
  | leave _ hleaves ih =>
    refine ⟨by rw [hleaves.sameText.tokens_eq, ih.1], ?_⟩
    intro channel hlookup
    rw [hleaves.sender_eq] at hlookup
    rw [hleaves.received_eq channel hlookup]
    exact ih.2 channel hlookup
  | update _ hrequestId hsample hupdate ih =>
    subst hrequestId
    rcases chunks_of_updateSequence hsample hupdate with ⟨htokens, hsenders, hchunks⟩
    refine ⟨by rw [htokens, ih.1], ?_⟩
    intro channel hlookup
    rw [hsenders] at hlookup
    rcases hchunks channel hlookup with ⟨chunk, hcount, hreceived⟩
    rw [hreceived, List.map_append, ih.2 channel hlookup, List.range_succ, List.map_singleton,
      hcount, ih.1]

/--
The client of a request with the sequence `seq` is told how many tokens the prompt has, and how many
were generated so far.
-/
structure ReportsUsage (group : SequenceGroup) (seq : SequenceRef) (engine : LlmEngine) : Prop where
  response : ∀ created model, ∃ output response,
    GenerateRequestOutput.fromSequenceGroup engine.scheduler.memory.sequences group = .ok output
      ∧ ChatCompletionResponse.tryFrom format created model output = .ok response
      ∧ response.usage.Counts
          (engine.scheduler.memory.sequences seq).sequenceData.getPromptLen
          (engine.scheduler.memory.sequences seq).getOutputLen
  streamed : ∀ channel,
    engine.responseStreamingSenders.lookup group.requestId = some channel →
      (chunks (engine.received channel)).length = (engine.scheduler.memory.sequences seq).getOutputLen
        ∧ ∀ model (j : Nat) output, (chunks (engine.received channel))[j]? = some output →
            ∃ chunk,
              ChatCompletionChunk.tryFrom format model output = .ok chunk
                ∧ chunk.usage.Counts
                    (engine.scheduler.memory.sequences seq).sequenceData.getPromptLen (j + 1)

theorem finishReason_of_mem_stoppingConditions {generatedToken : String} {maxModelLen : Nat}
    {sequence : Sequence} {condition : Bool × SequenceStatus}
    (h : condition ∈ stoppingConditions generatedToken output criteria maxModelLen sequence)
    : ∃ reason, FinishReason.tryFrom condition.2.finishedReason = .ok reason := by
  simp only [stoppingConditions, List.mem_cons, List.not_mem_nil, or_false] at h
  rcases h with rfl | rfl | rfl | rfl <;> exact ⟨_, rfl⟩

/--
A sequence that the engine finishes has a reason that the server knows.
-/
theorem finishReason_of_updateSequence (hsample : metadata.doSample = true)
    (h : engine.updateSequence created seq output metadata criteria = .ok engine')
    (hunfinished : (engine.scheduler.memory.sequences seq).isFinished = false)
    (hfinished : (engine'.scheduler.memory.sequences seq).isFinished = true)
    : ∃ reason, FinishReason.tryFrom
        (engine'.scheduler.memory.sequences seq).sequenceStatus.finishedReason = .ok reason := by
  rcases exists_sampled hsample h with ⟨added, text, hsampled⟩
  rw [hsampled.sequence_eq] at hfinished ⊢
  cases hlast : (engine.metConditions text output criteria added).getLast? with
  | none =>
    have hstatus := sequenceStatus_withText (List.getLast?_eq_none_iff.mp hlast)
    unfold Sequence.isFinished at hfinished hunfinished
    rw [hstatus, (Sequence.addTokenId_eq_ok hsampled.added_eq).1] at hfinished
    rw [hunfinished] at hfinished
    cases hfinished
  | some last =>
    have hstatus : (engine.withText text output criteria added).sequenceStatus = last.2 := by
      unfold withText
      rw [hlast]
      rfl
    rw [hstatus]
    exact finishReason_of_mem_stoppingConditions
      (List.mem_filter.mp (List.mem_of_getLast? hlast)).1

/--
The output of a request with a single sequence.
-/
theorem exists_fromSequenceGroup_singleton {group : SequenceGroup} (heap : SequenceHeap)
    (hgroup : group.sequences = [seq])
    : ∃ result,
        GenerateRequestOutput.fromSequenceGroup heap group = .ok result
          ∧ result.inferenceOutputs = [GenerateRequestOutput.inferenceOutput 0 (heap seq)]
          ∧ result.promptTokenIds = (heap seq).sequenceData.promptTokenIds
          ∧ result.isFinished = (heap seq).isFinished := by
  unfold GenerateRequestOutput.fromSequenceGroup GenerateRequestOutput.topNSequences
    SequenceGroup.isFinished
  rw [hgroup]
  exact ⟨_, rfl, rfl, rfl, Bool.and_true _⟩

section Single

variable {format} {group : SequenceGroup}

variable (format) in
/--
What the response of a request with a single sequence counts.
-/
theorem exists_usage (hgroup : group.sequences = [seq])
    : ∃ result,
        GenerateRequestOutput.fromSequenceGroup engine.scheduler.memory.sequences group = .ok result
          ∧ result.inferenceOutputs
              = [GenerateRequestOutput.inferenceOutput 0 (engine.scheduler.memory.sequences seq)]
          ∧ result.isFinished = (engine.scheduler.memory.sequences seq).isFinished
          ∧ ∀ created model response,
              ChatCompletionResponse.tryFrom format created model result = .ok response →
                response.usage.promptTokens.toNat
                      = (engine.scheduler.memory.sequences seq).sequenceData.getPromptLen % 2 ^ 32
                  ∧ response.usage.completionTokens.toNat
                      = ((engine.scheduler.memory.sequences seq).sequenceData.getPromptLen
                        + (engine.scheduler.memory.sequences seq).getOutputLen) % 2 ^ 32
                  ∧ response.usage.totalTokens.toNat
                      = (response.usage.promptTokens.toNat + response.usage.completionTokens.toNat)
                        % 2 ^ 32 := by
  rcases exists_fromSequenceGroup_singleton engine.scheduler.memory.sequences hgroup
    with ⟨result, hresult, hinference, hprompts, hdone⟩
  refine ⟨result, hresult, hinference, hdone, ?_⟩
  intro created model response hresponse
  have htokenIds : (engine.scheduler.memory.sequences seq).sequenceData.getTokenIds.length
      = (engine.scheduler.memory.sequences seq).sequenceData.getPromptLen
        + (engine.scheduler.memory.sequences seq).getOutputLen :=
    List.length_append
  rw [ChatCompletionResponse.usage_of_tryFrom hresponse]
  unfold ChatCompletionResponse.usageOf
  rw [hinference, hprompts]
  refine ⟨UInt32.toNat_ofNat', ?_, UInt32.toNat_add _ _⟩
  rw [← htokenIds]
  exact UInt32.toNat_ofNat'

theorem ReportsUsage.getPromptLen_eq_zero (h : ReportsUsage format group seq engine)
    (hgroup : group.sequences = [seq])
    : (engine.scheduler.memory.sequences seq).sequenceData.getPromptLen = 0
        ∧ (engine.scheduler.memory.sequences seq).getOutputLen < 2 ^ 32 := by
  rcases exists_usage format hgroup with ⟨result, hresult, -, -, husage⟩
  rcases h.response 0 "" with ⟨result', response, hresult', hresponse, hcounts⟩
  rw [hresult] at hresult'
  cases hresult'
  rcases husage _ _ _ hresponse with ⟨hprompt, hcompletion, -⟩
  rw [hcounts.promptTokens] at hprompt
  rw [hcounts.completionTokens] at hcompletion
  constructor <;> omega

/--
The first chunk of a stream counts no token.
-/
theorem ReportsUsage.lookup_eq_none (h : ReportsUsage format group seq engine)
    (hchunks : ∀ channel, engine.responseStreamingSenders.lookup group.requestId = some channel →
      (chunks (engine.received channel)).map (·.numCompletionTokens)
        = List.range (numTokens + 1))
    : engine.responseStreamingSenders.lookup group.requestId = none := by
  cases hlookup : engine.responseStreamingSenders.lookup group.requestId with
  | none => rfl
  | some channel =>
    rcases h.streamed channel hlookup with ⟨-, hstreamed⟩
    have hcount := hchunks channel hlookup
    cases hreceived : chunks (engine.received channel) with
    | nil =>
      rw [hreceived] at hcount
      have hlength := congrArg List.length hcount
      simp at hlength
    | cons first rest =>
      rw [hreceived] at hcount hstreamed
      rw [List.range_succ_eq_map, List.map_cons, List.cons.injEq] at hcount
      rcases hstreamed "" 0 first rfl with ⟨chunk, hchunk, hfirst⟩
      have hone := hfirst.completionTokens
      rw [ChatCompletionChunk.usage_of_tryFrom hchunk, hcount.1] at hone
      cases hone

end Single

/--
The response counts the prompt among the generated tokens, and a chunk does not count its own token.
-/
theorem reportsUsage_iff {group : SequenceGroup}
    (hvalue : ∀ logprobs, ∃ value, format.toValue logprobs = .ok value)
    (hbegins : start.Begins seq requestId returnFullText)
    (hgenerates : start.Generates seq requestId numTokens between)
    (hunfinished : (between.scheduler.memory.sequences seq).isFinished = false)
    (hrequestId : metadata.requestId = requestId) (hsample : metadata.doSample = true)
    (hupdate : between.updateSequence created seq output metadata criteria = .ok engine)
    (hfinished : (engine.scheduler.memory.sequences seq).isFinished = true)
    (hgroup : group.sequences = [seq]) (hgroupId : group.requestId = requestId)
    : ReportsUsage format group seq engine
        ↔ (engine.scheduler.memory.sequences seq).sequenceData.getPromptLen = 0
          ∧ (engine.scheduler.memory.sequences seq).getOutputLen < 2 ^ 32
          ∧ engine.responseStreamingSenders.lookup requestId = none := by
  have hchunks := (chunks_of_generates hbegins (.update hgenerates hrequestId hsample hupdate)).2
  rw [← hgroupId] at hchunks ⊢
  constructor
  . intro h
    have hcounts := h.getPromptLen_eq_zero hgroup
    exact ⟨hcounts.1, hcounts.2, h.lookup_eq_none hchunks⟩
  . rintro ⟨hprompt, houtputLen, hlookup⟩
    refine ⟨?_, ?_⟩
    . intro created' model
      rcases exists_usage format hgroup
        with ⟨result, hresult, hinference, hdone, husage⟩
      rcases finishReason_of_updateSequence hsample hupdate hunfinished hfinished
        with ⟨reason, hreason⟩
      have hreasons : ∀ output ∈ result.inferenceOutputs,
          ∃ reason, FinishReason.tryFrom output.finishReason = .ok reason := by
        intro output houtput
        rw [hinference] at houtput
        cases List.mem_singleton.mp houtput
        exact ⟨reason, hreason⟩
      rcases ChatCompletionResponse.exists_tryFrom hvalue hreasons (hdone.trans hfinished) created'
        model with ⟨response, hresponse⟩
      rcases husage _ _ _ hresponse with ⟨hpromptTokens, hcompletion, htotal⟩
      exact ⟨result, response, hresult, hresponse, by omega, by omega, by omega⟩
    . intro channel hchannel
      rw [hlookup] at hchannel
      cases hchannel

/--
A request with the sequence 0.
-/
def single : SequenceGroup where
  requestId := "request"
  sequences := [⟨0, 0⟩]
  arrivalTime := 0
  nextTokenChooserParams := ⟨1, 1, 1, 0, 1, true, 0, 1, 0⟩
  stoppingCriteria := ⟨1, [], false⟩
  logitsProcessor := ⟨0, .argMax⟩

/--
An engine with a sequence that has no prompt.
-/
def unprompted : LlmEngine :=
  let sequence := (Sequence.new "" [] 16 false).toOption.get rfl
  LlmEngine.new (Scheduler.new ⟨16, 4, 16, 0, false⟩ 16 4 4 none (fun _ => sequence) 0) spell

/--
Without a prompt and without a stream there is nothing to count wrong.
-/
theorem reportsUsage_iff_unprompted
    : ∃ engine,
        unprompted.sampleTokens ⟨1, [], false⟩ [98] = .ok engine
          ∧ ReportsUsage Connection.lines single ⟨0, 0⟩ engine := by
  have hrun : (unprompted.sampleTokens ⟨1, [], false⟩ [98]).toOption.any (fun engine =>
      (engine.scheduler.memory.sequences ⟨0, 0⟩).isFinished = true
        ∧ (engine.scheduler.memory.sequences ⟨0, 0⟩).sequenceData.getPromptLen = 0
        ∧ (engine.scheduler.memory.sequences ⟨0, 0⟩).getOutputLen = 1
        ∧ engine.responseStreamingSenders.lookup "request" = none) = true := by
    decide +kernel
  rcases Except.exists_eq_ok_of_any hrun with ⟨engine, hengine, hresult⟩
  rcases of_decide_eq_true hresult with ⟨hfinished, hprompt, houtputLen, hlookup⟩
  refine ⟨engine, hengine, ?_⟩
  rcases Except.bind_eq_ok.mp hengine with ⟨updated, hupdate, hpure⟩
  cases hpure
  have hbegins : unprompted.Begins ⟨0, 0⟩ "request" false := ⟨⟨"", [], 16, rfl⟩, fun _ _ => rfl⟩
  exact (reportsUsage_iff Connection.lines (fun _ => ⟨(), rfl⟩) hbegins .begin rfl rfl rfl hupdate
    hfinished rfl rfl).mpr ⟨hprompt, by omega, hlookup⟩

/--
After a prompt of one token and one generated token the usage is 1 + 2 = 3.
-/
theorem not_reportsUsage_one_token
    : ¬ ∀ numTokens engine,
        (spelling false ∅).Generates ⟨0, 0⟩ "request" numTokens engine → 1 ≤ numTokens →
          (engine.scheduler.memory.sequences ⟨0, 0⟩).isFinished = true →
            ReportsUsage Connection.lines single ⟨0, 0⟩ engine := by
  intro h
  have hrun : ((spelling false ∅).sampleTokens ⟨1, [], false⟩ [98]).toOption.any (fun engine =>
      (engine.scheduler.memory.sequences ⟨0, 0⟩).isFinished = true
        ∧ (engine.scheduler.memory.sequences ⟨0, 0⟩).sequenceData.getPromptLen = 1) = true := by
    decide +kernel
  rcases Except.exists_eq_ok_of_any hrun with ⟨engine, hengine, hresult⟩
  rcases of_decide_eq_true hresult with ⟨hfinished, hprompt⟩
  have hreports := h 1 engine (generates_of_sampleTokens hengine) (by decide) hfinished
  have hzero := (hreports.getPromptLen_eq_zero rfl).1
  omega

end LlmEngine

end AtomaInfer
