import AtomaInfer.Worker.Input
import Mathlib.Algebra.BigOperators.Group.List.Basic

/-!
The attention metadata against the batch: for which batches the rows of the decoding tensors and the
cumulative lengths of the prefill call are those of the sequences.
-/

namespace AtomaInfer

namespace ModelWorker

/--
`row` is the row of a tensor for `blockTable`.
-/
def IsPadded (blockTable row : List Nat) : Prop :=
  ∃ n, row = blockTable ++ List.replicate n 0

section Aligned

variable (worker : ModelWorker) (prompts decodes : List SequenceGroupMetadata)
variable (metadata : FlashAttentionMetadata)

/--
Each decode sequence has its row in the block tables and in the sequence lengths.
-/
def DecodingAligned : Prop :=
  match metadata.decodingMetadata with
  | none => sequencesOf decodes = []
  | some decoding => ∃ rows lengths,
    decoding.blockTables = some rows
    ∧ decoding.sequenceLengths = some lengths
    ∧ List.Forall₂
        (fun x row => ∃ input, worker.sequenceInput x.1 x.2 = .ok input
          ∧ IsPadded input.blockTable row)
        (sequencesOf decodes) rows
    ∧ List.Forall₂
        (fun x length => ∃ input, worker.sequenceInput x.1 x.2 = .ok input
          ∧ length = input.slidingSequenceLength % 2 ^ 32)
        (sequencesOf decodes) lengths

/--
The query start locations are those of the prompt sequences.
-/
def PrefillAligned : Prop :=
  match metadata.prefillMetadata with
  | none => sequencesOf prompts = []
  | some prefill => ∃ locations,
    prefill.queryStartLocations = some locations
    ∧ locations.length = (sequencesOf prompts).length + 1
    ∧ locations.head? = some 0
    ∧ locations.getLast? = some metadata.numPrefillTokens

/--
The queries of the prefill call are the prefill tokens.
-/
def QueriesAligned : Prop :=
  ∀ qNumTokens call decoding,
    FlashAttention.forward qNumTokens metadata = .ok (some call, decoding) →
    call.seqlensQ.getLast? = some metadata.numPrefillTokens

structure Aligned : Prop where
  decoding : worker.DecodingAligned decodes metadata
  prefill : PrefillAligned prompts metadata
  queries : QueriesAligned metadata

end Aligned

variable {worker : ModelWorker}

/--
The inputs of a batch with the prompts first.
-/
structure Inputs (worker : ModelWorker) (prompts decodes : List SequenceGroupMetadata)
    (metadata : FlashAttentionMetadata) where
  prefills : List SequenceInput
  decodings : List SequenceInput
  maxBlockTableLen : Nat
  prefills_eq :
    List.Forall₂ (fun x input => worker.sequenceInput x.1 x.2 = .ok input) (sequencesOf prompts)
      prefills
  decodings_eq :
    List.Forall₂ (fun x input => worker.sequenceInput x.1 x.2 = .ok input) (sequencesOf decodes)
      decodings
  isPrompt_of_mem : ∀ input ∈ prefills, input.isPrompt = true
  of_mem_decodings : ∀ input ∈ decodings, input.isPrompt = false ∧ input.queryLength = 1
  metadata_eq : metadata = metadataOf (prefills ++ decodings) maxBlockTableLen

theorem nonempty_inputs {prompts decodes : List SequenceGroupMetadata} {input : ModelInput}
    (hprompts : ∀ metadata ∈ prompts, metadata.isPrompt = true)
    (hdecodes : ∀ metadata ∈ decodes, metadata.isPrompt = false)
    (h : worker.prepareInputTensors (prompts ++ decodes) = .ok input)
    : Nonempty (Inputs worker prompts decodes input.attentionMetadata) := by
  rcases exists_inputs_of_prepareInputTensors h
    with ⟨inputs, maxBlockTableLen, hinputs, -, -, hmetadata⟩
  rw [sequencesOf_append] at hinputs
  rcases hinputs.exists_append with ⟨prefills, decodings, rfl, hprefills, hdecodings⟩
  refine ⟨prefills, decodings, maxBlockTableLen, hprefills, hdecodings, ?_, ?_, hmetadata⟩
  . intro input hinput
    rcases hprefills.flip.exists_of_mem hinput with ⟨x, hx, hinput⟩
    rw [(inputOf_of_eq_ok hinput).isPrompt_eq, hprompts _ (mem_of_mem_sequencesOf hx).1]
  . intro input hinput
    rcases hdecodings.flip.exists_of_mem hinput with ⟨x, hx, hinput⟩
    have hdecode := hdecodes _ (mem_of_mem_sequencesOf hx).1
    have hof := inputOf_of_eq_ok hinput
    refine ⟨by rw [hof.isPrompt_eq, hdecode], ?_⟩
    rw [hof.queryLength_eq, hdecode]
    rfl

theorem length_tokens_add {metadata : SequenceGroupMetadata}
    {entry : Sigma fun _ : Nat => SequenceData} {input : SequenceInput}
    (h : worker.InputOf metadata entry input) (hprompt : metadata.isPrompt = true)
    : input.tokens.length + input.contextLength = input.sequenceLength := by
  have htokens := h.tokens_eq
  have hlength := h.sequenceLength_eq
  unfold sequenceTokens at htokens
  rw [hprompt, if_pos rfl] at htokens
  split at htokens
  . rw [← Except.ok.inj htokens, List.length_drop, List.length_take, SequenceData.length_getTokenIds]
    omega
  . cases htokens

theorem exists_prefillCall {metadata : FlashAttentionMetadata} {qNumTokens : Nat}
    {call : FlashAttention.VarlenCall} {decoding : Option FlashAttention.KvCacheCall}
    (h : FlashAttention.forward qNumTokens metadata = .ok (some call, decoding))
    : ∃ prefill, metadata.prefillMetadata = some prefill
        ∧ FlashAttention.prefillCall qNumTokens prefill = .ok call := by
  unfold FlashAttention.forward at h
  dsimp only at h
  split at h
  . cases h
  . cases hprefill : metadata.prefillMetadata with
    | none =>
      rw [hprefill] at h
      cases h
    | some prefill =>
      rw [hprefill] at h
      dsimp only at h
      cases hcall : FlashAttention.prefillCall qNumTokens prefill with
      | error e =>
        rw [hcall] at h
        cases h
      | ok call' =>
        rw [hcall] at h
        cases h
        exact ⟨prefill, rfl, hcall⟩

namespace Inputs

variable {prompts decodes : List SequenceGroupMetadata} {metadata : FlashAttentionMetadata}
variable (inputs : Inputs worker prompts decodes metadata)

theorem prefills_eq_nil_iff : inputs.prefills = [] ↔ sequencesOf prompts = [] := by
  rw [← List.length_eq_zero_iff, ← List.length_eq_zero_iff, inputs.prefills_eq.length_eq]

theorem decodings_eq_nil_iff : inputs.decodings = [] ↔ sequencesOf decodes = [] := by
  rw [← List.length_eq_zero_iff, ← List.length_eq_zero_iff, inputs.decodings_eq.length_eq]

theorem filter_isPrompt
    : (inputs.prefills ++ inputs.decodings).filter (·.isPrompt) = inputs.prefills := by
  rw [List.filter_append, List.filter_eq_self.mpr inputs.isPrompt_of_mem,
    List.filter_eq_nil_iff.mpr, List.append_nil]
  intro input hinput
  simp [(inputs.of_mem_decodings input hinput).1]

theorem filter_not_isPrompt
    : (inputs.prefills ++ inputs.decodings).filter (!·.isPrompt) = inputs.decodings := by
  rw [List.filter_append, List.filter_eq_nil_iff.mpr, List.filter_eq_self.mpr, List.nil_append]
  . intro input hinput
    simp [(inputs.of_mem_decodings input hinput).1]
  . intro input hinput
    simp [inputs.isPrompt_of_mem input hinput]

theorem numPrefillTokens_eq
    : metadata.numPrefillTokens = (inputs.prefills.map (·.tokens.length)).sum := by
  have hmetadata := congrArg FlashAttentionMetadata.numPrefillTokens inputs.metadata_eq
  unfold metadataOf at hmetadata
  rwa [inputs.filter_isPrompt] at hmetadata

theorem sum_queryLength_eq : (inputs.decodings.map (·.queryLength)).sum = inputs.decodings.length := by
  have hone : inputs.decodings.map (·.queryLength) = inputs.decodings.map fun _ => 1 :=
    List.map_congr_left fun input hinput => (inputs.of_mem_decodings input hinput).2
  rw [hone]
  simp

theorem decodingMetadata_eq
    : metadata.decodingMetadata
        = if 0 < inputs.decodings.length then
            some {
              blockTables := some <|
                makeTensorWithPad ((inputs.prefills ++ inputs.decodings).map (·.blockTable))
                  inputs.maxBlockTableLen 0
              maxDecodingSequenceLength :=
                maximum (inputs.decodings.map (·.slidingSequenceLength))
              sequenceLengths :=
                some (inputs.decodings.map (·.slidingSequenceLength % 2 ^ 32))
            }
          else
            none := by
  have hmetadata := congrArg FlashAttentionMetadata.decodingMetadata inputs.metadata_eq
  unfold metadataOf at hmetadata
  rw [inputs.filter_isPrompt, inputs.filter_not_isPrompt] at hmetadata
  dsimp only at hmetadata
  rw [inputs.sum_queryLength_eq, ← List.map_drop, List.drop_left] at hmetadata
  exact hmetadata

theorem prefillMetadata_eq
    : metadata.prefillMetadata
        = if 0 < metadata.numPrefillTokens then
            some {
              blockTables := none
              maxQueryLength :=
                some <| maximum <|
                  (inputs.prefills ++ inputs.decodings).map (·.queryLength % 2 ^ 32)
              maxPrefillSequenceLength := maximum (inputs.prefills.map (·.sequenceLength))
              queryStartLocations := some <|
                (cumulative <|
                  (inputs.prefills ++ inputs.decodings).map (·.queryLength % 2 ^ 32)).take
                    inputs.prefills.length
              sequenceStartLocations := some <|
                cumulative (inputs.prefills.map (·.slidingSequenceLength % 2 ^ 32))
              sequenceLengths :=
                some (inputs.prefills.map (·.slidingSequenceLength % 2 ^ 32))
            }
          else
            none := by
  have hmetadata := congrArg FlashAttentionMetadata.prefillMetadata inputs.metadata_eq
  unfold metadataOf cumulative at hmetadata
  rw [inputs.filter_isPrompt, inputs.filter_not_isPrompt] at hmetadata
  dsimp only at hmetadata
  rw [List.take_scanl, ← List.map_take, List.take_left] at hmetadata
  rw [inputs.numPrefillTokens_eq]
  exact hmetadata

/--
The rows start at the first sequence of the batch.
-/
theorem decodingAligned_iff (inputs : Inputs worker prompts decodes metadata)
    : worker.DecodingAligned decodes metadata
        ↔ sequencesOf prompts = [] ∨ sequencesOf decodes = [] := by
  unfold DecodingAligned
  rw [inputs.decodingMetadata_eq, ← inputs.prefills_eq_nil_iff, ← inputs.decodings_eq_nil_iff]
  by_cases hpos : 0 < inputs.decodings.length
  . rw [if_pos hpos]
    dsimp only
    constructor
    . rintro ⟨rows, lengths, hrows, -, hforall, -⟩
      cases hrows
      have hlength := hforall.length_eq
      simp only [makeTensorWithPad, List.length_map, List.length_append] at hlength
      rw [inputs.decodings_eq.length_eq] at hlength
      left
      rw [← List.length_eq_zero_iff]
      omega
    . rintro (hnil | hnil)
      . refine ⟨_, _, rfl, rfl, ?_, ?_⟩
        . unfold makeTensorWithPad
          rw [hnil, List.nil_append, List.forall₂_map_right_iff, List.forall₂_map_right_iff]
          exact inputs.decodings_eq.imp fun x input hinput => ⟨input, hinput, _, rfl⟩
        . rw [List.forall₂_map_right_iff]
          exact inputs.decodings_eq.imp fun x input hinput => ⟨input, hinput, rfl⟩
      . rw [hnil] at hpos
        cases hpos
  . have hnil : inputs.decodings = [] := List.length_eq_zero_iff.mp (by omega)
    rw [if_neg hpos, hnil]
    exact iff_of_true rfl (.inr rfl)

theorem numPrefillTokens_eq_zero (inputs : Inputs worker prompts decodes metadata)
    (h : sequencesOf prompts = []) : metadata.numPrefillTokens = 0 := by
  rw [inputs.numPrefillTokens_eq, inputs.prefills_eq_nil_iff.mpr h]
  rfl

/--
The last of the query start locations is cut off.
-/
theorem prefillAligned_iff (inputs : Inputs worker prompts decodes metadata)
    : PrefillAligned prompts metadata ↔ sequencesOf prompts = [] := by
  unfold PrefillAligned
  rw [inputs.prefillMetadata_eq]
  by_cases hpos : 0 < metadata.numPrefillTokens
  . rw [if_pos hpos]
    dsimp only
    constructor
    . rintro ⟨locations, hlocations, hlength, -, -⟩
      cases hlocations
      rw [inputs.prefills_eq.length_eq, List.length_take] at hlength
      omega
    . intro hnil
      have := inputs.numPrefillTokens_eq_zero hnil
      omega
  . rw [if_neg hpos]

theorem queriesAligned_of_eq_nil (inputs : Inputs worker prompts decodes metadata)
    (h : sequencesOf prompts = []) : QueriesAligned metadata := by
  intro qNumTokens call decoding hforward
  rcases exists_prefillCall hforward with ⟨prefill, hprefill, -⟩
  rw [inputs.prefillMetadata_eq, inputs.numPrefillTokens_eq_zero h, if_neg (by omega)] at hprefill
  cases hprefill

theorem sum_sequenceLength (inputs : Inputs worker prompts decodes metadata)
    : (inputs.prefills.map (·.sequenceLength)).sum
        = metadata.numPrefillTokens + (inputs.prefills.map (·.contextLength)).sum := by
  rw [inputs.numPrefillTokens_eq, ← List.sum_map_add]
  congr 1
  apply List.map_congr_left
  intro input hinput
  rcases inputs.prefills_eq.flip.exists_of_mem hinput with ⟨x, -, hx⟩
  have hof := inputOf_of_eq_ok hx
  rw [length_tokens_add hof]
  rw [← hof.isPrompt_eq, inputs.isPrompt_of_mem input hinput]

/--
The cumulative lengths that `forward` passes for the queries.
-/
theorem seqlensQ_eq (inputs : Inputs worker prompts decodes metadata)
    (hlt : ∀ input ∈ inputs.prefills, input.sequenceLength < 2 ^ 32) {qNumTokens : Nat}
    {call : FlashAttention.VarlenCall} {decoding : Option FlashAttention.KvCacheCall}
    (h : FlashAttention.forward qNumTokens metadata = .ok (some call, decoding))
    : call.seqlensQ = cumulative (inputs.prefills.map (·.sequenceLength)) := by
  rcases exists_prefillCall h with ⟨prefill, hprefill, hcall⟩
  rw [inputs.prefillMetadata_eq] at hprefill
  split at hprefill
  . cases hprefill
    cases hcall
    dsimp only
    congr 1
    apply List.map_congr_left
    intro input hinput
    rcases inputs.prefills_eq.flip.exists_of_mem hinput with ⟨x, -, hx⟩
    have hof := inputOf_of_eq_ok hx
    have hprompt : x.1.isPrompt = true := by
      rw [← hof.isPrompt_eq, inputs.isPrompt_of_mem input hinput]
    have hsliding := hof.slidingSequenceLength_eq
    rw [hprompt] at hsliding
    have hlength : input.slidingSequenceLength = input.sequenceLength := by
      rw [hsliding]
      split <;> rfl
    rw [hlength, Nat.mod_eq_of_lt (hlt input hinput)]
  . cases hprefill

/--
The lengths of the sequences stand in for those of the queries, which is right only when nothing of
the prompts is computed yet.
-/
theorem queriesAligned_iff (inputs : Inputs worker prompts decodes metadata)
    (hlt : ∀ input ∈ inputs.prefills, input.sequenceLength < 2 ^ 32)
    : QueriesAligned metadata
        ↔ metadata.numPrefillTokens = 0 ∨ ∀ input ∈ inputs.prefills, input.contextLength = 0 := by
  have hlast : ∀ {qNumTokens call decoding},
      FlashAttention.forward qNumTokens metadata = .ok (some call, decoding) →
      (call.seqlensQ.getLast? = some metadata.numPrefillTokens
        ↔ ∀ input ∈ inputs.prefills, input.contextLength = 0) := by
    intro qNumTokens call decoding hforward
    rw [inputs.seqlensQ_eq hlt hforward]
    unfold cumulative
    rw [List.getLast?_scanl, ← List.sum_eq_foldl, inputs.sum_sequenceLength, Option.some_inj,
      Nat.add_eq_left, List.sum_eq_zero_iff_forall_eq_nat]
    simp
  by_cases hpos : 0 < metadata.numPrefillTokens
  . have hforward : ∃ call decoding, FlashAttention.forward
        (metadata.numPrefillTokens + metadata.numDecodingTokens) metadata
          = .ok (some call, decoding) := by
      unfold FlashAttention.forward
      rw [inputs.prefillMetadata_eq, if_pos hpos]
      simp [FlashAttention.prefillCall, bind, Except.bind, pure, Except.pure]
    rcases hforward with ⟨call, decoding, hforward⟩
    constructor
    . intro haligned
      exact .inr ((hlast hforward).mp (haligned _ _ _ hforward))
    . rintro (hzero | hcontext)
      . omega
      . intro qNumTokens call decoding hforward
        exact (hlast hforward).mpr hcontext
  . refine iff_of_true ?_ (.inl (by omega))
    intro qNumTokens call decoding hforward
    rcases exists_prefillCall hforward with ⟨prefill, hprefill, -⟩
    rw [inputs.prefillMetadata_eq, if_neg hpos] at hprefill
    cases hprefill

end Inputs

end ModelWorker

end AtomaInfer
