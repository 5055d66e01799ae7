import Mathlib.Algebra.Order.BigOperators.Group.List
import AtomaInfer.Worker.Input

/-!
The rows of the logits: the positions that the worker selects for them, and the sequences that the
model executor samples from them.
-/

namespace AtomaInfer

/--
The batch computes a token of the sequence.
-/
def HasQuery (metadata : SequenceGroupMetadata) (data : SequenceData) : Prop :=
  metadata.isPrompt = true →
    data.numComputedTokens < min data.length (data.numComputedTokens + metadata.tokenChunkSize)

instance (metadata : SequenceGroupMetadata) (data : SequenceData)
    : Decidable (HasQuery metadata data) := by
  unfold HasQuery
  infer_instance

namespace ModelWorker

/--
The tokens that the worker takes from `sequences`, one sequence after the other.
-/
def Contributes (worker : ModelWorker)
    (sequences : List (SequenceGroupMetadata × Sigma fun _ : Nat => SequenceData))
    (tokens : List Nat) : Prop :=
  ∃ inputs,
    List.Forall₂ (fun x input => worker.sequenceInput x.1 x.2 = .ok input) sequences inputs
      ∧ tokens = inputs.flatMap (·.tokens)

/--
The last token that the worker takes from the sequence `x`, which comes after `before` in the batch,
is at `position` in `inputTokens`.
-/
def LastTokenAt (worker : ModelWorker) (inputTokens : List Nat)
    (before : List (SequenceGroupMetadata × Sigma fun _ : Nat => SequenceData))
    (x : SequenceGroupMetadata × Sigma fun _ : Nat => SequenceData) (position : Nat) : Prop :=
  ∃ earlier tokens later,
    worker.Contributes before earlier
      ∧ worker.Contributes [x] tokens
      ∧ tokens ≠ []
      ∧ inputTokens = earlier ++ tokens ++ later
      ∧ position + 1 = (earlier ++ tokens).length

variable {worker : ModelWorker} {metadata : SequenceGroupMetadata}
variable {entry : Sigma fun _ : Nat => SequenceData} {input : SequenceInput}

/--
A query is as long as the tokens that are computed for it.
-/
theorem InputOf.queryLength_eq_length (h : worker.InputOf metadata entry input)
    (hquery : HasQuery metadata entry.2)
    : input.queryLength = input.tokens.length ∧ 0 < input.tokens.length := by
  have htokens := h.tokens_eq
  have hcontext := h.contextLength_eq
  rw [h.queryLength_eq]
  unfold sequenceTokens at htokens
  unfold contextLength at hcontext
  cases hprompt : metadata.isPrompt with
  | true =>
    simp only [hprompt, if_true, Except.ok.injEq] at htokens hcontext ⊢
    have hpos := hquery hprompt
    have hlength := h.sequenceLength_eq
    rw [if_pos (by omega), Except.ok.injEq] at htokens
    rw [← htokens, List.length_drop, List.length_take, SequenceData.length_getTokenIds]
    omega
  | false =>
    simp only [hprompt, Bool.false_eq_true, if_false] at htokens ⊢
    cases hlast : entry.2.getLastTokenId with
    | none =>
      rw [hlast] at htokens
      cases htokens
    | some lastTokenId =>
      rw [hlast] at htokens
      rw [← Except.ok.inj htokens]
      exact ⟨rfl, Nat.zero_lt_one⟩

theorem getElem?_cumulative {lengths : List Nat} {i : Nat} (h : i ≤ lengths.length)
    : (cumulative lengths)[i]? = some (lengths.take i).sum := by
  unfold cumulative
  rw [List.getElem?_eq_getElem (by rw [List.length_scanl]; omega), List.getElem_scanl,
    List.sum_eq_foldl]

/--
The selected positions are the last ones of the queries.
-/
theorem computeSelectedTokenIndices_cumulative {lengths : List Nat} (h : ∀ n ∈ lengths, 0 < n)
    : ∃ selected,
        computeSelectedTokenIndices (cumulative lengths) = .ok selected
          ∧ ∀ i, i < lengths.length →
              ∃ position, selected[i]? = some position
                ∧ position + 1 = (lengths.take (i + 1)).sum := by
  have htail : ∀ {i}, i < lengths.length →
      (cumulative lengths).tail[i]? = some (lengths.take (i + 1)).sum := by
    intro i hi
    rw [List.getElem?_tail, getElem?_cumulative (by omega)]
  have hpos : ∀ {i}, i < lengths.length → 0 < (lengths.take (i + 1)).sum := by
    intro i hi
    rw [List.take_succ_eq_append_getElem hi, List.sum_append, List.sum_singleton]
    have := h lengths[i] (List.getElem_mem hi)
    omega
  refine ⟨(cumulative lengths).tail.map (· - 1), Except.mapM_eq_ok ?_, ?_⟩
  . intro location hlocation
    rcases List.mem_iff_getElem?.mp hlocation with ⟨i, hi⟩
    have hlt : i < lengths.length := by
      have := (List.getElem?_eq_some_iff.mp hi).1
      rw [List.length_tail, length_cumulative] at this
      omega
    rw [htail hlt] at hi
    cases hi
    rw [if_neg (hpos hlt).ne']
  . intro i hi
    refine ⟨(lengths.take (i + 1)).sum - 1, ?_, Nat.sub_add_cancel (hpos hi)⟩
    rw [List.getElem?_map, htail hi]
    rfl

theorem exists_selected {batch : List SequenceGroupMetadata} {input : ModelInput}
    (h : worker.prepareInputTensors batch = .ok input) (hexact : input.inputTokens.length < 2 ^ 24)
    (hquery : ∀ x ∈ sequencesOf batch, HasQuery x.1 x.2.2)
    : ∃ selected,
        computeSelectedTokenIndices input.cuQueryLengths = .ok selected
          ∧ ∀ before x after, sequencesOf batch = before ++ x :: after →
              ∃ position, selected[before.length]? = some position
                ∧ worker.LastTokenAt input.inputTokens before x position := by
  rcases exists_inputs_of_prepareInputTensors h
    with ⟨inputs, -, hinputs, htokens, hcumulative, -⟩
  rw [htokens, List.length_flatMap] at hexact
  have hquery : ∀ input ∈ inputs,
      input.queryLength = input.tokens.length ∧ 0 < input.tokens.length := by
    intro input hinput
    rcases hinputs.flip.exists_of_mem hinput with ⟨x, hx, hok⟩
    exact (inputOf_of_eq_ok hok).queryLength_eq_length (hquery x hx)
  -- the lengths of the queries are not cut
  have hlengths : inputs.map (·.queryLength % 2 ^ 32) = inputs.map (·.tokens.length) := by
    apply List.map_congr_left
    intro input hinput
    have hle : input.tokens.length ≤ (inputs.map (·.tokens.length)).sum :=
      List.single_le_sum (fun _ _ => Nat.zero_le _) _ (List.mem_map_of_mem hinput)
    rw [(hquery input hinput).1, Nat.mod_eq_of_lt (by omega)]
  rw [hlengths] at hcumulative
  have hpos : ∀ n ∈ inputs.map (·.tokens.length), 0 < n := by
    intro n hn
    rcases List.mem_map.mp hn with ⟨input, hinput, rfl⟩
    exact (hquery input hinput).2
  rcases computeSelectedTokenIndices_cumulative hpos with ⟨selected, hselected, hpositions⟩
  rw [← hcumulative] at hselected
  refine ⟨selected, hselected, ?_⟩
  intro before x after hsplit
  rw [hsplit] at hinputs
  rcases hinputs.exists_append with ⟨earlier, rest, rfl, hearlier, hrest⟩
  cases hrest with
  | @cons _ own _ later hown hlater =>
    rcases hpositions before.length (by simp [hearlier.length_eq]) with ⟨position, hposition, hsum⟩
    refine ⟨position, hposition, _, own.tokens, later.flatMap (·.tokens),
      ⟨earlier, hearlier, rfl⟩, ⟨[own], .cons hown .nil, by simp⟩, ?_, by simp [htokens], ?_⟩
    . exact List.ne_nil_of_length_pos (hquery own (by simp)).2
    . rw [hsum, hearlier.length_eq, List.map_append, List.map_cons, List.take_append,
        List.take_of_length_le (by simp), List.length_append, List.length_flatMap]
      simp

end ModelWorker

namespace ModelExecutor

variable (next : Nat → NextToken)

/--
The body of the loop over the sequences of a group.
-/
def sampleSequence (acc : SequenceGroupOutput × Nat) (entry : Sigma fun _ : Nat => SequenceData)
    : SequenceGroupOutput × Nat :=
  ({ outputs := acc.1.outputs.insert entry.1 (sequenceOutput entry.1 (next acc.2)) }, acc.2 + 1)

theorem sampleGroup_eq_foldl (logitsIdx : Nat) (metadata : SequenceGroupMetadata)
    : sampleGroup next logitsIdx metadata
        = metadata.sequenceData.entries.foldl (sampleSequence next) ({ outputs := ∅ }, logitsIdx) :=
  rfl

theorem foldl_sampleSequence (entries : List (Sigma fun _ : Nat => SequenceData))
    (acc : SequenceGroupOutput × Nat)
    : (entries.foldl (sampleSequence next) acc).2 = acc.2 + entries.length
        ∧ ∀ sequenceId, sequenceId ∉ entries.map (·.1) →
            (entries.foldl (sampleSequence next) acc).1.outputs.lookup sequenceId
              = acc.1.outputs.lookup sequenceId := by
  induction entries generalizing acc with
  | nil => exact ⟨rfl, fun _ _ => rfl⟩
  | cons head entries ih =>
    rw [List.foldl_cons]
    rcases ih (sampleSequence next acc head) with ⟨hrow, hlookup⟩
    constructor
    . rw [hrow, List.length_cons, ← Nat.add_assoc, Nat.add_right_comm]
      rfl
    . intro sequenceId hnot
      rw [List.map_cons, List.mem_cons, not_or] at hnot
      rw [hlookup sequenceId hnot.2]
      exact AList.lookup_insert_ne hnot.1

/--
Each sequence of a group takes the next row.
-/
theorem lookup_sampleGroup_of_entries (logitsIdx : Nat) {metadata : SequenceGroupMetadata}
    {earlier later : List (Sigma fun _ : Nat => SequenceData)}
    {entry : Sigma fun _ : Nat => SequenceData}
    (h : metadata.sequenceData.entries = earlier ++ entry :: later)
    : (sampleGroup next logitsIdx metadata).1.outputs.lookup entry.1
        = some (sequenceOutput entry.1 (next (logitsIdx + earlier.length))) := by
  have hnodup : (metadata.sequenceData.entries.map (·.1)).Nodup :=
    metadata.sequenceData.keys_nodup
  rw [h, List.map_append, List.map_cons] at hnodup
  have hlater := (List.nodup_cons.mp (List.nodup_append.mp hnodup).2.1).1
  rw [sampleGroup_eq_foldl, h, List.foldl_append, List.foldl_cons,
    (foldl_sampleSequence next later _).2 entry.1 hlater]
  refine (AList.lookup_insert _).trans ?_
  rw [(foldl_sampleSequence next earlier _).1]

/--
The body of the loop over the groups.
-/
def sampleNext (acc : List SequenceGroupOutput × Nat) (metadata : SequenceGroupMetadata)
    : List SequenceGroupOutput × Nat :=
  (acc.1 ++ [(sampleGroup next acc.2 metadata).1], (sampleGroup next acc.2 metadata).2)

theorem sample_eq_foldl (batch : List SequenceGroupMetadata)
    : sample next batch = (batch.foldl (sampleNext next) ([], 0)).1 :=
  rfl

theorem foldl_sampleNext (batch : List SequenceGroupMetadata)
    (acc : List SequenceGroupOutput × Nat)
    : ∃ outputs, outputs.length = batch.length
        ∧ batch.foldl (sampleNext next) acc
            = (acc.1 ++ outputs, acc.2 + (sequencesOf batch).length) := by
  induction batch generalizing acc with
  | nil => exact ⟨[], rfl, by simp [sequencesOf]⟩
  | cons head batch ih =>
    rcases ih (sampleNext next acc head) with ⟨outputs, hlength, hfold⟩
    refine ⟨(sampleGroup next acc.2 head).1 :: outputs, by rw [List.length_cons, hlength]; rfl, ?_⟩
    rw [List.foldl_cons, hfold]
    unfold sampleNext
    rw [sampleGroup_eq_foldl, (foldl_sampleSequence next _ _).1]
    simp [sequencesOf, Nat.add_assoc]

/--
The output for a group is sampled from the rows after those of the groups before it.
-/
theorem getElem?_sample (before after : List SequenceGroupMetadata) (group : SequenceGroupMetadata)
    : (sample next (before ++ group :: after))[before.length]?
        = some (sampleGroup next (sequencesOf before).length group).1 := by
  rcases foldl_sampleNext next before ([], 0) with ⟨outputs, hlength, hbefore⟩
  rcases foldl_sampleNext next after (sampleNext next ([] ++ outputs, 0 + (sequencesOf before).length)
    group) with ⟨outputs', -, hafter⟩
  rw [sample_eq_foldl, List.foldl_append, List.foldl_cons, hbefore, hafter]
  unfold sampleNext
  rw [← hlength, List.nil_append, Nat.zero_add]
  simp

end ModelExecutor

end AtomaInfer
