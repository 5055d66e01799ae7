import AtomaInfer.Worker.Rows

/-!
The sampling of the model executor (`model_executor.rs`) with the model and the logits processors as
parameters: the rows of the logits, the repetition penalty and the draws from the processors of the
groups, which keep their state from one batch to the next.
-/

namespace AtomaInfer

inductive ModelExecutorError where
  | invalidLogits (numRows numSequences : Nat)
  | candleError (message : String)
  | panic (message : String)
  deriving DecidableEq

/--
What the model executor has from the model and from the sampling library. `forward` is the row of
the logits for the last of some tokens, and `σ` the state of a logits processor.
-/
structure ModelExecutor (σ : Type) where
  forward : List Nat → List ℚ
  eosTokenIds : Option (List Nat)
  fromSampling : LogitsProcessor → σ
  applyRepeatPenalty : List ℚ → ℚ → List Nat → Except String (List ℚ)
  draw : σ → List ℚ → Except String (Nat × σ)

/--
The groups of a batch have different sequences, so the logits processor of a group is named by its
first one.
-/
def SequenceGroupMetadata.processorId (metadata : SequenceGroupMetadata) : Nat :=
  metadata.sequenceData.keys.headD 0

/--
The tokens of a sequence up to the last one that the batch computes.
-/
def SequenceGroupMetadata.context (metadata : SequenceGroupMetadata) (data : SequenceData)
    : List Nat :=
  data.getTokenIds.take (data.numComputedTokens + metadata.tokenChunkSize)

namespace ModelExecutor

variable {σ : Type} (executor : ModelExecutor σ)

/--
The logits of a row. A penalty is for the last `repeatLastN` tokens of the sequence.
-/
def penalize (params : NextTokenChooserParameters) (tokenIds : List Nat) (row : List ℚ)
    : Except ModelExecutorError (List ℚ) :=
  if params.repetitionPenalty = 1 then
    .ok row
  else if params.repeatLastN = 0 then
    .error (.panic "repeat_last_n should be > 0")
  else
    (executor.applyRepeatPenalty row params.repetitionPenalty
      (tokenIds.drop (tokenIds.length - params.repeatLastN))).mapError .candleError

/--
The body of the loop over the sequences of a group, up to the output that is made of the token.
-/
def sampleRow (params : NextTokenChooserParameters) (tokenIds : List Nat) (processor : σ)
    (row : List ℚ) : Except ModelExecutorError (NextToken × σ) := do
  let sequenceLogits ← executor.penalize params tokenIds row
  let (nextToken, processor) ← (executor.draw processor sequenceLogits).mapError .candleError
  match sequenceLogits[nextToken]? with
  | none => throw (.panic "index out of bounds")
  | some logprob =>
    let isStopToken := executor.eosTokenIds.any fun eosTokenIds => eosTokenIds.contains nextToken
    return (⟨nextToken, logprob, isStopToken⟩, processor)

/--
The sequences of a batch, each with its row. `processors` are the states of the processors.
-/
def sampleRows (processors : Nat → σ)
    (rows : List ((SequenceGroupMetadata × Sigma fun _ : Nat => SequenceData) × List ℚ))
    : Except ModelExecutorError (List NextToken × (Nat → σ)) :=
  match rows with
  | [] => .ok ([], processors)
  | ((metadata, entry), row) :: rows => do
    let (next, processor) ← executor.sampleRow metadata.nextTokenChooserParams
      entry.2.getTokenIds (processors metadata.processorId) row
    let (nexts, processors) ←
      sampleRows (Function.update processors metadata.processorId processor) rows
    return (next :: nexts, processors)

def sampleLogits (processors : Nat → σ) (logits : List (List ℚ))
    (sequenceGroupsMetadata : List SequenceGroupMetadata)
    : Except ModelExecutorError (List SequenceGroupOutput × (Nat → σ)) := do
  let sequences := sequencesOf sequenceGroupsMetadata
  if logits.length ≠ sequences.length then
    throw (.invalidLogits logits.length sequences.length)
  let (nexts, processors) ← executor.sampleRows processors (sequences.zip logits)
  return (
    sample (fun logitsIdx => nexts.getD logitsIdx ⟨0, 0, false⟩) sequenceGroupsMetadata,
    processors
  )

/--
The batch with the rows that the model computes for it.
-/
def execute (processors : Nat → σ) (sequenceGroupsMetadata : List SequenceGroupMetadata)
    : Except ModelExecutorError (List SequenceGroupOutput × (Nat → σ)) :=
  executor.sampleLogits processors
    ((sequencesOf sequenceGroupsMetadata).map fun x => executor.forward (x.1.context x.2.2))
    sequenceGroupsMetadata

section Rows

variable {executor} {processors processors' : Nat → σ} {nexts : List NextToken}
variable {rows : List ((SequenceGroupMetadata × Sigma fun _ : Nat => SequenceData) × List ℚ)}

/--
A row with its token: the processor of its group is drawn from once.
-/
def Draws (executor : ModelExecutor σ) (processors processors' : Nat → σ)
    (row : (SequenceGroupMetadata × Sigma fun _ : Nat => SequenceData) × List ℚ)
    (next : NextToken) : Prop :=
  executor.sampleRow row.1.1.nextTokenChooserParams row.1.2.2.getTokenIds
      (processors row.1.1.processorId) row.2
    = .ok (next, processors' row.1.1.processorId)

/--
In a batch of groups with one sequence each processor is drawn from once.
-/
theorem sampleRows_eq_ok (h : executor.sampleRows processors rows = .ok (nexts, processors'))
    (hnodup : (rows.map (·.1.1.processorId)).Nodup)
    : List.Forall₂ (executor.Draws processors processors') rows nexts
        ∧ ∀ id, id ∉ rows.map (·.1.1.processorId) → processors' id = processors id := by
  induction rows generalizing processors nexts with
  | nil =>
    cases h
    exact ⟨.nil, fun _ _ => rfl⟩
  | cons row rows ih =>
    rcases row with ⟨⟨metadata, entry⟩, row⟩
    rcases Except.bind_eq_ok.mp h with ⟨⟨next, processor⟩, hrow, h⟩
    rcases Except.bind_eq_ok.mp h with ⟨⟨rest, final⟩, hrest, hpure⟩
    cases hpure
    rw [List.map_cons, List.nodup_cons] at hnodup
    rcases ih hrest hnodup.2 with ⟨hdraws, hframe⟩
    constructor
    . refine .cons ?_ ?_
      . unfold Draws
        rw [hframe _ hnodup.1, Function.update_self]
        exact hrow
      . refine (List.forall₂_iff_zip.mpr ⟨hdraws.length_eq, ?_⟩)
        intro other next' hother
        have hdraw := (List.forall₂_iff_zip.mp hdraws).2 hother
        unfold Draws at hdraw ⊢
        rwa [Function.update_of_ne] at hdraw
        intro hid
        apply hnodup.1
        rw [← hid]
        exact List.mem_map_of_mem (List.of_mem_zip hother).1
    . intro id hid
      rw [List.map_cons, List.mem_cons, not_or] at hid
      rw [hframe id hid.2, Function.update_of_ne hid.1]

variable {batch before after : List SequenceGroupMetadata} {metadata : SequenceGroupMetadata}
variable {outputs : List SequenceGroupOutput} {sequenceId : Nat} {data : SequenceData}

theorem processorId_eq (h : metadata.sequenceData = AList.insert sequenceId data ∅)
    : metadata.processorId = sequenceId := by
  unfold SequenceGroupMetadata.processorId
  rw [h]
  rfl

theorem sequencesOf_eq_singleton (h : metadata.sequenceData = AList.insert sequenceId data ∅)
    : sequencesOf [metadata] = [(metadata, ⟨sequenceId, data⟩)] := by
  unfold sequencesOf
  rw [List.flatMap_singleton, h]
  rfl

/--
The processors that a batch of groups with one sequence draws from.
-/
theorem map_processorId_sequencesOf
    (hsingle : ∀ metadata ∈ batch, ∃ sequenceId data,
      metadata.sequenceData = AList.insert sequenceId data ∅)
    : (sequencesOf batch).map (·.1.processorId) = batch.flatMap (·.sequenceData.keys) := by
  induction batch with
  | nil => rfl
  | cons metadata batch ih =>
    rcases hsingle metadata List.mem_cons_self with ⟨sequenceId, data, hdata⟩
    have hsplit : sequencesOf (metadata :: batch) = sequencesOf [metadata] ++ sequencesOf batch :=
      sequencesOf_append [metadata] batch
    rw [hsplit, List.map_append, List.flatMap_cons,
      ih fun other hother => hsingle other (List.mem_cons_of_mem _ hother),
      sequencesOf_eq_singleton hdata, List.map_singleton, processorId_eq hdata, hdata]
    rfl

/--
What executing a batch means for one of its sequences, and that the other processors are left alone.
-/
structure Executes (executor : ModelExecutor σ) (processors processors' : Nat → σ)
    (batch : List SequenceGroupMetadata) (outputs : List SequenceGroupOutput) : Prop where
  samples : ∀ (i : Nat) metadata sequenceId data, batch[i]? = some metadata →
    metadata.sequenceData = AList.insert sequenceId data ∅ →
      ∃ next output,
        executor.sampleRow metadata.nextTokenChooserParams data.getTokenIds (processors sequenceId)
            (executor.forward (metadata.context data)) = .ok (next, processors' sequenceId)
          ∧ outputs[i]? = some output
          ∧ output.outputs.lookup sequenceId = some (sequenceOutput sequenceId next)
  frame : ∀ id, id ∉ batch.flatMap (·.sequenceData.keys) → processors' id = processors id

theorem sampleLogits_eq_ok {logits : List (List ℚ)}
    (h : executor.sampleLogits processors logits batch = .ok (outputs, processors'))
    : ∃ nexts,
        executor.sampleRows processors ((sequencesOf batch).zip logits) = .ok (nexts, processors')
          ∧ outputs = sample (fun logitsIdx => nexts.getD logitsIdx ⟨0, 0, false⟩) batch := by
  unfold sampleLogits at h
  dsimp only at h
  split at h
  . cases h
  . rcases Except.bind_eq_ok.mp h with ⟨-, -, h⟩
    rcases Except.bind_eq_ok.mp h with ⟨⟨nexts, final⟩, hrows, hpure⟩
    cases hpure
    exact ⟨nexts, hrows, rfl⟩

theorem execute_eq_ok (h : executor.execute processors batch = .ok (outputs, processors'))
    : ∃ nexts,
        executor.sampleRows processors ((sequencesOf batch).map fun x =>
            (x, executor.forward (x.1.context x.2.2))) = .ok (nexts, processors')
          ∧ outputs = sample (fun logitsIdx => nexts.getD logitsIdx ⟨0, 0, false⟩) batch := by
  rcases sampleLogits_eq_ok h with ⟨nexts, hrows, houtputs⟩
  rw [← List.map_prod_left_eq_zip] at hrows
  exact ⟨nexts, hrows, houtputs⟩

theorem executes_of_execute (h : executor.execute processors batch = .ok (outputs, processors'))
    (hsingle : ∀ metadata ∈ batch, ∃ sequenceId data,
      metadata.sequenceData = AList.insert sequenceId data ∅)
    (hnodup : (batch.flatMap (·.sequenceData.keys)).Nodup)
    : executor.Executes processors processors' batch outputs := by
  rcases execute_eq_ok h with ⟨nexts, hrows, rfl⟩
  have hkeys : ((sequencesOf batch).map fun x =>
      (x, executor.forward (x.1.context x.2.2))).map (·.1.1.processorId)
        = batch.flatMap (·.sequenceData.keys) := by
    rw [← map_processorId_sequencesOf hsingle, List.map_map]
    rfl
  rcases sampleRows_eq_ok hrows (hkeys ▸ hnodup) with ⟨hdraws, hframe⟩
  rw [hkeys] at hframe
  refine ⟨?_, hframe⟩
  intro i metadata sequenceId data hget hdata
  rcases List.getElem?_eq_some_iff.mp hget with ⟨hlt, hget⟩
  have hbatch : batch = batch.take i ++ metadata :: batch.drop (i + 1) := by
    rw [← hget, List.getElem_cons_drop, List.take_append_drop]
  have hsplit : sequencesOf batch = sequencesOf (batch.take i)
      ++ (metadata, ⟨sequenceId, data⟩) :: sequencesOf (batch.drop (i + 1)) := by
    rw [← List.singleton_append, ← sequencesOf_eq_singleton hdata, ← sequencesOf_append,
      ← sequencesOf_append, List.singleton_append, ← hbatch]
  rw [hsplit, List.map_append, List.map_cons] at hdraws
  rcases hdraws.exists_append with ⟨nextsBefore, nextsAfter, rfl, hbefore, hafter⟩
  have hlength := hbefore.length_eq
  rw [List.length_map] at hlength
  cases hafter with
  | @cons _ next _ nexts hdraw _ =>
    have houtput := getElem?_sample (fun logitsIdx =>
      (nextsBefore ++ next :: nexts).getD logitsIdx ⟨0, 0, false⟩) (batch.take i)
      (batch.drop (i + 1)) metadata
    rw [← hbatch, List.length_take_of_le hlt.le] at houtput
    refine ⟨next, _, ?_, houtput, ?_⟩
    . unfold Draws at hdraw
      rwa [processorId_eq hdata] at hdraw
    . have hentries : metadata.sequenceData.entries = [] ++ ⟨sequenceId, data⟩ :: [] := by
        rw [hdata]
        rfl
      rw [lookup_sampleGroup_of_entries _ _ hentries, hlength]
      simp

end Rows

end ModelExecutor

end AtomaInfer
