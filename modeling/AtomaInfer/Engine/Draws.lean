import AtomaInfer.Engine.Agreement
import AtomaInfer.Engine.Rows

/-!
The log-probabilities of a sequence and the draws from its logits processor. A batch that does not
compute the tokens of a sequence up to the last one adds to both, but adds no token.
-/

namespace AtomaInfer

open ModelExecutor (NextToken sequenceOutput)

/--
The batch computes the tokens of its sequences up to the last ones.
-/
def SequenceGroupMetadata.ReachesEnd (metadata : SequenceGroupMetadata) : Prop :=
  ∀ entry ∈ metadata.sequenceData.entries,
    entry.2.numComputedTokens + metadata.tokenChunkSize = entry.2.length

instance (metadata : SequenceGroupMetadata) : Decidable metadata.ReachesEnd := by
  unfold SequenceGroupMetadata.ReachesEnd
  infer_instance

section Executed

variable (executed : List SequenceGroupMetadata) (sequenceId : Nat)

/--
The groups among the executed ones in which the sequence is computed.
-/
def listing : List SequenceGroupMetadata :=
  executed.filter fun metadata => sequenceId ∈ metadata.sequenceData

/--
How often the logits processor of the group of the sequence was drawn from: once for each sequence
of the group that is computed.
-/
def draws : Nat :=
  ((listing executed sequenceId).map (·.sequenceData.entries.length)).sum

/--
How often a batch left tokens of the sequence for a later one.
-/
def partials : Nat :=
  (listing executed sequenceId).countP fun metadata => !decide metadata.ReachesEnd

variable {executed sequenceId} (batch : List SequenceGroupMetadata)

theorem listing_append
    : listing (executed ++ batch) sequenceId
        = listing executed sequenceId ++ listing batch sequenceId :=
  List.filter_append executed batch

theorem draws_append
    : draws (executed ++ batch) sequenceId = draws executed sequenceId + draws batch sequenceId := by
  unfold draws
  rw [listing_append, List.map_append, List.sum_append]

theorem partials_append
    : partials (executed ++ batch) sequenceId
        = partials executed sequenceId + partials batch sequenceId := by
  unfold partials
  rw [listing_append, List.countP_append]

variable {batch}

theorem listing_eq_nil (h : ∀ metadata ∈ batch, sequenceId ∉ metadata.sequenceData)
    : listing batch sequenceId = [] := by
  unfold listing
  rw [List.filter_eq_nil_iff]
  intro metadata hmetadata
  simpa using h metadata hmetadata

/--
A batch lists a sequence once.
-/
theorem listing_eq_singleton (hnodup : (batch.flatMap (·.sequenceData.keys)).Nodup)
    {metadata : SequenceGroupMetadata} (hmem : metadata ∈ batch)
    (hid : sequenceId ∈ metadata.sequenceData) : listing batch sequenceId = [metadata] := by
  rcases List.append_of_mem hmem with ⟨before, after, rfl⟩
  rw [List.flatMap_append, List.flatMap_cons] at hnodup
  have hbefore : listing before sequenceId = [] := by
    apply listing_eq_nil
    intro other hother hlists
    exact (List.disjoint_of_nodup_append hnodup) (List.mem_flatMap.mpr ⟨other, hother, hlists⟩)
      (List.mem_append_left _ hid)
  have hafter : listing after sequenceId = [] := by
    apply listing_eq_nil
    intro other hother hlists
    exact (List.disjoint_of_nodup_append (List.nodup_append.mp hnodup).2.1) hid
      (List.mem_flatMap.mpr ⟨other, hother, hlists⟩)
  rw [listing_append, hbefore, List.nil_append]
  unfold listing at hafter ⊢
  rw [List.filter_cons_of_pos (by simpa using hid), hafter]

end Executed

namespace Sequence

/--
Each output token has its log-probabilities, its text and its draw.
-/
structure AlignedWith (draws : Nat) (sequence : Sequence) : Prop where
  length_outputLogprobs :
    sequence.outputLogprobs.length = sequence.sequenceData.outputTokenIds.length
  length_tokens : sequence.tokens.length = sequence.sequenceData.outputTokenIds.length
  contains : ∀ (k : Nat) (logprobs : LogProbs) (tokenId : Nat),
    sequence.outputLogprobs[k]? = some logprobs →
    sequence.sequenceData.outputTokenIds[k]? = some tokenId → tokenId ∈ logprobs
  draws_eq : draws = sequence.sequenceData.outputTokenIds.length

/--
A sequence with `partials` log-probabilities and draws too many.
-/
structure Tallies (draws partials : Nat) (sequence : Sequence) : Prop where
  length_outputLogprobs :
    sequence.outputLogprobs.length = sequence.sequenceData.outputTokenIds.length + partials
  length_tokens : sequence.tokens.length = sequence.sequenceData.outputTokenIds.length
  contains : partials = 0 → List.Forall₂
    (fun (logprobs : LogProbs) (tokenId : Nat) => tokenId ∈ logprobs)
    sequence.outputLogprobs sequence.sequenceData.outputTokenIds
  draws_eq : draws = sequence.sequenceData.outputTokenIds.length + partials

variable {draws partials : Nat} {sequence sequence' : Sequence}

theorem Tallies.alignedWith_iff_eq_zero (h : sequence.Tallies draws partials)
    : sequence.AlignedWith draws ↔ partials = 0 := by
  constructor
  . intro haligned
    have := h.draws_eq
    have := haligned.draws_eq
    omega
  . rintro rfl
    refine ⟨h.length_outputLogprobs, h.length_tokens, ?_, h.draws_eq⟩
    intro k logprobs tokenId hlogprobs htokenId
    exact (List.forall₂_iff_zip.mp (h.contains rfl)).2
      (List.mem_of_getElem? (List.getElem?_zip_eq_some.mpr ⟨hlogprobs, htokenId⟩))

theorem Tallies.of_keepsTokens (h : sequence.Tallies draws partials)
    (hkeeps : sequence.KeepsTokens sequence') : sequence'.Tallies draws partials := by
  rcases hkeeps with ⟨-, -, -, houtput, hlogprobs, htokens⟩
  constructor <;> rw [houtput]
  . rw [hlogprobs]
    exact h.length_outputLogprobs
  . rw [htokens]
    exact h.length_tokens
  . rw [hlogprobs]
    exact h.contains
  . exact h.draws_eq

theorem tallies_of_new {prompt : String} {promptTokenIds : List Nat} {blockSize : Nat}
    {returnFullText : Bool}
    (h : Sequence.new prompt promptTokenIds blockSize returnFullText = .ok sequence)
    : sequence.Tallies 0 0 := by
  rcases of_appendTokensToBlocks h (Stores.nil _ rfl) with ⟨blocks, rfl, -⟩
  exact ⟨rfl, rfl, fun _ => .nil, rfl⟩

theorem Tallies.recount (h : sequence.Tallies draws partials) (numComputedTokens : Nat)
    (stage : SequenceStage) : (sequence.recount numComputedTokens stage).Tallies draws partials :=
  ⟨h.length_outputLogprobs, h.length_tokens, h.contains, h.draws_eq⟩

/--
A sampled token comes with its log-probabilities.
-/
theorem addTokenId_sequenceOutput {added : Sequence} {sequenceId : Nat} {next : NextToken}
    (h : sequence.addTokenId (sequenceOutput sequenceId next).outputToken
      (sequenceOutput sequenceId next).logprob = .ok added)
    : added.outputLogprobs = sequence.outputLogprobs ++ [(sequenceOutput sequenceId next).logprob]
        ∧ added.sequenceData.outputTokenIds
            = sequence.sequenceData.outputTokenIds ++ [next.token]
        ∧ added.tokens = sequence.tokens := by
  have hlookup : (sequenceOutput sequenceId next).logprob.lookup
      (sequenceOutput sequenceId next).outputToken
        = some { logprob := next.logprob, rank := some 1, decodedToken := none } :=
    List.dlookup_cons_eq _ _ _
  unfold addTokenId at h
  rw [hlookup] at h
  cases happend : sequence.appendTokensToBlocks
      [(sequenceOutput sequenceId next).outputToken] with
  | error e =>
    rw [happend] at h
    cases h
  | ok appended =>
    rw [happend] at h
    cases h
    rw [appendTokensToBlocks_eq_ok happend]
    exact ⟨rfl, rfl, rfl⟩

/--
Every update counts a draw. Without a new token its log-probabilities are too many.
-/
theorem Tallies.updated {engine : LlmEngine} {created : Nat} {entry : LlmEngine.Entry}
    {sequenceId : Nat} {next : NextToken} (h : sequence.Tallies draws partials)
    (hupdated : engine.Updated created entry (sequenceOutput sequenceId next) sequence sequence')
    : sequence'.Tallies (draws + 1) (partials + if entry.2.1.doSample = true then 0 else 1) := by
  rcases h with ⟨hlogprobs, htokens, hcontains, hdraws⟩
  unfold LlmEngine.Updated at hupdated
  split at hupdated
  . next hsample =>
    rcases hupdated with ⟨responses, hresult⟩
    rcases LlmEngine.exists_of_sample hresult with ⟨added, text, -, hadd, -, rfl, -, -⟩
    rcases addTokenId_sequenceOutput hadd with ⟨hlogprobs', houtput', htokens'⟩
    rw [if_pos hsample]
    constructor <;> dsimp only [LlmEngine.withText]
    . rw [hlogprobs', houtput', List.length_append, List.length_append, hlogprobs]
      simp only [List.length_singleton]
      omega
    . rw [htokens', houtput', List.length_append, List.length_append, htokens]
      rfl
    . intro hzero
      rw [hlogprobs', houtput']
      refine List.rel_append (hcontains (by omega)) (.cons ?_ .nil)
      exact AList.mem_keys.mpr (List.mem_singleton_self _)
    . rw [houtput', List.length_append, hdraws]
      simp only [List.length_singleton]
      omega
  . next hsample =>
    subst hupdated
    rw [if_neg hsample]
    constructor <;> dsimp only
    . rw [List.length_append, hlogprobs]
      simp only [List.length_singleton]
      omega
    . exact htokens
    . intro hzero
      cases hzero
    . rw [hdraws]
      omega

end Sequence

/--
The batch that the model executor has answered.
-/
def LlmEngine.answered (engine : LlmEngine) (event : LlmEngine.Event)
    : List SequenceGroupMetadata :=
  match event with
  | .response _ _ index _ =>
    match engine.responses[index]? with
    | some receiver => receiver.request.sequenceGroupsMetadata
    | none => []
  | _ => []

theorem LlmEngine.answered_response {engine : LlmEngine} {index : Nat} {receiver : Receiver}
    (h : engine.responses[index]? = some receiver) (instants : Instants)
    (created : SequenceRef → Nat) (outputs : Option (List SequenceGroupOutput))
    : engine.answered (.response instants created index outputs)
        = receiver.request.sequenceGroupsMetadata := by
  simp only [answered, h]

/--
A trace with the groups of the batches that were executed so far.
-/
structure Execution where
  trace : Trace
  executed : List SequenceGroupMetadata

namespace Execution

inductive Step (accepts : Session.Accepts) (execution : Execution) : Execution → Prop where
  | wait {instants : Instants} {event : LlmEngine.Event} {received : Trace}
      (h : execution.trace.Receives accepts instants event received)
      (hbusy : received.engine.isIdle = false)
    : Step accepts execution { execution with trace := received }
  | schedule {instants : Instants} {event : LlmEngine.Event} {called : Trace} {engine : LlmEngine}
      (h : execution.trace.Calls accepts instants event called)
      (hhandle : execution.trace.engine.handle event = .ok engine)
    : Step accepts execution {
        trace := {
          called with
          engine
          sampled := Trace.reset called.sampled (called.engine.scheduler.recomputed instants) }
        executed := execution.executed ++ execution.trace.engine.answered event }
  | disconnect (channel : Channel)
    : Step accepts execution {
        execution with
        trace.engine.disconnected := channel :: execution.trace.engine.disconnected }

def Reachable (accepts : Session.Accepts) (engine : LlmEngine) (execution : Execution) : Prop :=
  Relation.ReflTransGen (Step accepts) ⟨Trace.start engine, []⟩ execution

/--
Each sequence has the draws and the log-probabilities of its batches, and these are about sequences
that have arrived.
-/
structure Tallied (execution : Execution) : Prop where
  tallies : ∀ group ∈ execution.trace.arrived, ∀ seq ∈ group.sequences,
    (execution.trace.engine.scheduler.memory.sequences seq).Tallies
      (draws execution.executed seq.sequenceId) (partials execution.executed seq.sequenceId)
  executed : ∀ metadata ∈ execution.executed, ∃ group ∈ execution.trace.arrived,
    ∃ seq ∈ group.sequences, metadata.sequenceData.keys = [seq.sequenceId]

variable {accepts : Session.Accepts} {execution execution' : Execution} {instants : Instants}
variable {event : LlmEngine.Event} {trace called received : Trace} {session : Session}

theorem Step.trace_step (h : Step accepts execution execution')
    : Trace.Step accepts execution.trace execution'.trace := by
  cases h with
  | wait h hbusy => exact .wait h hbusy
  | schedule h hhandle => exact .schedule h hhandle
  | disconnect channel => exact .disconnect channel

theorem Reachable.trace_reachable {engine : LlmEngine} (h : Reachable accepts engine execution)
    : Trace.Reachable accepts engine execution.trace := by
  induction h with
  | refl => exact .refl
  | tail _ hstep ih => exact ih.tail hstep.trace_step

theorem receives_sequences (h : Trace.Receives accepts trace instants event received)
    : ∃ group seq sequence,
        group.sequences = [seq]
          ∧ (∀ other ∈ trace.arrived, ∀ seq' ∈ other.sequences, seq'.sequenceId ≠ seq.sequenceId)
          ∧ sequence.Tallies 0 0
          ∧ received.arrived = trace.arrived ++ [group]
          ∧ received.engine.scheduler.memory.sequences
              = Function.update trace.engine.scheduler.memory.sequences seq sequence := by
  cases h with
  | intro request seq sequence prompt promptTokenIds returnFullText hgroup hfresh hnew haccepts =>
    refine ⟨request.sequenceGroup, seq, sequence, hgroup, hfresh, Sequence.tallies_of_new hnew, rfl,
      ?_⟩
    cases request <;>
      simp [LlmEngine.addRequest, LlmEngine.createSequences, Scheduler.addSequenceGroup,
        EngineRequest.sequenceGroup] at hgroup ⊢ <;>
      simp [hgroup]

theorem answered_of_receives (h : Trace.Receives accepts trace instants event received)
    : trace.engine.answered event = [] := by
  cases h
  rfl

/--
A new sequence has not been in a batch.
-/
theorem Tallied.receives (htallied : execution.Tallied)
    (h : execution.trace.Receives accepts instants event received)
    : Tallied { execution with trace := received } := by
  rcases receives_sequences h with ⟨group, seq, sequence, hgroup, hfresh, hnew, harrived, hheap⟩
  have hlisting : listing execution.executed seq.sequenceId = [] := by
    apply listing_eq_nil
    intro metadata hmetadata hlists
    rcases htallied.executed metadata hmetadata with ⟨other, hother, seq', hseq', hkeys⟩
    rw [AList.mem_keys, hkeys, List.mem_singleton] at hlists
    exact hfresh other hother seq' hseq' hlists.symm
  constructor
  . intro other hother seq' hseq'
    dsimp only at hother ⊢
    rw [harrived] at hother
    rw [hheap]
    rcases List.mem_append.mp hother with hother | hother
    . have hne : seq' ≠ seq := fun heq => hfresh other hother seq' hseq' (by rw [heq])
      rw [Function.update_of_ne hne]
      exact htallied.tallies other hother seq' hseq'
    . rw [List.mem_singleton.mp hother, hgroup, List.mem_singleton] at hseq'
      subst hseq'
      rw [Function.update_self]
      unfold draws partials
      rw [hlisting]
      exact hnew
  . intro metadata hmetadata
    dsimp only at hmetadata ⊢
    rcases htallied.executed metadata hmetadata with ⟨other, hother, hkeys⟩
    rw [harrived]
    exact ⟨other, List.mem_append_left _ hother, hkeys⟩

/--
A batch with one sequence in each group.
-/
theorem draws_of_describes {memory : Memory} {enableChunking : Bool}
    {scheduled : ScheduledSequenceGroup} {batch : List SequenceGroupMetadata}
    {metadata : SequenceGroupMetadata} {seq : SequenceRef} {blockTable : BlockTable}
    (hnodup : (batch.flatMap (·.sequenceData.keys)).Nodup) (hmem : metadata ∈ batch)
    (h : Scheduler.Describes memory enableChunking scheduled metadata seq blockTable)
    : draws batch seq.sequenceId = 1
        ∧ partials batch seq.sequenceId = if metadata.doSample = true then 0 else 1 := by
  have hentries : metadata.sequenceData.entries
      = [⟨seq.sequenceId, (memory.sequences seq).sequenceData⟩] := by
    rw [h.sequenceData_eq]
    rfl
  have hlists : seq.sequenceId ∈ metadata.sequenceData := by
    rw [h.sequenceData_eq]
    exact (AList.mem_insert _).mpr (.inl rfl)
  have hreaches : metadata.doSample = decide metadata.ReachesEnd := by
    rw [h.doSample_eq, decide_eq_decide]
    unfold SequenceGroupMetadata.ReachesEnd
    rw [hentries, h.tokenChunkSize_eq]
    simp [Sequence.length]
  unfold draws partials
  rw [listing_eq_singleton hnodup hmem hlists]
  constructor
  . simp [hentries]
  . rw [List.countP_singleton, ← hreaches]
    cases metadata.doSample <;> rfl

/--
A sequence of the batch, with the output for it.
-/
theorem tallies_of_entryApplies {engine : LlmEngine} {created : SequenceRef → Nat}
    {entry : LlmEngine.Entry} {next : NextToken} {memory : Memory} {enableChunking : Bool}
    {executed batch : List SequenceGroupMetadata} {seq : SequenceRef} {blockTable : BlockTable}
    {sequence sequence' : Sequence}
    (hkeys : (batch.flatMap (·.sequenceData.keys)).Nodup) (hmem : entry.2.1 ∈ batch)
    (hdesc : Scheduler.Describes memory enableChunking entry.2.2 entry.2.1 seq blockTable)
    (hlookup : entry.1.outputs.lookup seq.sequenceId
      = some (sequenceOutput seq.sequenceId next))
    (happlies : engine.EntryApplies created entry seq sequence sequence')
    (h : sequence.Tallies (draws executed seq.sequenceId) (partials executed seq.sequenceId))
    : sequence'.Tallies (draws (executed ++ batch) seq.sequenceId)
        (partials (executed ++ batch) seq.sequenceId) := by
  rcases draws_of_describes hkeys hmem hdesc with ⟨hdraws, hpartials⟩
  rcases happlies with ⟨output, houtput, numComputedTokens, stage, hupdated⟩
  rw [hlookup] at houtput
  cases houtput
  rw [draws_append, partials_append, hdraws, hpartials]
  exact (h.recount numComputedTokens stage).updated hupdated

theorem tallies_append_of_not_listed {executed batch : List SequenceGroupMetadata}
    {sequenceId : Nat} {sequence : Sequence}
    (hnot : ∀ metadata ∈ batch, sequenceId ∉ metadata.sequenceData)
    (h : sequence.Tallies (draws executed sequenceId) (partials executed sequenceId))
    : sequence.Tallies (draws (executed ++ batch) sequenceId)
        (partials (executed ++ batch) sequenceId) := by
  rw [draws_append, partials_append]
  unfold draws partials at h ⊢
  rw [listing_eq_nil hnot]
  exact h

section Describes

variable {memory : Memory} {enableChunking : Bool} {refs : List SequenceRef}
variable {scheduledGroups : List ScheduledSequenceGroup} {batch : List SequenceGroupMetadata}
variable {metadata : SequenceGroupMetadata} {seq : SequenceRef}

theorem exists_describes_of_mem
    (h : List.Forall₂ (fun scheduled metadata => ∃ seq ∈ refs, ∃ blockTable,
      Scheduler.Describes memory enableChunking scheduled metadata seq blockTable)
      scheduledGroups batch)
    (hmetadata : metadata ∈ batch)
    : ∃ scheduled, (scheduled, metadata) ∈ scheduledGroups.zip batch
        ∧ ∃ seq ∈ refs, ∃ blockTable,
          Scheduler.Describes memory enableChunking scheduled metadata seq blockTable := by
  rw [List.forall₂_iff_zip] at h
  rw [← List.map_snd_zip h.1.ge, List.mem_map] at hmetadata
  rcases hmetadata with ⟨⟨scheduled, metadata⟩, hentry, rfl⟩
  exact ⟨scheduled, hentry, h.2 hentry⟩

/--
A batch lists no sequence of a group that is not scheduled.
-/
theorem not_listed_of_describes (hsound : memory.Sound refs)
    (h : List.Forall₂ (fun scheduled metadata => ∃ seq ∈ refs, ∃ blockTable,
      Scheduler.Describes memory enableChunking scheduled metadata seq blockTable)
      scheduledGroups batch)
    (hseq : seq ∈ refs)
    (hout : ¬∃ entry ∈ scheduledGroups.zip batch, seq ∈ entry.1.scheduledGroup.sequences)
    : ∀ metadata ∈ batch, seq.sequenceId ∉ metadata.sequenceData := by
  intro metadata hmetadata hlists
  rcases exists_describes_of_mem h hmetadata
    with ⟨scheduled, hentry, seq', hseq', blockTable, hdesc⟩
  rw [hdesc.sequenceData_eq, AList.mem_insert] at hlists
  have hid := hlists.resolve_right (AList.notMem_empty _)
  have hsame : seq = seq' := hsound.eq_of_sequenceId_eq hseq' hseq hid
  refine hout ⟨_, hentry, ?_⟩
  rw [hdesc.sequences_eq, hsame]
  exact List.mem_singleton_self _

end Describes

/--
A batch that is answered adds to the sequences that it lists.
-/
theorem Tallied.processes (htallied : execution.Tallied)
    (h : execution.trace.Processes instants event called)
    (hsimulates : execution.trace.Simulates session) (hinv : session.Inv)
    : Tallied {
        trace := called
        executed := execution.executed ++ execution.trace.engine.answered event } := by
  cases h with
  | intro created index receiver next requestOutputs engine hreceiver hprocess =>
    have hpending := hsimulates.pending_of_getElem? hreceiver
    rw [LlmEngine.answered_response hreceiver]
    rcases hsimulates.paired.of_getElem? hreceiver with ⟨-, rfl, -⟩
    have hsound : session.scheduler.memory.Sound session.refs := hinv.ok.sound
    have hdescribes := hinv.describes _ _ hpending
    rw [hsimulates.scheduler_eq] at hsound hdescribes
    have hkeys := Scheduler.nodup_keys_of_describes hsound hdescribes hsimulates.nodup
    have hbatch : (((execution.trace.engine.takeResponse index).batch (ModelExecutor.sample next
        execution.trace.engine.sequenceGroupsMetadata)).flatMap
          (·.2.2.scheduledGroup.sequences)).Nodup :=
      LlmEngine.nodup_batch _ hsimulates.nodup
    rcases LlmEngine.entryApplies_of_processGeneratedOutputs hbatch hprocess
      with ⟨happlies, hframe⟩
    constructor
    . intro group hgroup seq hseq
      have hold := htallied.tallies group hgroup seq hseq
      have hmem : seq ∈ session.refs := by
        dsimp only at hgroup
        rw [← hsimulates.arrived_eq] at hgroup
        exact List.mem_flatMap.mpr ⟨group, hgroup, hseq⟩
      by_cases hin : ∃ entry ∈ execution.trace.engine.schedulerOutputs.scheduledSequenceGroups.zip
          execution.trace.engine.sequenceGroupsMetadata, seq ∈ entry.1.scheduledGroup.sequences
      . rcases hin with ⟨⟨scheduled, metadata⟩, hentry, hown⟩
        rcases (List.forall₂_iff_zip.mp hdescribes).2 hentry with ⟨seq', -, blockTable, hdesc⟩
        have hsame := hown
        rw [hdesc.sequences_eq, List.mem_singleton] at hsame
        subst hsame
        rcases Trace.exists_output_of_mem next hentry with ⟨output, houtput⟩
        rcases Trace.exists_next_of_mem houtput hdesc.sequenceData_eq with ⟨logitsIdx, hlookup⟩
        exact tallies_of_entryApplies hkeys (List.of_mem_zip hentry).2 hdesc hlookup
          (happlies _ houtput seq hown) hold
      . have hnot := not_listed_of_describes hsound hdescribes hmem hin
        have hout := hframe seq (by
          intro hlists
          rcases List.mem_flatMap.mp hlists with ⟨entry, hentry, hown⟩
          exact hin ⟨_, Trace.mem_zip_of_entry hentry, hown⟩)
        dsimp only
        rw [hout]
        exact tallies_append_of_not_listed hnot hold
    . intro metadata hmetadata
      dsimp only at hmetadata ⊢
      rcases List.mem_append.mp hmetadata with hmetadata | hmetadata
      . exact htallied.executed metadata hmetadata
      . rcases exists_describes_of_mem hdescribes hmetadata
          with ⟨scheduled, -, seq, hseq, blockTable, hdesc⟩
        rcases List.mem_flatMap.mp hseq with ⟨group, hgroup, hseq⟩
        rw [hsimulates.arrived_eq] at hgroup
        refine ⟨group, hgroup, seq, hseq, ?_⟩
        rw [hdesc.sequenceData_eq]
        rfl

/--
`schedule` leaves the outputs of all sequences alone.
-/
theorem Tallied.step {stepped engine : LlmEngine} {sampled : SequenceRef → Bool}
    {responseSenders : AList fun _ : String => Channel} {sent : List (Channel × Message)}
    {executed : List SequenceGroupMetadata} (h : Tallied ⟨called, executed⟩)
    (hbetween : called.Between session) (hinv : session.Inv)
    (hstep : called.engine.step instants = .ok stepped)
    (hengine : engine = { stepped with responseSenders, sent })
    : Tallied ⟨{ called with engine, sampled }, executed⟩ := by
  rcases LlmEngine.step_eq_ok hstep
    with ⟨metadata, outputs, scheduler, hschedule, -, -, -, hstepped⟩
  have hreschedules := hinv.reschedules (hbetween.scheduler_eq ▸ hschedule)
  rw [hbetween.scheduler_eq] at hreschedules
  have hscheduler : engine.scheduler = scheduler := by
    rw [hengine, hstepped]
  refine ⟨?_, h.executed⟩
  intro group hgroup seq hseq
  dsimp only
  rw [hscheduler]
  exact (h.tallies group hgroup seq hseq).of_keepsTokens (hreschedules.keepsTokens seq)

theorem Step.tallied (h : Step accepts execution execution')
    (hsimulates : execution.trace.Simulates session) (hinv : session.Inv)
    (htallied : execution.Tallied) : execution'.Tallied := by
  cases h with
  | wait hreceives hbusy => exact htallied.receives hreceives
  | schedule hcalls hhandle =>
    rcases hcalls.exists_between hsimulates hinv with ⟨between, hsteps, hbetween, -⟩
    rcases hcalls.handle_eq hhandle with ⟨stepped, responseSenders, sent, hstep, hengine⟩
    refine Tallied.step ?_ hbetween (hsteps.inv hinv) hstep hengine
    cases hcalls with
    | request hreceives hidle =>
      rw [answered_of_receives hreceives, List.append_nil]
      exact htallied.receives hreceives
    | response hprocesses => exact htallied.processes hprocesses hsimulates hinv
  | disconnect channel => exact ⟨htallied.tallies, htallied.executed⟩

variable {scheduler : Scheduler} {tokenizer : List Nat → Except String String}

theorem tallied_of_reachable (hinv : (Session.start scheduler).Inv)
    (h : Reachable accepts (LlmEngine.new scheduler tokenizer) execution) : execution.Tallied := by
  induction h with
  | refl => exact ⟨fun _ hgroup => (nomatch hgroup), fun _ hmetadata => (nomatch hmetadata)⟩
  | tail hreach hstep ih =>
    rcases Trace.simulates_of_reachable hinv (Reachable.trace_reachable hreach)
      with ⟨session, hsteps, hsimulates⟩
    exact hstep.tallied hsimulates (hsteps.inv hinv) ih

/--
In each state of a run the tokens of all sequences have their log-probabilities and their draws,
exactly when no batch of the run has left tokens of a sequence for a later one.
-/
theorem alignedWith_iff {schedulerConfig : SchedulerConfig}
    {blockSize numCpuBlocks numGpuBlocks : Nat} {slidingWindow : Option Nat} {heap : SequenceHeap}
    {now : Nat}
    (h : Reachable accepts
      (LlmEngine.new
        (Scheduler.new schedulerConfig blockSize numCpuBlocks numGpuBlocks slidingWindow heap now)
        tokenizer)
      execution)
    : (∀ group ∈ execution.trace.arrived, ∀ seq ∈ group.sequences,
        (execution.trace.engine.scheduler.memory.sequences seq).AlignedWith
          (draws execution.executed seq.sequenceId))
        ↔ ∀ metadata ∈ execution.executed, metadata.ReachesEnd := by
  have htallied := tallied_of_reachable (Session.inv_start schedulerConfig blockSize numCpuBlocks
    numGpuBlocks slidingWindow heap now) h
  constructor
  . intro haligned metadata hmetadata
    rcases htallied.executed metadata hmetadata with ⟨group, hgroup, seq, hseq, hkeys⟩
    have hzero := (htallied.tallies group hgroup seq hseq).alignedWith_iff_eq_zero.mp
      (haligned group hgroup seq hseq)
    unfold partials at hzero
    rw [List.countP_eq_zero] at hzero
    have hreaches := hzero metadata (by
      unfold listing
      rw [List.mem_filter]
      exact ⟨hmetadata, by simp [AList.mem_keys, hkeys]⟩)
    simpa using hreaches
  . intro hreaches group hgroup seq hseq
    refine (htallied.tallies group hgroup seq hseq).alignedWith_iff_eq_zero.mpr ?_
    unfold partials
    rw [List.countP_eq_zero]
    intro metadata hmetadata
    simpa using hreaches metadata (List.mem_filter.mp hmetadata).1

theorem reachesEnd_of_processes (h : trace.Processes instants event called)
    (hsimulates : trace.Simulates session) (hinv : session.Inv)
    (hpolicy : session.scheduler.schedulerConfig.enableChunkedPrefill = false)
    : ∀ metadata ∈ trace.engine.answered event, metadata.ReachesEnd := by
  cases h with
  | intro created index receiver next requestOutputs engine hreceiver hprocess =>
    have hdescribes := hinv.describes _ _ (hsimulates.pending_of_getElem? hreceiver)
    rw [LlmEngine.answered_response hreceiver]
    rcases hsimulates.paired.of_getElem? hreceiver with ⟨-, rfl, -⟩
    intro metadata hmetadata entry hentry
    rcases hdescribes.flip.exists_of_mem hmetadata with ⟨scheduled, -, seq, -, blockTable, hdesc⟩
    rw [hdesc.sequenceData_eq] at hentry
    rw [List.mem_singleton.mp hentry, hdesc.tokenChunkSize_eq]
    exact hdesc.chunk.2.2 hpolicy

/--
Without chunked prefill no tokens are left.
-/
theorem reachesEnd_of_not_enableChunkedPrefill {schedulerConfig : SchedulerConfig}
    {blockSize numCpuBlocks numGpuBlocks : Nat} {slidingWindow : Option Nat} {heap : SequenceHeap}
    {now : Nat} (hpolicy : schedulerConfig.enableChunkedPrefill = false)
    (h : Reachable accepts
      (LlmEngine.new
        (Scheduler.new schedulerConfig blockSize numCpuBlocks numGpuBlocks slidingWindow heap now)
        tokenizer)
      execution)
    : ∀ metadata ∈ execution.executed, metadata.ReachesEnd := by
  have hstart := Session.inv_start schedulerConfig blockSize numCpuBlocks numGpuBlocks slidingWindow
    heap now
  induction h with
  | refl => exact fun _ hmetadata => absurd hmetadata List.not_mem_nil
  | tail hreach hstep ih =>
    rcases Trace.simulates_of_reachable hstart (Reachable.trace_reachable hreach)
      with ⟨session, hsteps, hsimulates⟩
    cases hstep with
    | wait hreceives hbusy => exact ih
    | schedule hcalls hhandle =>
      intro metadata hmetadata
      rcases List.mem_append.mp hmetadata with hmetadata | hmetadata
      . exact ih metadata hmetadata
      . cases hcalls with
        | request hreceives hidle =>
          rw [answered_of_receives hreceives] at hmetadata
          cases hmetadata
        | response hprocesses =>
          refine reachesEnd_of_processes hprocesses hsimulates (hsteps.inv hstart) ?_ metadata
            hmetadata
          rw [(hsteps.sameConfig hstart).1]
          exact hpolicy
    | disconnect channel => exact ih

/--
An engine that computes at most two tokens in a batch.
-/
def twoTokens : LlmEngine :=
  LlmEngine.new (Scheduler.new ⟨2, 1, 4, 0, true⟩ 1 4 4 none
    (fun _ => Scheduler.waitingSequence []) 0) fun _ => .ok ""

def prompted (promptTokenIds : List Nat) : LlmEngine.Event :=
  .request ⟨2, 2, fun _ => 2, 2⟩ [Scheduler.waitingSequence promptTokenIds]
    (.generateRequest (Scheduler.singleGroup "a" 0 0) 0)

/--
The token 7 is sampled for the batch of `receiver`.
-/
def sampledOutputs (receiver : Receiver) : List SequenceGroupOutput :=
  ModelExecutor.sample (fun _ => ⟨7, 0, false⟩) receiver.request.sequenceGroupsMetadata

def sampledEvent (receiver : Receiver) : LlmEngine.Event :=
  .response ⟨4, 4, fun _ => 4, 4⟩ (fun _ => 4) 0 (some (sampledOutputs receiver))

/--
A prompt arrives and its first batch is executed. `p` is a condition on the engine after it and on
the batch.
-/
def checkFirstBatch (promptTokenIds : List Nat)
    (p : LlmEngine → List SequenceGroupMetadata → Bool) : Bool :=
  (twoTokens.handle (prompted promptTokenIds)).toOption.any fun engine =>
    engine.responses[0]?.any fun receiver =>
      ((engine.takeResponse 0).processGeneratedOutputs (fun _ => 4)
          (sampledOutputs receiver)).toOption.any (fun _ => true)
        && (engine.handle (sampledEvent receiver)).toOption.any fun engine =>
          p engine receiver.request.sequenceGroupsMetadata

theorem exists_reachable_of_first_batch {promptTokenIds : List Nat}
    {p : LlmEngine → List SequenceGroupMetadata → Bool}
    (hnew : Sequence.new "" promptTokenIds 1 false
      = .ok (Scheduler.waitingSequence promptTokenIds))
    (h : checkFirstBatch promptTokenIds p = true)
    : ∃ execution,
        Reachable (fun _ _ _ => True) twoTokens execution
          ∧ execution.trace.arrived = [Scheduler.singleGroup "a" 0 0]
          ∧ p execution.trace.engine execution.executed = true := by
  rcases Except.exists_eq_ok_of_any h with ⟨scheduled, hscheduled, h⟩
  rw [Option.any_eq_true] at h
  rcases h with ⟨receiver, hreceiver, h⟩
  rw [Bool.and_eq_true] at h
  rcases Except.exists_eq_ok_of_any h.1 with ⟨⟨requestOutputs, processed⟩, hprocess, -⟩
  rcases Except.exists_eq_ok_of_any h.2 with ⟨engine, hengine, hp⟩
  have hanswered : scheduled.answered (sampledEvent receiver)
      = receiver.request.sequenceGroupsMetadata :=
    LlmEngine.answered_response hreceiver _ _ _
  refine ⟨_, .tail (.single (.schedule (.request (.intro ⟨2, 2, fun _ => 2, 2⟩
    (.generateRequest (Scheduler.singleGroup "a" 0 0) 0) ⟨0, 0⟩
    (Scheduler.waitingSequence promptTokenIds) "" promptTokenIds false rfl ?_ hnew trivial) rfl)
    hscheduled)) (.schedule (.response (.intro _ _ 0 receiver _ requestOutputs processed hreceiver
    hprocess)) hengine), rfl, ?_⟩
  . intro group hgroup
    cases hgroup
  . change p engine ([] ++ [] ++ scheduled.answered (sampledEvent receiver)) = true
    rw [hanswered]
    exact hp

/--
A prompt of two tokens is computed in one batch.
-/
theorem alignedWith_two_tokens
    : ∃ execution,
        Reachable (fun _ _ _ => True) twoTokens execution
          ∧ execution.trace.arrived = [Scheduler.singleGroup "a" 0 0]
          ∧ execution.executed.length = 1
          ∧ ∀ group ∈ execution.trace.arrived, ∀ seq ∈ group.sequences,
              (execution.trace.engine.scheduler.memory.sequences seq).AlignedWith
                (draws execution.executed seq.sequenceId) := by
  rcases @exists_reachable_of_first_batch [5, 6]
    (fun _ executed => decide (executed.length = 1 ∧ ∀ metadata ∈ executed, metadata.ReachesEnd))
    (by decide +kernel) (by decide +kernel) with ⟨execution, hreach, harrived, hp⟩
  rw [decide_eq_true_eq] at hp
  exact ⟨execution, hreach, harrived, hp.1, (alignedWith_iff hreach).mpr hp.2⟩

/--
The first batch of a prompt of three tokens draws a token that is not added.
-/
theorem not_alignedWith_three_tokens
    : ∃ execution,
        Reachable (fun _ _ _ => True) twoTokens execution
          ∧ ¬ ∀ group ∈ execution.trace.arrived, ∀ seq ∈ group.sequences,
              (execution.trace.engine.scheduler.memory.sequences seq).AlignedWith
                (draws execution.executed seq.sequenceId) := by
  rcases @exists_reachable_of_first_batch [5, 6, 7]
    (fun engine executed => decide (draws executed 0
      ≠ (engine.scheduler.memory.sequences ⟨0, 0⟩).sequenceData.outputTokenIds.length))
    (by decide +kernel) (by decide +kernel) with ⟨execution, hreach, harrived, hp⟩
  refine ⟨execution, hreach, ?_⟩
  intro haligned
  rw [decide_eq_true_eq] at hp
  exact hp (haligned (Scheduler.singleGroup "a" 0 0) (by simp [harrived]) ⟨0, 0⟩
    (by simp [Scheduler.singleGroup])).draws_eq

end Execution

end AtomaInfer
