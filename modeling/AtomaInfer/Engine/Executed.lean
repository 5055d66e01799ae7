import AtomaInfer.Engine.Batch
import AtomaInfer.Engine.Run
import Mathlib.Data.List.Zip

/-!
Runs of the engine in which groups with one sequence arrive and every batch is executed: its
response is what the model executor samples for it. Such a run is a run of a session.
-/

namespace AtomaInfer

open Scheduler

/--
An engine, the groups that have arrived, and the sequences for which a token was sampled since they
were created or last reset for recomputation.
-/
structure Trace where
  engine : LlmEngine
  arrived : List SequenceGroup
  sampled : SequenceRef → Bool

namespace Trace

def start (engine : LlmEngine) : Trace where
  engine
  arrived := []
  sampled _ := false

/--
Tokens are sampled for the groups of the batch that ask for it.
-/
def mark (sampled : SequenceRef → Bool) (scheduled : List ScheduledSequenceGroup)
    (metadata : List SequenceGroupMetadata) : SequenceRef → Bool :=
  fun seq =>
    sampled seq || (scheduled.zip metadata).any fun entry =>
      entry.2.doSample && decide (seq ∈ entry.1.scheduledGroup.sequences)

def reset (sampled : SequenceRef → Bool) (groups : List SequenceGroup) : SequenceRef → Bool :=
  fun seq => sampled seq && !(groups.any fun group => decide (seq ∈ group.sequences))

/--
A request with a new sequence arrives. The identifier of the sequence is new.
-/
inductive Receives (accepts : Session.Accepts) (trace : Trace)
    : Instants → LlmEngine.Event → Trace → Prop where
  | intro (instants : Instants) (request : EngineRequest) (seq : SequenceRef) (sequence : Sequence)
      (prompt : String) (promptTokenIds : List Nat) (returnFullText : Bool)
      (hgroup : request.sequenceGroup.sequences = [seq])
      (hfresh : ∀ group ∈ trace.arrived, ∀ other ∈ group.sequences,
        other.sequenceId ≠ seq.sequenceId)
      (hnew : Sequence.new prompt promptTokenIds trace.engine.scheduler.memory.blockManager.blockSize
        returnFullText = .ok sequence)
      (haccepts : accepts trace.arrived request.sequenceGroup sequence)
    : Receives accepts trace instants (.request instants [sequence] request) {
        engine :=
          (trace.engine.createSequences request.sequenceGroup [sequence]).addRequest request
        arrived := trace.arrived ++ [request.sequenceGroup]
        sampled := Function.update trace.sampled seq false }

/--
The response to a batch is processed.
-/
inductive Processes (trace : Trace) : Instants → LlmEngine.Event → Trace → Prop where
  | intro (instants : Instants) (created : SequenceRef → Nat) (index : Nat) (receiver : Receiver)
      (next : Nat → ModelExecutor.NextToken) (requestOutputs : List GenerateRequestOutput)
      (engine : LlmEngine) (hreceiver : trace.engine.responses[index]? = some receiver)
      (hprocess : (trace.engine.takeResponse index).processGeneratedOutputs created
          (ModelExecutor.sample next receiver.request.sequenceGroupsMetadata)
        = .ok (requestOutputs, engine))
    : Processes trace instants
        (.response instants created index
          (some (ModelExecutor.sample next receiver.request.sequenceGroupsMetadata))) {
        trace with
        engine
        sampled := mark trace.sampled receiver.schedulerOutputs.scheduledSequenceGroups
          receiver.request.sequenceGroupsMetadata }

/--
The traces in which `step` is called, at the given instants.
-/
inductive Calls (accepts : Session.Accepts) (trace : Trace) (instants : Instants)
    (event : LlmEngine.Event) (called : Trace) : Prop where
  | request (h : trace.Receives accepts instants event called) (hidle : called.engine.isIdle = true)
  | response (h : trace.Processes instants event called)

inductive Step (accepts : Session.Accepts) (trace : Trace) : Trace → Prop where
  | wait {instants : Instants} {event : LlmEngine.Event} {received : Trace}
      (h : trace.Receives accepts instants event received)
      (hbusy : received.engine.isIdle = false)
    : Step accepts trace received
  | schedule {instants : Instants} {event : LlmEngine.Event} {called : Trace} {engine : LlmEngine}
      (h : trace.Calls accepts instants event called)
      (hhandle : trace.engine.handle event = .ok engine)
    : Step accepts trace {
        called with
        engine
        sampled := reset called.sampled (called.engine.scheduler.recomputed instants) }
  | disconnect (channel : Channel)
    : Step accepts trace {
        trace with
        engine.disconnected := channel :: trace.engine.disconnected }

def Reachable (accepts : Session.Accepts) (engine : LlmEngine) (trace : Trace) : Prop :=
  Relation.ReflTransGen (Step accepts) (start engine) trace

/--
The states of a run: those between two events, and those in which `step` is called.
-/
inductive Visits (accepts : Session.Accepts) (engine : LlmEngine) : Trace → Prop where
  | between {trace : Trace} (h : Reachable accepts engine trace) : Visits accepts engine trace
  | calls {trace called : Trace} {instants : Instants} {event : LlmEngine.Event}
      (h : Reachable accepts engine trace) (hcalls : trace.Calls accepts instants event called)
    : Visits accepts engine called

variable {accepts : Session.Accepts} {trace trace' called : Trace} {instants : Instants}
variable {event : LlmEngine.Event} {session : Session}

/--
The session between two batches that the trace is a run of.
-/
structure Between (trace : Trace) (session : Session) : Prop where
  scheduler_eq : session.scheduler = trace.engine.scheduler
  arrived_eq : session.arrived = trace.arrived
  pending_eq : session.pending = none

structure Simulates (trace : Trace) (session : Session) : Prop where
  scheduler_eq : session.scheduler = trace.engine.scheduler
  arrived_eq : session.arrived = trace.arrived
  pending_eq : session.pending
      = some (trace.engine.sequenceGroupsMetadata, trace.engine.schedulerOutputs)
    ∨ session.pending = none ∧ trace.engine.schedulerOutputs.isEmpty = true
  paired : trace.engine.Paired
  nodup : (trace.engine.schedulerOutputs.scheduledSequenceGroups.flatMap
    (·.scheduledGroup.sequences)).Nodup

/--
The sequences of the batch advance to those of `heap`.
-/
structure Processed (trace called : Trace) (heap : SequenceHeap) : Prop where
  scheduler_eq : called.engine.scheduler
    = removeFinishedSequences { trace.engine.scheduler with memory.sequences := heap }
  arrived_eq : called.arrived = trace.arrived
  sampled_eq : called.sampled
    = mark trace.sampled trace.engine.schedulerOutputs.scheduledSequenceGroups
        trace.engine.sequenceGroupsMetadata
  responses_eq : called.engine.responses = []
  advances : ∀ entry ∈ trace.engine.schedulerOutputs.scheduledSequenceGroups.zip
      trace.engine.sequenceGroupsMetadata,
    ∀ seq ∈ entry.1.scheduledGroup.sequences, ∃ output,
      LlmEngine.Advances trace.engine.scheduler.schedulerConfig.maxModelLen
        entry.1.scheduledGroup.stoppingCriteria entry.1.tokenChunkSize entry.2.doSample output
        (trace.engine.scheduler.memory.sequences seq) (heap seq)
  frame : ∀ seq,
    (∀ entry ∈ trace.engine.schedulerOutputs.scheduledSequenceGroups.zip
        trace.engine.sequenceGroupsMetadata,
      seq ∉ entry.1.scheduledGroup.sequences)
    → heap seq = trace.engine.scheduler.memory.sequences seq

theorem removeFinishedSequences_eq (h : session.Inv)
    : session.scheduler.removeFinishedSequences = session.scheduler := by
  have hall : session.scheduler.running.filter
      (fun group => !group.isFinished session.scheduler.memory.sequences)
        = session.scheduler.running := by
    rw [List.filter_eq_self]
    intro group hgroup
    rcases h.ok.running group hgroup with ⟨seq, hsingle, hstatus⟩
    have hstatus : (session.scheduler.memory.sequences seq).sequenceStatus = .running := hstatus
    simp [SequenceGroup.isFinished, hsingle, Sequence.isFinished, hstatus,
      SequenceStatus.isFinished]
  unfold removeFinishedSequences
  rw [hall]

/--
An empty batch needs no update.
-/
theorem Simulates.exists_between (accepts : Session.Accepts) (h : trace.Simulates session)
    (hinv : session.Inv)
    (hempty : trace.engine.schedulerOutputs.isEmpty = true)
    : ∃ session', session.Steps accepts session' ∧ trace.Between session' := by
  rcases h.pending_eq with hpending | ⟨hpending, -⟩
  . have hnil : trace.engine.schedulerOutputs.scheduledSequenceGroups = [] := by
      simp only [SchedulerOutputs.isEmpty, Bool.and_eq_true, List.isEmpty_iff] at hempty
      exact hempty.1.1.1
    refine ⟨session.update session.scheduler.memory.sequences, .single (.update (.intro _ _ _ hpending
      ⟨?_, ?_⟩)), ?_, h.arrived_eq, rfl⟩
    . simp [hnil]
    . exact fun _ _ => rfl
    . exact (removeFinishedSequences_eq hinv).trans h.scheduler_eq
  . exact ⟨session, .refl, h.scheduler_eq, h.arrived_eq, hpending⟩

theorem Receives.arrives {received : Trace} (h : trace.Receives accepts instants event received)
    (hscheduler : session.scheduler = trace.engine.scheduler)
    (harrived : session.arrived = trace.arrived)
    : ∃ session',
        session.Arrives accepts session'
          ∧ session'.scheduler = received.engine.scheduler
          ∧ session'.arrived = received.arrived
          ∧ session'.pending = session.pending := by
  cases h with
  | intro request seq sequence prompt promptTokenIds returnFullText hgroup hfresh hnew haccepts =>
    refine ⟨session.receive request.sequenceGroup seq sequence, .intro request.sequenceGroup seq
      sequence prompt promptTokenIds returnFullText hgroup ?_ ?_ ?_, ?_, ?_, rfl⟩
    . intro other hother
      rcases List.mem_flatMap.mp hother with ⟨group, harrives, hmem⟩
      exact hfresh group (harrived ▸ harrives) other hmem
    . rw [hscheduler]
      exact hnew
    . rw [harrived]
      exact haccepts
    . cases request <;>
        simp [Session.receive, LlmEngine.addRequest, LlmEngine.createSequences,
          EngineRequest.sequenceGroup, hscheduler] at hgroup ⊢ <;>
        simp [hgroup]
    . simp [Session.receive, harrived]

theorem Receives.simulates {received : Trace}
    (h : trace.Receives accepts instants event received) (hsimulates : trace.Simulates session)
    : ∃ session', session.Arrives accepts session' ∧ received.Simulates session' := by
  rcases h.arrives hsimulates.scheduler_eq hsimulates.arrived_eq
    with ⟨session', harrives, hscheduler, harrived, hpending⟩
  have hpaired : received.engine.Paired := by
    cases h with
    | intro => exact hsimulates.paired.addRequest _ _
  have houtputs : received.engine.schedulerOutputs = trace.engine.schedulerOutputs
      ∧ received.engine.sequenceGroupsMetadata = trace.engine.sequenceGroupsMetadata := by
    cases h with
    | intro request => cases request <;> exact ⟨rfl, rfl⟩
  refine ⟨session', harrives, hscheduler, harrived, ?_, hpaired, ?_⟩
  . rw [hpending, houtputs.1, houtputs.2]
    exact hsimulates.pending_eq
  . rw [houtputs.1]
    exact hsimulates.nodup

theorem Receives.handle_eq {received : Trace}
    (h : trace.Receives accepts instants event received)
    : trace.engine.handle event
        = if received.engine.isIdle then received.engine.step instants else .ok received.engine := by
  cases h with
  | intro => rfl

/--
The batch that the model executor has answered is the one of the session.
-/
theorem Simulates.pending_of_getElem? {index : Nat} {receiver : Receiver}
    (h : trace.Simulates session) (hreceiver : trace.engine.responses[index]? = some receiver)
    : session.pending = some (trace.engine.sequenceGroupsMetadata, trace.engine.schedulerOutputs) := by
  rcases h.pending_eq with hpending | ⟨-, hempty⟩
  . exact hpending
  . have hnone := h.paired
    unfold LlmEngine.Paired at hnone
    rw [if_pos hempty] at hnone
    simp [hnone] at hreceiver

/--
The output for a group with one sequence is sampled from a row of the logits.
-/
theorem exists_next_of_mem {next : Nat → ModelExecutor.NextToken}
    {metadata : List SequenceGroupMetadata} {scheduled : List ScheduledSequenceGroup}
    {entry : LlmEngine.Entry}
    (hentry : entry ∈ (ModelExecutor.sample next metadata).zip (metadata.zip scheduled))
    {sequenceId : Nat} {data : SequenceData}
    (hdata : entry.2.1.sequenceData = AList.insert sequenceId data ∅)
    : ∃ logitsIdx, entry.1.outputs.lookup sequenceId
        = some (ModelExecutor.sequenceOutput sequenceId (next logitsIdx)) := by
  rcases entry with ⟨output, metadata', scheduled'⟩
  rcases List.mem_iff_getElem?.mp hentry with ⟨i, hi⟩
  rw [List.getElem?_zip_eq_some, List.getElem?_zip_eq_some] at hi
  rcases hi with ⟨houtput, hmetadata, -⟩
  have hmem : (metadata', output) ∈ metadata.zip (ModelExecutor.sample next metadata) := by
    apply List.mem_of_getElem? (i := i)
    rw [List.getElem?_zip_eq_some]
    exact ⟨hmetadata, houtput⟩
  rcases (List.forall₂_iff_zip.mp (ModelExecutor.sample_eq next metadata)).2 hmem
    with ⟨logitsIdx, rfl⟩
  exact ⟨logitsIdx, ModelExecutor.lookup_sampleGroup next logitsIdx hdata⟩

theorem hasLogprob_of_mem {next : Nat → ModelExecutor.NextToken}
    {metadata : List SequenceGroupMetadata} {scheduled : List ScheduledSequenceGroup}
    {entry : LlmEngine.Entry}
    (hentry : entry ∈ (ModelExecutor.sample next metadata).zip (metadata.zip scheduled))
    {seq : SequenceRef} {data : SequenceData}
    (hdata : entry.2.1.sequenceData = AList.insert seq.sequenceId data ∅)
    : LlmEngine.HasLogprob entry.1 seq := by
  rcases exists_next_of_mem hentry hdata with ⟨logitsIdx, houtput⟩
  intro sequenceOutput hlookup
  rw [houtput] at hlookup
  cases hlookup
  change (List.dlookup (next logitsIdx).token [⟨_, _⟩]).isSome = true
  rw [List.dlookup_cons_eq]
  rfl

/--
Every entry of the batch gets an output.
-/
theorem map_snd_zip_sample (next : Nat → ModelExecutor.NextToken)
    (metadata : List SequenceGroupMetadata) (scheduled : List ScheduledSequenceGroup)
    : ((ModelExecutor.sample next metadata).zip (metadata.zip scheduled)).map Prod.snd
        = metadata.zip scheduled := by
  have hlength := (ModelExecutor.sample_eq next metadata).length_eq
  apply List.map_snd_zip
  rw [List.length_zip]
  omega

theorem mem_zip_of_entry {outputs : List SequenceGroupOutput} {metadata : List SequenceGroupMetadata}
    {scheduled : List ScheduledSequenceGroup} {entry : LlmEngine.Entry}
    (h : entry ∈ outputs.zip (metadata.zip scheduled))
    : (entry.2.2, entry.2.1) ∈ scheduled.zip metadata := by
  rw [← List.zip_swap]
  exact List.mem_map_of_mem (List.of_mem_zip h).2

theorem exists_output_of_mem (next : Nat → ModelExecutor.NextToken)
    {metadata : List SequenceGroupMetadata} {scheduled : List ScheduledSequenceGroup}
    {entry : ScheduledSequenceGroup × SequenceGroupMetadata} (h : entry ∈ scheduled.zip metadata)
    : ∃ output, (output, entry.2, entry.1)
        ∈ (ModelExecutor.sample next metadata).zip (metadata.zip scheduled) := by
  rw [← List.zip_swap, List.mem_map] at h
  rcases h with ⟨entry', hentry', rfl⟩
  rw [← map_snd_zip_sample next, List.mem_map] at hentry'
  rcases hentry' with ⟨⟨output, entry'⟩, hmem, rfl⟩
  exact ⟨output, hmem⟩

theorem Processes.processed (h : trace.Processes instants event called)
    (hsimulates : trace.Simulates session) (hinv : session.Inv)
    : ∃ heap, trace.Processed called heap := by
  cases h with
  | intro created index receiver next requestOutputs engine hreceiver hprocess =>
    have hpending := hsimulates.pending_of_getElem? hreceiver
    rcases hsimulates.paired.of_getElem? hreceiver with ⟨-, rfl, hresponses⟩
    rcases LlmEngine.processGeneratedOutputs_eq_ok hprocess
      with ⟨updated, hfold, ⟨sequences, sent, rfl⟩, rfl, -⟩
    have hdescribes := hinv.describes _ _ hpending
    rw [hsimulates.scheduler_eq, List.forall₂_iff_zip] at hdescribes
    have hnodup : (((ModelExecutor.sample next trace.engine.sequenceGroupsMetadata).zip
        (trace.engine.sequenceGroupsMetadata.zip
          trace.engine.schedulerOutputs.scheduledSequenceGroups)).flatMap
            (·.2.2.scheduledGroup.sequences)).Nodup := by
      have hbatch := congrArg (List.map Prod.snd)
        (map_snd_zip_sample next trace.engine.sequenceGroupsMetadata
          trace.engine.schedulerOutputs.scheduledSequenceGroups)
      rw [List.map_map, List.map_snd_zip hdescribes.1.le] at hbatch
      have hflat := congrArg (List.flatMap (·.scheduledGroup.sequences)) hbatch
      rw [List.flatMap_map] at hflat
      exact Eq.mpr (congrArg List.Nodup hflat) hsimulates.nodup
    rcases LlmEngine.foldlM_processOutput hfold hnodup (by
      intro entry hentry
      rcases hdescribes.2 (mem_zip_of_entry hentry) with ⟨seq, -, blockTable, hdescribes⟩
      refine ⟨seq, hdescribes.sequences_eq, ?_, hasLogprob_of_mem hentry hdescribes.sequenceData_eq⟩
      have hstatus : (trace.engine.scheduler.memory.sequences seq).sequenceStatus = .running :=
        hdescribes.status_eq
      simp [LlmEngine.takeResponse, Sequence.isFinished, hstatus, SequenceStatus.isFinished])
      with ⟨hadvances, hframe⟩
    refine ⟨sequences, rfl, rfl, rfl, hresponses, ?_, ?_⟩
    . intro entry hentry seq hseq
      rcases exists_output_of_mem next hentry with ⟨output, hmem⟩
      rcases hadvances _ hmem seq hseq with ⟨sequenceOutput, -, hadvances⟩
      exact ⟨sequenceOutput, hadvances⟩
    . intro seq hout
      apply hframe
      intro hmem
      rcases List.mem_flatMap.mp hmem with ⟨entry, hentry, hseq⟩
      exact hout _ (mem_zip_of_entry hentry) hseq

theorem Processed.between {heap : SequenceHeap} (h : trace.Processed called heap)
    (hscheduler : session.scheduler = trace.engine.scheduler)
    (harrived : session.arrived = trace.arrived)
    : called.Between (session.update heap) := by
  refine ⟨?_, harrived.trans h.arrived_eq.symm, rfl⟩
  rw [h.scheduler_eq, ← hscheduler]
  rfl

theorem Processed.updates {heap : SequenceHeap} (h : trace.Processed called heap)
    (hscheduler : session.scheduler = trace.engine.scheduler)
    (hpending : session.pending
      = some (trace.engine.sequenceGroupsMetadata, trace.engine.schedulerOutputs))
    : session.Updates (session.update heap) := by
  refine .intro _ _ heap hpending ⟨?_, ?_⟩
  . intro entry hentry seq hseq
    rw [hscheduler]
    rcases h.advances entry hentry seq hseq with ⟨output, hadvances⟩
    exact hadvances.toAdvances
  . rw [hscheduler]
    exact h.frame

/--
A trace in which `step` is called is a run of a session that has no batch.
-/
theorem Calls.exists_between (h : trace.Calls accepts instants event called)
    (hsimulates : trace.Simulates session) (hinv : session.Inv)
    : ∃ session', session.Steps accepts session' ∧ called.Between session'
        ∧ called.engine.responses = [] := by
  cases h with
  | request hreceives hidle =>
    rcases hreceives.simulates hsimulates with ⟨received, harrives, hreceived⟩
    have hempty : called.engine.schedulerOutputs.isEmpty = true := by
      unfold LlmEngine.isIdle at hidle
      exact (Bool.and_eq_true_iff.mp hidle).2
    rcases hreceived.exists_between accepts (harrives.inv hinv) hempty
      with ⟨session', hsteps, hbetween⟩
    exact ⟨session', .head (.arrive harrives) hsteps, hbetween,
      hreceived.paired.responses_eq_nil hidle⟩
  | response hprocesses =>
    rcases hprocesses.processed hsimulates hinv with ⟨heap, hprocessed⟩
    have hpending : session.pending
        = some (trace.engine.sequenceGroupsMetadata, trace.engine.schedulerOutputs) := by
      cases hprocesses with
      | intro _ _ _ _ _ _ hreceiver => exact hsimulates.pending_of_getElem? hreceiver
    exact ⟨session.update heap,
      .single (.update (hprocessed.updates hsimulates.scheduler_eq hpending)),
      hprocessed.between hsimulates.scheduler_eq hsimulates.arrived_eq, hprocessed.responses_eq⟩

theorem Calls.handle_eq {engine : LlmEngine} (h : trace.Calls accepts instants event called)
    (hhandle : trace.engine.handle event = .ok engine)
    : ∃ stepped responseSenders sent,
        called.engine.step instants = .ok stepped
          ∧ engine = { stepped with responseSenders, sent } := by
  cases h with
  | request hreceives hidle =>
    rw [hreceives.handle_eq, if_pos hidle] at hhandle
    exact ⟨engine, _, _, hhandle, rfl⟩
  | response hprocesses =>
    cases hprocesses with
    | intro created index receiver next requestOutputs processed hreceiver hprocess =>
      rw [LlmEngine.handle_response hreceiver] at hhandle
      rcases Except.bind_eq_ok.mp hhandle with ⟨processed', hprocess', hhandle⟩
      cases hprocess.symm.trans hprocess'
      rcases Except.bind_eq_ok.mp hhandle with ⟨stepped, hstepped, hsend⟩
      rcases LlmEngine.sendResponses_keeps hsend with ⟨responseSenders, sent, rfl⟩
      exact ⟨stepped, responseSenders, sent, hstepped, rfl⟩

/--
The engine and the session take the same batch.
-/
theorem Between.simulates {stepped engine : LlmEngine} {sampled : SequenceRef → Bool}
    {responseSenders : AList fun _ : String => Channel} {sent : List (Channel × Message)}
    (h : called.Between session) (hinv : session.Inv) (hnone : called.engine.responses = [])
    (hstep : called.engine.step instants = .ok stepped)
    (hengine : engine = { stepped with responseSenders, sent })
    : ∃ session', session.Schedules session'
        ∧ Simulates { called with engine, sampled } session' := by
  have hpaired := LlmEngine.Paired.of_step hnone hstep
  rcases LlmEngine.step_eq_ok hstep
    with ⟨metadata, outputs, scheduler, hschedule, hmetadata, houtputs, -, hstepped⟩
  rw [← h.scheduler_eq] at hschedule
  refine ⟨_, .intro instants metadata outputs scheduler h.pending_eq hschedule, ?_⟩
  subst hengine
  refine ⟨?_, h.arrived_eq, .inl ?_, hpaired.of_eq rfl rfl rfl, ?_⟩
  . dsimp only
    rw [hstepped]
  . dsimp only
    rw [hmetadata, houtputs]
  . dsimp only
    rw [houtputs]
    exact (hinv.reschedules hschedule).nodup

theorem Step.simulates (h : Step accepts trace trace') (hsimulates : trace.Simulates session)
    (hinv : session.Inv) : ∃ session', session.Steps accepts session' ∧ trace'.Simulates session' := by
  cases h with
  | wait hreceives hbusy =>
    rcases hreceives.simulates hsimulates with ⟨received, harrives, hreceived⟩
    exact ⟨received, .single (.arrive harrives), hreceived⟩
  | schedule hcalls hhandle =>
    rcases hcalls.exists_between hsimulates hinv with ⟨between, hsteps, hbetween, hnone⟩
    rcases hcalls.handle_eq hhandle with ⟨stepped, responseSenders, sent, hstep, hengine⟩
    rcases hbetween.simulates (hsteps.inv hinv) hnone hstep hengine
      with ⟨session', hschedules, hsimulates'⟩
    exact ⟨session', hsteps.tail (.schedule hschedules), hsimulates'⟩
  | disconnect channel =>
    exact ⟨session, .refl, hsimulates.scheduler_eq, hsimulates.arrived_eq, hsimulates.pending_eq,
      hsimulates.paired.of_eq rfl rfl rfl, hsimulates.nodup⟩

theorem simulates_of_reachable {scheduler : Scheduler}
    {tokenizer : List Nat → Except String String} (hinv : (Session.start scheduler).Inv)
    (h : Reachable accepts (LlmEngine.new scheduler tokenizer) trace)
    : ∃ session, (Session.start scheduler).Steps accepts session ∧ trace.Simulates session := by
  induction h with
  | refl => exact ⟨_, .refl, rfl, rfl, .inr ⟨rfl, rfl⟩, rfl, List.nodup_nil⟩
  | tail _ hstep ih =>
    rcases ih with ⟨session, hsteps, hsimulates⟩
    rcases hstep.simulates hsimulates (hsteps.inv hinv) with ⟨session', hsteps', hsimulates'⟩
    exact ⟨session', hsteps.trans hsteps', hsimulates'⟩

theorem Visits.exists_session {scheduler : Scheduler}
    {tokenizer : List Nat → Except String String} (hinv : (Session.start scheduler).Inv)
    (h : Visits accepts (LlmEngine.new scheduler tokenizer) trace)
    : ∃ session, (Session.start scheduler).Steps accepts session
        ∧ session.scheduler = trace.engine.scheduler
        ∧ session.arrived = trace.arrived := by
  cases h with
  | between h =>
    rcases simulates_of_reachable hinv h with ⟨session, hsteps, hsimulates⟩
    exact ⟨session, hsteps, hsimulates.scheduler_eq, hsimulates.arrived_eq⟩
  | calls h hcalls =>
    rcases simulates_of_reachable hinv h with ⟨session, hsteps, hsimulates⟩
    rcases hcalls.exists_between hsimulates (hsteps.inv hinv) with ⟨session', hsteps', hbetween, -⟩
    exact ⟨session', hsteps.trans hsteps', hbetween.scheduler_eq, hbetween.arrived_eq⟩

/--
What drives a run: a new sequence with its prompt, or the token that is sampled for every sequence of
the batch.
-/
inductive Input where
  | prompt (requestId : String) (sequenceId : Nat) (promptTokenIds : List Nat)
  | token (tokenId : Nat)

section Driven

variable (trace) (scheduler : Scheduler) (tokenizer : List Nat → Except String String)

/--
The event of an input, and the trace in which `step` is called unless a batch is out.
-/
def feed (input : Input) : Option (LlmEngine.Event × Trace) :=
  match input with
  | .prompt requestId sequenceId promptTokenIds =>
    let group := singleGroup requestId sequenceId 0
    let sequence := waitingSequence promptTokenIds
    if (∀ other ∈ trace.arrived, ∀ seq ∈ other.sequences, seq.sequenceId ≠ sequenceId)
        ∧ Sequence.new "" promptTokenIds trace.engine.scheduler.memory.blockManager.blockSize false
          = .ok sequence then
      some (.request ⟨2, 2, fun _ => 2, 2⟩ [sequence] (.generateRequest group 0), {
        engine := (trace.engine.createSequences group [sequence]).addRequest
          (.generateRequest group 0)
        arrived := trace.arrived ++ [group]
        sampled := Function.update trace.sampled ⟨sequenceId, sequenceId⟩ false })
    else none
  | .token tokenId =>
    trace.engine.responses[0]?.bind fun receiver =>
      let outputs := ModelExecutor.sample (fun _ => ⟨tokenId, 0, false⟩)
        receiver.request.sequenceGroupsMetadata
      ((trace.engine.takeResponse 0).processGeneratedOutputs (fun _ => 2) outputs).toOption.map
        fun processed => (.response ⟨2, 2, fun _ => 2, 2⟩ (fun _ => 2) 0 (some outputs), {
          trace with
          engine := processed.2
          sampled := mark trace.sampled receiver.schedulerOutputs.scheduledSequenceGroups
            receiver.request.sequenceGroupsMetadata })

/--
A response always calls `step`.
-/
def Input.callsStep (input : Input) (fed : Trace) : Bool :=
  match input with
  | .prompt _ _ _ => fed.engine.isIdle
  | .token _ => true

def act (input : Input) : Option Trace :=
  (trace.feed input).bind fun fed =>
    if input.callsStep fed.2 then
      (trace.engine.handle fed.1).toOption.map fun engine => {
        fed.2 with
        engine
        sampled := reset fed.2.sampled
          (fed.2.engine.scheduler.recomputed ⟨2, 2, fun _ => 2, 2⟩) }
    else some fed.2

def drive (inputs : List Input) : Option Trace :=
  inputs.foldlM act (start (LlmEngine.new scheduler tokenizer))

/--
The state in which the last input calls `step`.
-/
def stepping (inputs : List Input) (last : Input) : Option Trace :=
  (drive scheduler tokenizer inputs).bind fun trace =>
    ((trace.feed last).filter fun fed => last.callsStep fed.2).map (·.2)

def Input.Accepted (accepts : Session.Accepts) (input : Input) : Prop :=
  match input with
  | .prompt requestId sequenceId promptTokenIds =>
    ∀ arrived, accepts arrived (singleGroup requestId sequenceId 0) (waitingSequence promptTokenIds)
  | .token _ => True

variable {trace} {scheduler} {tokenizer} {input : Input} {inputs : List Input}

/--
An input is an event of the run.
-/
theorem calls_or_receives_of_feed {fed : LlmEngine.Event × Trace} (haccepts : input.Accepted accepts)
    (h : trace.feed input = some fed)
    : (input.callsStep fed.2 = true
          ∧ trace.Calls accepts ⟨2, 2, fun _ => 2, 2⟩ fed.1 fed.2)
        ∨ (input.callsStep fed.2 = false
          ∧ trace.Receives accepts ⟨2, 2, fun _ => 2, 2⟩ fed.1 fed.2) := by
  cases input with
  | prompt requestId sequenceId promptTokenIds =>
    unfold feed at h
    dsimp only at h
    split at h
    . next hguard =>
      cases h
      have hreceives := @Receives.intro accepts trace ⟨2, 2, fun _ => 2, 2⟩
        (.generateRequest (singleGroup requestId sequenceId 0) 0) ⟨sequenceId, sequenceId⟩
        (waitingSequence promptTokenIds) "" promptTokenIds false rfl hguard.1 hguard.2
        (haccepts trace.arrived)
      cases hidle : Input.callsStep (.prompt requestId sequenceId promptTokenIds) _ with
      | true => exact .inl ⟨rfl, .request hreceives hidle⟩
      | false => exact .inr ⟨rfl, hreceives⟩
    . cases h
  | token tokenId =>
    rcases Option.bind_eq_some_iff.mp h with ⟨receiver, hreceiver, h⟩
    rcases Option.map_eq_some_iff.mp h with ⟨⟨requestOutputs, processed⟩, hprocess, rfl⟩
    exact .inl ⟨rfl, .response (.intro _ _ 0 receiver _ requestOutputs processed hreceiver
      (Except.toOption_eq_some hprocess))⟩

theorem step_of_act (haccepts : input.Accepted accepts) (h : trace.act input = some trace')
    : Step accepts trace trace' := by
  rcases Option.bind_eq_some_iff.mp h with ⟨⟨event, fed⟩, hfeed, h⟩
  rcases calls_or_receives_of_feed haccepts hfeed with ⟨hcalls, hfed⟩ | ⟨hcalls, hfed⟩
  . rw [if_pos hcalls] at h
    rcases Option.map_eq_some_iff.mp h with ⟨engine, hhandle, rfl⟩
    exact .schedule hfed (Except.toOption_eq_some hhandle)
  . rw [if_neg (Bool.not_eq_true _ ▸ hcalls)] at h
    cases h
    refine .wait hfed ?_
    cases input with
    | prompt _ _ _ => exact hcalls
    | token _ => cases hcalls

theorem reachable_of_drive (haccepts : ∀ input ∈ inputs, input.Accepted accepts)
    (h : drive scheduler tokenizer inputs = some trace)
    : Reachable accepts (LlmEngine.new scheduler tokenizer) trace := by
  unfold drive at h
  induction inputs using List.reverseRecOn generalizing trace with
  | nil =>
    cases h
    exact .refl
  | append_singleton inputs input ih =>
    rw [List.foldlM_append] at h
    rcases Option.bind_eq_some_iff.mp h with ⟨between, hbetween, h⟩
    rw [List.foldlM_cons] at h
    rcases Option.bind_eq_some_iff.mp h with ⟨last, hact, h⟩
    cases h
    exact (ih (fun input hinput => haccepts input (List.mem_append_left _ hinput)) hbetween).tail
      (step_of_act (haccepts input (by simp)) hact)

theorem visits_of_stepping {last : Input} (haccepts : ∀ input ∈ inputs, input.Accepted accepts)
    (hlast : last.Accepted accepts) (h : stepping scheduler tokenizer inputs last = some trace)
    : Visits accepts (LlmEngine.new scheduler tokenizer) trace := by
  rcases Option.bind_eq_some_iff.mp h with ⟨between, hdrive, h⟩
  rcases Option.map_eq_some_iff.mp h with ⟨fed, hfed, rfl⟩
  rcases Option.filter_eq_some_iff.mp hfed with ⟨hfeed, hcalls⟩
  rcases calls_or_receives_of_feed hlast hfeed with ⟨-, hfed⟩ | ⟨hnot, -⟩
  . exact .calls (reachable_of_drive haccepts hdrive) hfed
  . rw [hcalls] at hnot
    cases hnot

end Driven

end Trace

end AtomaInfer
