import AtomaInfer.Engine.Agreement
import AtomaInfer.Engine.Draws
import AtomaInfer.Engine.Tables
import AtomaInfer.Scheduler.Ignored

/-!
The clients of the requests that the engine no longer holds have got a last message.
-/

namespace AtomaInfer

open Scheduler

namespace LlmEngine

/--
The streaming client of `requestId`, if there is one, was told that its stream has ended.
-/
def Streamed (engine : LlmEngine) (requestId : String) : Prop :=
  ∀ channel, engine.responseStreamingSenders.lookup requestId = some channel →
    (channel, .streaming .finished) ∈ engine.sent

/--
What was sent before is still sent, and the streaming clients of the sequences that finish from
`engine` to `engine'` are told. `owns` relates these sequences to their requests.
-/
structure Tells (owns : SequenceRef → String → Prop) (engine engine' : LlmEngine) : Prop where
  writes : engine.Writes engine'
  sent : engine.sent ⊆ engine'.sent
  finished : ∀ seq, (engine'.scheduler.memory.sequences seq).isFinished = true →
    (engine.scheduler.memory.sequences seq).isFinished = true
      ∨ ∃ requestId, owns seq requestId ∧ engine'.Streamed requestId

variable {engine engine' engine'' : LlmEngine} {owns owns' : SequenceRef → String → Prop}

theorem Streamed.mono {requestId : String} (h : engine.Streamed requestId)
    (hwrites : engine.Writes engine') (hsent : engine.sent ⊆ engine'.sent)
    : engine'.Streamed requestId := by
  rcases hwrites with ⟨sequences, sent, rfl⟩
  exact fun channel hlookup => hsent (h channel hlookup)

theorem Tells.refl (owns : SequenceRef → String → Prop) (engine : LlmEngine)
    : Tells owns engine engine :=
  ⟨.refl engine, List.Subset.refl _, fun _ => .inl⟩

theorem Tells.trans (h : Tells owns engine engine') (h' : Tells owns engine' engine'')
    : Tells owns engine engine'' := by
  refine ⟨h.writes.trans h'.writes, List.Subset.trans h.sent h'.sent, ?_⟩
  intro seq hfinished
  rcases h'.finished seq hfinished with hbetween | htold
  . rcases h.finished seq hbetween with hbefore | ⟨requestId, howns, hstreamed⟩
    . exact .inl hbefore
    . exact .inr ⟨requestId, howns, hstreamed.mono h'.writes h'.sent⟩
  . exact .inr htold

theorem Tells.mono (h : Tells owns engine engine')
    (hle : ∀ seq requestId, owns seq requestId → owns' seq requestId)
    : Tells owns' engine engine' := by
  refine ⟨h.writes, h.sent, ?_⟩
  intro seq hfinished
  rcases h.finished seq hfinished with hbefore | ⟨requestId, howns, hstreamed⟩
  . exact .inl hbefore
  . exact .inr ⟨requestId, hle seq requestId howns, hstreamed⟩

/--
The steps of a loop tell the clients, and so does the loop.
-/
theorem Tells.foldlM {α : Type} {f : LlmEngine → α → Except EngineError LlmEngine} {xs : List α}
    (hstep : ∀ x ∈ xs, ∀ current next, f current x = .ok next → Tells owns current next)
    (h : xs.foldlM f engine = .ok engine') : Tells owns engine engine' := by
  refine Except.foldlM_invariant (I := Tells owns engine) ?_ h (.refl owns engine)
  intro current next x hx htells hnext
  exact htells.trans (hstep x hx current next hnext)

theorem tells_of_updateSequence {created : Nat} {seq : SequenceRef} {output : SequenceOutput}
    {metadata : SequenceGroupMetadata} {criteria : StoppingCriteriaParameters}
    (h : engine.updateSequence created seq output metadata criteria = .ok engine')
    : Tells (fun other requestId => other = seq ∧ requestId = metadata.requestId) engine engine' := by
  have hfinished := isFinished_of_updateSequence h
  refine ⟨writes_of_updateSequence h, ?_, ?_⟩
  . cases hsample : metadata.doSample with
    | true =>
      rcases updateSequence_eq_ok hsample h with ⟨-, sequence', responses, -, rfl⟩
      exact List.subset_append_left _ _
    | false =>
      rw [updateSequence_of_not_doSample hsample] at h
      cases h
      exact List.Subset.refl _
  . intro other hafter
    by_cases hother : other = seq
    . subst hother
      rcases hfinished.2 hafter with hbefore | ⟨hsample, added, generatedText, hadd, htext, hmet⟩
      . exact .inl hbefore
      . refine .inr ⟨metadata.requestId, ⟨rfl, rfl⟩, ?_⟩
        rcases updateSequence_eq_ok hsample h with ⟨-, sequence', responses, hresult, rfl⟩
        rcases exists_of_sample hresult
          with ⟨added', generatedText', chunk, hadd', htext', -, -, rfl⟩
        cases hadd.symm.trans hadd'
        cases htext.symm.trans htext'
        intro channel hlookup
        have hlookup : engine.responseStreamingSenders.lookup metadata.requestId = some channel :=
          hlookup
        have hfinish : StreamResponse.finished
            ∈ (engine.metConditions generatedText output criteria added).map fun _ =>
              StreamResponse.finished := by
          rcases hmet with ⟨condition, hcondition, htrue⟩
          exact List.mem_map.mpr ⟨condition, List.mem_filter.mpr ⟨hcondition, htrue⟩, rfl⟩
        apply List.mem_append_right
        unfold messages
        rw [hlookup]
        exact List.mem_map.mpr ⟨_, List.mem_cons_of_mem _ hfinish, rfl⟩
    . rw [hfinished.1 other hother] at hafter
      exact .inl hafter

theorem tells_of_updateNumComputedTokens {group : SequenceGroup} {numNewComputedTokens : Nat}
    (h : engine.updateNumComputedTokens group numNewComputedTokens = .ok engine')
    : Tells owns engine engine' := by
  have hwrites := writes_of_updateNumComputedTokens h
  unfold updateNumComputedTokens at h
  split at h
  . next hrun =>
    cases h
    refine ⟨hwrites, List.Subset.refl _, fun seq hafter => .inl ?_⟩
    rcases (recount_of_forM hrun seq).1 with ⟨numComputedTokens, stage, hrecount⟩
    dsimp only at hafter
    rw [hrecount] at hafter
    exact hafter
  . cases h

theorem tells_of_processOutput {created : SequenceRef → Nat} {entry : Entry}
    (h : engine.processOutput created entry.1 entry.2.1 entry.2.2 = .ok engine')
    : Tells (fun seq requestId => seq ∈ entry.2.2.scheduledGroup.sequences
        ∧ requestId = entry.2.1.requestId) engine engine' := by
  rcases Except.bind_eq_ok.mp h with ⟨counted, hcount, hfold⟩
  refine (tells_of_updateNumComputedTokens hcount).trans (Tells.foldlM ?_ hfold)
  intro seq hseq current next hnext
  split at hnext
  . cases hnext
  . refine (tells_of_updateSequence hnext).mono ?_
    rintro other requestId ⟨rfl, rfl⟩
    exact ⟨hseq, rfl⟩

/--
The streaming clients of the sequences that a batch finishes are told.
-/
theorem tells_of_batch {created : SequenceRef → Nat} {entries : List Entry}
    (h : entries.foldlM
      (fun engine (output, metadata, scheduled) =>
        processOutput engine created output metadata scheduled) engine = .ok engine')
    : Tells (fun seq requestId => ∃ entry ∈ entries, seq ∈ entry.2.2.scheduledGroup.sequences
        ∧ requestId = entry.2.1.requestId) engine engine' := by
  refine Tells.foldlM ?_ h
  intro entry hentry current next hnext
  exact (tells_of_processOutput hnext).mono fun _ _ howns => ⟨entry, hentry, howns⟩

section Requests

/--
The sender of the request is in the map of its kind.
-/
def Registered (engine : LlmEngine) (request : EngineRequest) : Prop :=
  match request with
  | .generateRequest group responseSender =>
    engine.responseSenders.lookup group.requestId = some responseSender
  | .generateStreamingRequest group responseSender =>
    engine.responseStreamingSenders.lookup group.requestId = some responseSender

/--
A terminal message was sent on the channel of the request: its output, or the end of its stream or an
error.
-/
def Answered (engine : LlmEngine) (request : EngineRequest) : Prop :=
  match request with
  | .generateRequest group responseSender =>
    ∃ output, (responseSender, .response output) ∈ engine.sent
      ∧ output.requestId = group.requestId
  | .generateStreamingRequest _ responseSender =>
    (responseSender, .streaming .finished) ∈ engine.sent
      ∨ ∃ message, (responseSender, .streaming (.error message)) ∈ engine.sent

variable {request : EngineRequest}

theorem Answered.mono (h : engine.Answered request) (hsent : engine.sent ⊆ engine'.sent)
    : engine'.Answered request := by
  cases request with
  | generateRequest group responseSender =>
    rcases h with ⟨output, hmem, hid⟩
    exact ⟨output, hsent hmem, hid⟩
  | generateStreamingRequest group responseSender =>
    rcases h with hfinished | ⟨message, herror⟩
    . exact .inl (hsent hfinished)
    . exact .inr ⟨message, hsent herror⟩

theorem Registered.of_eq (h : engine.Registered request)
    (hsenders : engine'.responseSenders = engine.responseSenders)
    (hstreaming : engine'.responseStreamingSenders = engine.responseStreamingSenders)
    : engine'.Registered request := by
  unfold Registered at h ⊢
  rwa [hsenders, hstreaming]

/--
A waiting client gets the output of its request, if there is one.
-/
theorem answers_of_sendResponses {outputs : List GenerateRequestOutput}
    (h : outputs.foldlM (fun engine output => sendResponse engine output) engine = .ok engine')
    : engine.sent ⊆ engine'.sent
        ∧ ∀ requestId channel, engine.responseSenders.lookup requestId = some channel →
          (∃ output, (channel, .response output) ∈ engine'.sent ∧ output.requestId = requestId)
            ∨ engine'.responseSenders.lookup requestId = some channel
              ∧ ∀ output ∈ outputs, output.requestId ≠ requestId := by
  induction outputs generalizing engine with
  | nil =>
    cases h
    exact ⟨List.Subset.refl _, fun _ _ hlookup => .inr ⟨hlookup, fun _ hmem => (nomatch hmem)⟩⟩
  | cons output outputs ih =>
    rw [List.foldlM_cons] at h
    rcases Except.bind_eq_ok.mp h with ⟨next, hnext, h⟩
    rcases ih h with ⟨hsent, hanswers⟩
    unfold sendResponse at hnext
    split at hnext
    . next hnone =>
      cases hnext
      refine ⟨hsent, fun requestId channel hlookup => ?_⟩
      rcases hanswers requestId channel hlookup with hanswered | ⟨hlookup', hother⟩
      . exact .inl hanswered
      . refine .inr ⟨hlookup', fun output' houtput' => ?_⟩
        rcases List.mem_cons.mp houtput' with rfl | houtput'
        . rintro rfl
          cases hnone.symm.trans hlookup
        . exact hother output' houtput'
    . next channel' hsome =>
      split at hnext
      . cases hnext
      . cases hnext
        refine ⟨List.Subset.trans (List.subset_append_left _ _) hsent,
          fun requestId channel hlookup => ?_⟩
        by_cases hid : output.requestId = requestId
        . subst hid
          cases hsome.symm.trans hlookup
          exact .inl ⟨output, hsent (List.mem_append_right _ (List.mem_singleton_self _)), rfl⟩
        . have hkept : (engine.responseSenders.erase output.requestId).lookup requestId
              = some channel := by
            rw [AList.lookup_erase_ne (Ne.symm hid)]
            exact hlookup
          rcases hanswers requestId channel hkept with hanswered | ⟨hlookup', hother⟩
          . exact .inl hanswered
          . refine .inr ⟨hlookup', fun output' houtput' => ?_⟩
            rcases List.mem_cons.mp houtput' with rfl | houtput'
            . exact hid
            . exact hother output' houtput'

end Requests

/--
The requests that arrive at the event.
-/
def Event.requests (event : Event) : List EngineRequest :=
  match event with
  | .request _ _ engineRequest => [engineRequest]
  | .response _ _ _ _ => []
  | .disconnect _ => []

/--
The call of `step` at the event leaves every group in a queue.
-/
def KeepsRequests (engine : LlmEngine) (event : Event) : Prop :=
  ∀ called instants, engine.CallsStep event called → event.instants = some instants →
    called.scheduler.KeepsRequests instants

end LlmEngine

/--
A running group that the batch finishes is in the batch, and its client is told if it streams.
-/
theorem Trace.exists_scheduled_of_isFinished {trace : Trace} {session : Session}
    (hsimulates : trace.Simulates session) (hinv : session.Inv)
    (hpending : session.pending
      = some (trace.engine.sequenceGroupsMetadata, trace.engine.schedulerOutputs))
    (hbatch : trace.BatchArrived) {group : SequenceGroup} (harrived : group ∈ trace.arrived)
    (hruns : group ∈ trace.engine.scheduler.running) {index : Nat} {created : SequenceRef → Nat}
    {outputs : List SequenceGroupOutput} {updated : LlmEngine}
    (hfold : ((trace.engine.takeResponse index).batch outputs).foldlM
      (fun engine (output, metadata, scheduled) =>
        engine.processOutput created output metadata scheduled) (trace.engine.takeResponse index)
      = .ok updated)
    (hfinished : group.isFinished updated.scheduler.memory.sequences = true)
    : ∃ scheduled ∈ trace.engine.schedulerOutputs.scheduledSequenceGroups,
        scheduled.scheduledGroup = group ∧ updated.Streamed group.requestId := by
  have hdescribes := hinv.describes _ _ hpending
  have hrunning := hinv.ok.running
  have hrefs : (trace.arrived.flatMap (·.sequences)).Nodup := by
    rw [← hsimulates.arrived_eq]
    exact hinv.ok.sound.nodup.of_map
  rw [hsimulates.scheduler_eq] at hdescribes hrunning
  rcases hrunning group hruns with ⟨seq, hsingle, hstatus⟩
  have hstatus : (trace.engine.scheduler.memory.sequences seq).sequenceStatus = .running := hstatus
  have hfinished : (updated.scheduler.memory.sequences seq).isFinished = true :=
    List.all_eq_true.mp hfinished seq (by simp [hsingle])
  rcases (LlmEngine.tells_of_batch hfold).finished seq hfinished
    with hbefore | ⟨requestId, ⟨entry, hentry, hseq, rfl⟩, hstreamed⟩
  . change (trace.engine.scheduler.memory.sequences seq).isFinished = true at hbefore
    simp [Sequence.isFinished, hstatus, SequenceStatus.isFinished] at hbefore
  . have hmem := mem_zip_of_entry hentry
    rcases (List.forall₂_iff_zip.mp hdescribes).2 hmem with ⟨seq', -, blockTable, hdescribes⟩
    have hscheduled := (List.of_mem_zip hmem).1
    have hgroup : entry.2.2.scheduledGroup = group :=
      List.eq_of_nodup_flatMap hrefs (hbatch entry.2.2 hscheduled) harrived hseq (by simp [hsingle])
    refine ⟨entry.2.2, hscheduled, hgroup, ?_⟩
    rw [← hgroup, ← hdescribes.requestId_eq]
    exact hstreamed

/--
A run of the engine, and the requests that it has received.
-/
structure Ledger where
  trace : Trace
  requests : List EngineRequest

namespace Ledger

open Execution (sampledOutputs sampledEvent)

def start (engine : LlmEngine) : Ledger where
  trace := Trace.start engine
  requests := []

/--
The steps of `Trace.FaultyStep`, with the requests that arrive.
-/
inductive Step (accepts : Session.Accepts) (P : LlmEngine → LlmEngine.Event → Prop)
    (ledger : Ledger) : Ledger → Prop where
  | wait {instants : Instants} {event : LlmEngine.Event} {received : Trace}
      (h : ledger.trace.Receives accepts instants event received)
      (hbusy : received.engine.isIdle = false)
    : Step accepts P ledger ⟨received, ledger.requests ++ event.requests⟩
  | schedule {instants : Instants} {event : LlmEngine.Event} {called : Trace} {engine : LlmEngine}
      (h : ledger.trace.FaultyCalls accepts instants event called)
      (hP : P ledger.trace.engine event) (hhandle : ledger.trace.engine.handle event = .ok engine)
    : Step accepts P ledger {
        trace := {
          called with
          engine
          sampled := Trace.reset called.sampled (called.engine.scheduler.recomputed instants) }
        requests := ledger.requests ++ event.requests }
  | disconnect (channel : Channel)
    : Step accepts P ledger {
        ledger with
        trace := {
          ledger.trace with
          engine.disconnected := channel :: ledger.trace.engine.disconnected } }

def Reachable (accepts : Session.Accepts) (P : LlmEngine → LlmEngine.Event → Prop)
    (engine : LlmEngine) (ledger : Ledger) : Prop :=
  Relation.ReflTransGen (Step accepts P) (start engine) ledger

variable {accepts : Session.Accepts} {P : LlmEngine → LlmEngine.Event → Prop}
variable {ledger ledger' : Ledger} {session : Session} {instants : Instants}
variable {event : LlmEngine.Event} {called : Trace} {engine : LlmEngine}

theorem Step.faultyStep (h : Step accepts P ledger ledger')
    : Trace.FaultyStep accepts P ledger.trace ledger'.trace := by
  cases h with
  | wait hreceives hbusy => exact .wait hreceives hbusy
  | schedule hcalls hP hhandle => exact .schedule hcalls hP hhandle
  | disconnect channel => exact .disconnect channel

/--
A group with a new request identifier.
-/
def distinctIds : Session.Accepts :=
  fun arrived group _ => ∀ other ∈ arrived, other.requestId ≠ group.requestId

/--
The request is in a queue and its sender is known.
-/
structure Open (engine : LlmEngine) (request : EngineRequest) : Prop where
  held : request.sequenceGroup ∈ engine.scheduler.config.held
  registered : engine.Registered request

/--
The output of the request is about to be sent.
-/
inductive Due (engine : LlmEngine) (requestOutputs : List GenerateRequestOutput)
    : EngineRequest → Prop where
  | intro (group : SequenceGroup) (responseSender : Channel) (output : GenerateRequestOutput)
      (hlookup : engine.responseSenders.lookup group.requestId = some responseSender)
      (houtput : output ∈ requestOutputs) (hid : output.requestId = group.requestId)
    : Due engine requestOutputs (.generateRequest group responseSender)

/--
What holds in every state of a run: each request was answered or is open.
-/
structure Filed (ledger : Ledger) : Prop where
  arrived_eq : ledger.trace.arrived = ledger.requests.map (·.sequenceGroup)
  batch : ledger.trace.BatchArrived
  held : ∀ group ∈ ledger.trace.engine.scheduler.config.held, group ∈ ledger.trace.arrived
  status : ∀ request ∈ ledger.requests,
    ledger.trace.engine.Answered request ∨ Open ledger.trace.engine request

/--
The same when `step` is called, with the outputs that are sent afterwards.
-/
structure Files (ledger : Ledger) (called : Trace) (requests : List EngineRequest)
    (requestOutputs : List GenerateRequestOutput) : Prop where
  arrived_eq : called.arrived = (ledger.requests ++ requests).map (·.sequenceGroup)
  held : ∀ group ∈ called.engine.scheduler.config.held, group ∈ called.arrived
  status : ∀ request ∈ ledger.requests ++ requests,
    called.engine.Answered request ∨ Open called.engine request
      ∨ Due called.engine requestOutputs request

theorem Filed.receives {received : Trace} (h : ledger.Filed)
    (hreceives : ledger.trace.Receives distinctIds instants event received)
    : ledger.Files received event.requests []
        ∧ ∀ scheduled ∈ received.engine.schedulerOutputs.scheduledSequenceGroups,
            scheduled ∈ ledger.trace.engine.schedulerOutputs.scheduledSequenceGroups := by
  cases hreceives with
  | intro request seq sequence prompt promptTokenIds returnFullText hgroup hfresh hnew haccepts =>
    have hheld : ∀ group, group ∈ ((ledger.trace.engine.createSequences request.sequenceGroup
        [sequence]).addRequest request).scheduler.config.held
          ↔ group ∈ ledger.trace.engine.scheduler.config.held ∨ group = request.sequenceGroup := by
      intro group
      cases request <;>
        simp [LlmEngine.addRequest, LlmEngine.createSequences, addSequenceGroup, Config.held,
          Scheduler.config, EngineRequest.sequenceGroup] <;>
        tauto
    refine ⟨⟨?_, ?_, ?_⟩, ?_⟩
    . simp [LlmEngine.Event.requests, h.arrived_eq]
    . intro group hmem
      rcases (hheld group).mp hmem with hold | rfl
      . exact List.mem_append_left _ (h.held group hold)
      . exact List.mem_append_right _ (List.mem_singleton_self _)
    . intro other hother
      rcases List.mem_append.mp hother with hold | hnewest
      . have harrived : other.sequenceGroup ∈ ledger.trace.arrived := by
          rw [h.arrived_eq]
          exact List.mem_map_of_mem hold
        have hne := haccepts other.sequenceGroup harrived
        rcases h.status other hold with hanswered | hopen
        . refine .inl (hanswered.mono ?_)
          cases request <;> exact List.Subset.refl _
        . refine .inr (.inl ⟨(hheld _).mpr (.inl hopen.held), ?_⟩)
          have hregistered := hopen.registered
          cases request <;> cases other <;>
            simp only [LlmEngine.Registered, LlmEngine.addRequest, LlmEngine.createSequences,
              EngineRequest.sequenceGroup] at hregistered hne ⊢
          . rw [AList.lookup_insert_ne hne]
            exact hregistered
          . exact hregistered
          . exact hregistered
          . rw [AList.lookup_insert_ne hne]
            exact hregistered
      . rw [LlmEngine.Event.requests, List.mem_singleton] at hnewest
        subst hnewest
        refine .inr (.inl ⟨(hheld _).mpr (.inr rfl), ?_⟩)
        cases other <;>
          simp [LlmEngine.Registered, LlmEngine.addRequest, LlmEngine.createSequences]
    . intro scheduled hscheduled
      cases request <;> exact hscheduled

theorem Filed.processes (h : ledger.Filed)
    (hprocesses : ledger.trace.Processes instants event called)
    (hsimulates : ledger.trace.Simulates session) (hinv : session.Inv)
    (hhandle : ledger.trace.engine.handle event = .ok engine)
    : ∃ requestOutputs stepped,
        ledger.Files called event.requests requestOutputs
          ∧ called.engine.step instants = .ok stepped
          ∧ requestOutputs.foldlM (fun engine output => engine.sendResponse output) stepped
              = .ok engine := by
  cases hprocesses with
  | intro created index receiver next requestOutputs processed hreceiver hprocess =>
    have hpending := hsimulates.pending_of_getElem? hreceiver
    rw [LlmEngine.handle_response hreceiver] at hhandle
    rcases Except.bind_eq_ok.mp hhandle with ⟨result, hprocess', hhandle⟩
    cases hprocess.symm.trans hprocess'
    rcases Except.bind_eq_ok.mp hhandle with ⟨stepped, hstepped, hsend⟩
    refine ⟨requestOutputs, stepped, ?_, hstepped, hsend⟩
    rcases LlmEngine.processGeneratedOutputs_eq_ok hprocess
      with ⟨updated, hfold, hwrites, rfl, houtputs⟩
    have htells := LlmEngine.tells_of_batch hfold
    have hsent := htells.sent
    rcases hwrites with ⟨sequences, sent, rfl⟩
    have hheld : ∀ group ∈ ledger.trace.engine.scheduler.config.held,
        group ∈ ({ ledger.trace.engine.scheduler with
            memory.sequences := sequences } : Scheduler).removeFinishedSequences.config.held
          ∨ group ∈ ledger.trace.engine.scheduler.running ∧ group.isFinished sequences = true := by
      intro group hgroup
      cases hfinished : group.isFinished sequences <;>
        simp only [Config.held, Scheduler.config, removeFinishedSequences, Multiset.mem_add,
          Multiset.mem_coe, List.mem_filter, hfinished] at hgroup ⊢ <;>
        tauto
    refine ⟨?_, ?_, ?_⟩
    . rw [LlmEngine.Event.requests, List.append_nil]
      exact h.arrived_eq
    . intro group hgroup
      apply h.held
      simp only [LlmEngine.takeResponse, Config.held, Scheduler.config, removeFinishedSequences,
        Multiset.mem_add, Multiset.mem_coe, List.mem_filter] at hgroup ⊢
      tauto
    . intro request hrequest
      rw [LlmEngine.Event.requests, List.append_nil] at hrequest
      rcases h.status request hrequest with hanswered | ⟨hmem, hregistered⟩
      . exact .inl (hanswered.mono hsent)
      . rcases hheld _ hmem with hkept | ⟨hruns, hfinished⟩
        . exact .inr (.inl ⟨hkept, hregistered.of_eq rfl rfl⟩)
        . have harrived : request.sequenceGroup ∈ ledger.trace.arrived := h.held _ hmem
          rcases Trace.exists_scheduled_of_isFinished hsimulates hinv hpending h.batch harrived hruns
            hfold hfinished with ⟨scheduled, hscheduled, hgroup, hstreamed⟩
          cases request with
          | generateStreamingRequest group responseSender =>
            exact .inl (.inl (hstreamed responseSender hregistered))
          | generateRequest group responseSender =>
            have hfilter : scheduled ∈
                ledger.trace.engine.schedulerOutputs.scheduledSequenceGroups.filter
                  fun scheduled => scheduled.scheduledGroup.isFinished sequences := by
              rw [List.mem_filter, hgroup]
              exact ⟨hscheduled, hfinished⟩
            rcases (Except.forall₂_of_mapM houtputs).exists_of_mem hfilter
              with ⟨output, houtput, houtputs⟩
            rcases Except.bind_eq_ok.mp houtputs with ⟨_, -, hpure⟩
            cases hpure
            refine .inr (.inr (.intro group responseSender _ hregistered houtput ?_))
            exact congrArg SequenceGroup.requestId hgroup

theorem Filed.calls (h : ledger.Filed)
    (hcalls : ledger.trace.FaultyCalls distinctIds instants event called)
    (hsimulates : ledger.trace.Simulates session) (hinv : session.Inv)
    (hhandle : ledger.trace.engine.handle event = .ok engine)
    : ∃ requestOutputs stepped,
        ledger.Files called event.requests requestOutputs
          ∧ called.engine.step instants = .ok stepped
          ∧ requestOutputs.foldlM (fun engine output => engine.sendResponse output) stepped
              = .ok engine := by
  cases hcalls with
  | call hcalls =>
    cases hcalls with
    | request hreceives hidle =>
      rw [hreceives.handle_eq, if_pos hidle] at hhandle
      exact ⟨[], engine, (h.receives hreceives).1, hhandle, rfl⟩
    | response hprocesses => exact h.processes hprocesses hsimulates hinv hhandle
  | fail hfails =>
    rw [hfails.handle_eq] at hhandle
    refine ⟨[], engine, ?_, hhandle, rfl⟩
    cases hfails with
    | intro created index receiver hreceiver =>
      refine ⟨?_, h.held, ?_⟩
      . rw [LlmEngine.Event.requests, List.append_nil]
        exact h.arrived_eq
      . intro request hrequest
        rw [LlmEngine.Event.requests, List.append_nil] at hrequest
        rcases h.status request hrequest with hanswered | ⟨hheld, hregistered⟩
        . exact .inl (hanswered.mono (List.Subset.refl _))
        . exact .inr (.inl ⟨hheld, hregistered.of_eq rfl rfl⟩)

/--
A call of `step` that leaves every group in a queue, and what is sent after it.
-/
theorem Files.filed {requests : List EngineRequest} {requestOutputs : List GenerateRequestOutput}
    {stepped : LlmEngine} {sampled : SequenceRef → Bool}
    (h : ledger.Files called requests requestOutputs) (hbetween : called.Between session)
    (hinv : session.Inv) (hkeeps : called.engine.scheduler.KeepsRequests instants)
    (hstep : called.engine.step instants = .ok stepped)
    (hsend : requestOutputs.foldlM (fun engine output => engine.sendResponse output) stepped
      = .ok engine)
    : Filed {
        trace := { called with engine, sampled }
        requests := ledger.requests ++ requests } := by
  rcases LlmEngine.step_eq_ok hstep
    with ⟨metadata, outputs, scheduler, hschedule, -, houtputs, -, hstepped⟩
  rcases LlmEngine.answers_of_sendResponses hsend with ⟨hsent, hanswers⟩
  rcases LlmEngine.sendResponses_keeps hsend with ⟨responseSenders, sent, hengine⟩
  have hreschedules := hinv.reschedules (hbetween.scheduler_eq ▸ hschedule)
  rw [hbetween.scheduler_eq] at hreschedules
  have hheld : scheduler.config.held = called.engine.scheduler.config.held := by
    rcases schedule_eq_ok hschedule with ⟨passed, hpolicy, ⟨manager, rfl, blocks, rfl, -⟩, -⟩
    have hok := hinv.ok.of_scheduled_eq_zero rfl
      session.scheduler.schedulerConfig.enableChunkedPrefill
    rw [hbetween.scheduler_eq] at hok
    exact (held_eq_iff_keepsRequests hpolicy hok).mpr hkeeps
  have hsenders : stepped.responseSenders = called.engine.responseSenders := by rw [hstepped]
  have hstreaming : stepped.responseStreamingSenders = called.engine.responseStreamingSenders := by
    rw [hstepped]
  have hcalled : called.engine.sent ⊆ engine.sent := by
    have hsame : stepped.sent = called.engine.sent := by rw [hstepped]
    rw [← hsame]
    exact hsent
  have hscheduler : engine.scheduler = scheduler := by rw [hengine, hstepped]
  have hbatch : engine.schedulerOutputs = outputs := by
    rw [hengine]
    exact houtputs
  refine ⟨h.arrived_eq, ?_, ?_, ?_⟩
  . intro scheduled hscheduled
    dsimp only at hscheduled
    rw [hbatch] at hscheduled
    exact h.held _ (hreschedules.groups scheduled hscheduled)
  . intro group hgroup
    dsimp only at hgroup
    rw [hscheduler, hheld] at hgroup
    exact h.held group hgroup
  . intro request hrequest
    dsimp only at hrequest ⊢
    rcases h.status request hrequest with hanswered | ⟨hmem, hregistered⟩ | hdue
    . exact .inl (hanswered.mono hcalled)
    . have hmem : request.sequenceGroup ∈ engine.scheduler.config.held := by
        rw [hscheduler, hheld]
        exact hmem
      cases request with
      | generateStreamingRequest group responseSender =>
        have hkept : engine.responseStreamingSenders = called.engine.responseStreamingSenders := by
          rw [hengine]
          exact hstreaming
        refine .inr ⟨hmem, ?_⟩
        unfold LlmEngine.Registered
        rw [hkept]
        exact hregistered
      | generateRequest group responseSender =>
        have hlookup : stepped.responseSenders.lookup group.requestId = some responseSender := by
          rw [hsenders]
          exact hregistered
        rcases hanswers group.requestId responseSender hlookup with hanswered | ⟨hlookup, -⟩
        . exact .inl hanswered
        . exact .inr ⟨hmem, hlookup⟩
    . cases hdue with
      | intro group responseSender output hlookup houtput hid =>
        rw [← hsenders] at hlookup
        rcases hanswers group.requestId responseSender hlookup with hanswered | ⟨-, hother⟩
        . exact .inl hanswered
        . exact absurd hid (hother output houtput)

theorem Step.filed (hstep : Step distinctIds LlmEngine.KeepsRequests ledger ledger')
    (h : ledger.Filed) (hsimulates : ledger.trace.Simulates session) (hinv : session.Inv)
    : ledger'.Filed := by
  cases hstep with
  | wait hreceives hbusy =>
    rcases h.receives hreceives with ⟨hfiles, hbatch⟩
    refine ⟨hfiles.arrived_eq, ?_, hfiles.held, ?_⟩
    . intro scheduled hscheduled
      have harrived := h.batch scheduled (hbatch scheduled hscheduled)
      cases hreceives with
      | intro => exact List.mem_append_left _ harrived
    . intro request hrequest
      rcases hfiles.status request hrequest with hanswered | hopen | hdue
      . exact .inl hanswered
      . exact .inr hopen
      . cases hdue with
        | intro group responseSender output hlookup houtput => cases houtput
  | schedule hcalls hkeeps hhandle =>
    rcases hcalls.callsStep with ⟨hcallsStep, hinstants⟩
    rcases h.calls hcalls hsimulates hinv hhandle
      with ⟨requestOutputs, stepped, hfiles, hstep, hsend⟩
    rcases hcalls.exists_between hsimulates hinv with ⟨between, hsteps, hbetween, -⟩
    exact hfiles.filed hbetween (hsteps.inv hinv) (hkeeps _ _ hcallsStep hinstants) hstep hsend
  | disconnect channel =>
    refine ⟨h.arrived_eq, h.batch, h.held, ?_⟩
    intro request hrequest
    rcases h.status request hrequest with hanswered | ⟨hheld, hregistered⟩
    . exact .inl (hanswered.mono (List.Subset.refl _))
    . exact .inr ⟨hheld, hregistered.of_eq rfl rfl⟩

theorem filed_of_reachable {scheduler : Scheduler} {tokenizer : List Nat → Except String String}
    (hinv : (Session.start scheduler).Inv) (hheld : scheduler.config.held = 0)
    (h : Reachable distinctIds LlmEngine.KeepsRequests (LlmEngine.new scheduler tokenizer) ledger)
    : ledger.Filed ∧ ∃ session, (Session.start scheduler).FaultySteps distinctIds session
        ∧ ledger.trace.Simulates session := by
  induction h with
  | refl =>
    refine ⟨⟨rfl, ?_, ?_, ?_⟩, _, .refl, rfl, rfl, .inr ⟨rfl, rfl⟩, rfl, List.nodup_nil⟩
    . exact fun _ hscheduled => (nomatch hscheduled)
    . intro group hgroup
      change group ∈ scheduler.config.held at hgroup
      rw [hheld] at hgroup
      exact absurd hgroup (Multiset.notMem_zero group)
    . exact fun _ hrequest => (nomatch hrequest)
  | tail _ hstep ih =>
    rcases ih with ⟨hfiled, session, hsteps, hsimulates⟩
    have hinv := hsteps.inv hinv
    rcases hstep.faultyStep.simulates hsimulates hinv with ⟨session', hsteps', hsimulates'⟩
    exact ⟨hstep.filed hfiled hsimulates hinv, session', hsteps.trans hsteps', hsimulates'⟩

/--
As long as every call of `step` leaves every group in a queue, the clients of the requests that are
in no queue have got a terminal message.
-/
theorem answered_of_keepsRequests (config : SchedulerConfig)
    (blockSize numCpuBlocks numGpuBlocks : Nat) (slidingWindow : Option Nat) (heap : SequenceHeap)
    (now : Nat) (tokenizer : List Nat → Except String String)
    (h : Reachable distinctIds LlmEngine.KeepsRequests (LlmEngine.new
      (Scheduler.new config blockSize numCpuBlocks numGpuBlocks slidingWindow heap now) tokenizer)
      ledger)
    {request : EngineRequest} (hrequest : request ∈ ledger.requests)
    (hleft : request.sequenceGroup ∉ ledger.trace.engine.scheduler.groups)
    : ledger.trace.engine.Answered request := by
  have hstart := Session.inv_start config blockSize numCpuBlocks numGpuBlocks slidingWindow heap now
  rcases (filed_of_reachable hstart rfl h).1.status request hrequest with hanswered | hopen
  . exact hanswered
  . have hheld := hopen.held
    simp only [Config.held, Scheduler.config, Multiset.map_zero, add_zero, Multiset.coe_add,
      Multiset.mem_coe] at hheld
    exact absurd hheld hleft

/--
The first token finishes the request, and its output is sent.
-/
theorem answered_of_keepsRequests_one_token
    : ∃ ledger,
        Reachable distinctIds LlmEngine.KeepsRequests (Trace.idle ⟨2, 2, 1, 0, false⟩) ledger
          ∧ ledger.requests = [.generateRequest (singleGroup "a" 0 0) 0]
          ∧ ledger.trace.engine.scheduler.groups = []
          ∧ ledger.trace.engine.Answered (.generateRequest (singleGroup "a" 0 0) 0) := by
  have hrun : ((Trace.idle ⟨2, 2, 1, 0, false⟩).handle Trace.firstRequest).toOption.any
      (fun engine => engine.responses[0]?.any fun receiver =>
        ((engine.takeResponse 0).processGeneratedOutputs (fun _ => 4)
            (sampledOutputs receiver)).toOption.any (fun result =>
              result.2.scheduler.schedulerConfig.enableChunkedPrefill = false
                ∧ result.2.scheduler.swapped = []
                ∧ ∀ vars ∈ (prefillLoop false fun _ => 4).states (PrefillVars.start
                    result.2.scheduler result.2.scheduler.waiting
                    (result.2.scheduler.includeRunning result.2.scheduler.newBudget)),
                  ¬ vars.Ignores false fun _ => 4)
          && (engine.handle (sampledEvent receiver)).toOption.any fun engine =>
              engine.scheduler.groups = []) = true := by
    decide +kernel
  have hnew : Sequence.new "" [5] 1 false = .ok (waitingSequence [5]) := by decide +kernel
  rcases Except.exists_eq_ok_of_any hrun with ⟨scheduled, hscheduled, hrun⟩
  rw [Option.any_eq_true] at hrun
  rcases hrun with ⟨receiver, hreceiver, hrun⟩
  rw [Bool.and_eq_true] at hrun
  rcases Except.exists_eq_ok_of_any hrun.1 with ⟨⟨requestOutputs, processed⟩, hprocess, hkeeps⟩
  rcases Except.exists_eq_ok_of_any hrun.2 with ⟨engine, hengine, hnone⟩
  rw [decide_eq_true_eq] at hkeeps hnone
  have hfirst : (Trace.idle ⟨2, 2, 1, 0, false⟩).KeepsRequests Trace.firstRequest := by
    intro called instants hcalls hinstants
    cases hcalls with
    | request _ _ _ _ =>
      cases hinstants
      exact keepsRequests_of_default rfl rfl (by decide +kernel)
  have hsecond : scheduled.KeepsRequests (sampledEvent receiver) := by
    intro called instants hcalls hinstants
    cases hcalls with
    | outputs _ _ _ _ _ _ _ _ hprocess' =>
      cases hinstants
      cases hprocess.symm.trans hprocess'
      exact keepsRequests_of_default hkeeps.1 hkeeps.2.1 hkeeps.2.2
  have hreach : Reachable distinctIds LlmEngine.KeepsRequests (Trace.idle ⟨2, 2, 1, 0, false⟩) _ :=
    .tail (.single (.schedule (.call (.request (.intro ⟨2, 2, fun _ => 2, 2⟩
      (.generateRequest (singleGroup "a" 0 0) 0) ⟨0, 0⟩ (waitingSequence [5]) "" [5] false rfl
      (fun _ hgroup => (nomatch hgroup)) hnew fun _ hother => (nomatch hother)) rfl)) hfirst
      hscheduled)) (.schedule (.call (.response (.intro _ _ 0 receiver _ requestOutputs processed
      hreceiver hprocess))) hsecond hengine)
  refine ⟨_, hreach, rfl, hnone, answered_of_keepsRequests ⟨2, 2, 1, 0, false⟩ 1 4 4 none
    (fun _ => waitingSequence []) 0 (fun _ => .ok "") hreach (List.mem_singleton_self _) ?_⟩
  dsimp only
  rw [hnone]
  exact List.not_mem_nil

/--
The prompt has two tokens, and the model allows one. The request is ignored, and its client hears
nothing.
-/
theorem not_answered_long_prompt
    : ∃ ledger,
        Reachable distinctIds (fun _ _ => True) (Trace.idle ⟨1, 1, 1, 0, false⟩) ledger
          ∧ ledger.requests = [.generateRequest (singleGroup "a" 0 0) 0]
          ∧ ledger.trace.engine.scheduler.groups = []
          ∧ ledger.trace.engine.responses.length = 0
          ∧ ledger.trace.engine.sent = []
          ∧ ¬ ledger.trace.engine.Answered (.generateRequest (singleGroup "a" 0 0) 0) := by
  have hrun : ((Trace.idle ⟨1, 1, 1, 0, false⟩).handle (.request ⟨2, 2, fun _ => 2, 2⟩
      [waitingSequence [5, 6]] (.generateRequest (singleGroup "a" 0 0) 0))).toOption.any
        (fun engine => engine.scheduler.groups = [] ∧ engine.responses.length = 0
          ∧ engine.sent = []) = true := by
    decide +kernel
  have hnew : Sequence.new "" [5, 6] 1 false = .ok (waitingSequence [5, 6]) := by decide +kernel
  rcases Except.exists_eq_ok_of_any hrun with ⟨engine, hengine, hvalues⟩
  rw [decide_eq_true_eq] at hvalues
  refine ⟨_, .single (.schedule (.call (.request (.intro ⟨2, 2, fun _ => 2, 2⟩
    (.generateRequest (singleGroup "a" 0 0) 0) ⟨0, 0⟩ (waitingSequence [5, 6]) "" [5, 6] false rfl ?_
    hnew ?_) rfl)) trivial hengine), rfl, hvalues.1, hvalues.2.1, hvalues.2.2, ?_⟩
  . intro group hgroup
    cases hgroup
  . intro other hother
    cases hother
  . rintro ⟨output, hmem, -⟩
    dsimp only at hmem
    rw [hvalues.2.2] at hmem
    cases hmem

end Ledger

end AtomaInfer
