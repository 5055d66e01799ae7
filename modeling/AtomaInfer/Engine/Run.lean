import AtomaInfer.Engine.Update
import AtomaInfer.Scheduler.Conservation

/-!
Runs of the engine: the branches of the `select!` of `LlmEngine::run`, in any order. A run stops
when a branch returns an error.
-/

namespace AtomaInfer

namespace LlmEngine

/--
A request arrives with its new sequences, the model executor answers one of the requests that are in
flight, or a client drops the receiving side of its channel.
-/
inductive Event where
  | request (instants : Instants) (sequences : List Sequence) (request : EngineRequest)
  | response (instants : Instants) (created : SequenceRef → Nat) (index : Nat)
      (outputs : Option (List SequenceGroupOutput))
  | disconnect (channel : Channel)

/--
The instants at which the engine schedules, if it does so at the event.
-/
def Event.instants (event : Event) : Option Instants :=
  match event with
  | .request instants _ _ => some instants
  | .response instants _ _ _ => some instants
  | .disconnect _ => none

variable (engine : LlmEngine)

/--
The sequences of a group, which the service has created.
-/
def createSequences (group : SequenceGroup) (sequences : List Sequence) : LlmEngine :=
  {
    engine with
    scheduler.memory.sequences := (group.sequences.zip sequences).foldl
      (fun heap (seq, sequence) => Function.update heap seq sequence)
      engine.scheduler.memory.sequences
  }

/--
The receiver at `index` has its response.
-/
def takeResponse (index : Nat) : LlmEngine :=
  { engine with responses := engine.responses.eraseIdx index }

/--
What the engine does at an event. There is no response at an `index` without a receiver.
-/
def handle (event : Event) : Except EngineError LlmEngine :=
  match event with
  | .request instants sequences request =>
    (engine.createSequences request.sequenceGroup sequences).handleRequest instants request
  | .response instants created index outputs =>
    match engine.responses[index]? with
    | none => .ok engine
    | some _ => (engine.takeResponse index).handleOutputs created instants outputs
  | .disconnect channel => .ok { engine with disconnected := channel :: engine.disconnected }

def run (events : List Event) : Except EngineError LlmEngine :=
  events.foldlM handle engine

/--
The states that runs reach in which every event meets `P`, a condition on the state before it.
-/
inductive ReachableWith (P : LlmEngine → Event → Prop) (initial : LlmEngine)
    : LlmEngine → Prop where
  | init : ReachableWith P initial initial
  | step {engine engine' : LlmEngine} {event : Event} (hreach : ReachableWith P initial engine)
      (hP : P engine event) (hhandle : engine.handle event = .ok engine')
    : ReachableWith P initial engine'

abbrev Reachable (initial engine : LlmEngine) : Prop :=
  ReachableWith (fun _ _ => True) initial engine

/--
The engine calls `step` in the state `called` when it handles `event`.
-/
inductive CallsStep (engine : LlmEngine) : Event → LlmEngine → Prop where
  | request (instants : Instants) (sequences : List Sequence) (request : EngineRequest)
      (hidle : ((engine.createSequences request.sequenceGroup sequences).addRequest request).isIdle
        = true)
    : CallsStep engine (.request instants sequences request)
        ((engine.createSequences request.sequenceGroup sequences).addRequest request)
  | outputs (instants : Instants) (created : SequenceRef → Nat) (index : Nat) (receiver : Receiver)
      (outputs : List SequenceGroupOutput) (requestOutputs : List GenerateRequestOutput)
      (called : LlmEngine) (hreceiver : engine.responses[index]? = some receiver)
      (hprocess : (engine.takeResponse index).processGeneratedOutputs created outputs
        = .ok (requestOutputs, called))
    : CallsStep engine (.response instants created index (some outputs)) called
  | failure (instants : Instants) (created : SequenceRef → Nat) (index : Nat) (receiver : Receiver)
      (hreceiver : engine.responses[index]? = some receiver)
    : CallsStep engine (.response instants created index none) (engine.takeResponse index)

/--
The engine takes the event and does not call `step`.
-/
inductive Waits (engine : LlmEngine) : Event → LlmEngine → Prop where
  | request (instants : Instants) (sequences : List Sequence) (request : EngineRequest)
      (hbusy : ((engine.createSequences request.sequenceGroup sequences).addRequest request).isIdle
        = false)
    : Waits engine (.request instants sequences request)
        ((engine.createSequences request.sequenceGroup sequences).addRequest request)
  | stray (instants : Instants) (created : SequenceRef → Nat) (index : Nat)
      (outputs : Option (List SequenceGroupOutput)) (hnone : engine.responses[index]? = none)
    : Waits engine (.response instants created index outputs) engine
  | disconnect (channel : Channel)
    : Waits engine (.disconnect channel)
        { engine with disconnected := channel :: engine.disconnected }

/--
The request for the batch that the engine holds.
-/
def currentRequest : ExecuteModelRequest where
  sequenceGroupsMetadata := engine.sequenceGroupsMetadata
  blocksToSwapIn := engine.schedulerOutputs.blocksToSwapIn
  blocksToSwapOut := engine.schedulerOutputs.blocksToSwapOut
  blocksToCopy := engine.schedulerOutputs.blocksToCopy
  runningQueueSize := engine.schedulerOutputs.runningQueueSize

/--
The batch that the engine holds is in flight, and nothing else is. An empty batch was not sent.
-/
def Paired : Prop :=
  engine.responses =
    if engine.schedulerOutputs.isEmpty then []
    else [{ request := engine.currentRequest, schedulerOutputs := engine.schedulerOutputs }]

variable {engine} {engine' called initial : LlmEngine} {event : Event}

theorem ReachableWith.of_run {P : LlmEngine → Event → Prop} (hP : ∀ engine event, P engine event)
    {events : List Event} (h : initial.run events = .ok engine) : ReachableWith P initial engine := by
  refine Except.foldlM_invariant (I := ReachableWith P initial) ?_ h .init
  intro current next event _ hreach hnext
  exact hreach.step (hP current event) hnext

theorem step_eq_ok {instants : Instants} (h : engine.step instants = .ok engine')
    : ∃ metadata outputs scheduler,
        engine.scheduler.schedule instants = .ok (metadata, outputs, scheduler)
          ∧ engine'.sequenceGroupsMetadata = metadata
          ∧ engine'.schedulerOutputs = outputs
          ∧ engine'.responses = engine.responses ++
              (if outputs.isEmpty then []
              else [{ request := engine'.currentRequest, schedulerOutputs := outputs }])
          ∧ engine' = {
              engine with
              sequenceGroupsMetadata := metadata
              schedulerOutputs := outputs
              scheduler
              responses := engine'.responses } := by
  rcases Except.bind_eq_ok.mp h with ⟨⟨metadata, outputs, scheduler⟩, hschedule, h⟩
  refine ⟨metadata, outputs, scheduler, ?_, ?_⟩
  . cases hresult : engine.scheduler.schedule instants with
    | error e =>
      rw [hresult] at hschedule
      cases hschedule
    | ok result =>
      rw [hresult] at hschedule
      cases hschedule
      rfl
  . dsimp only at h
    split at h
    . next hempty =>
      cases h
      simp [hempty]
    . next hempty =>
      cases h
      simp [hempty, send, currentRequest]

theorem Paired.of_step {instants : Instants} (hnone : engine.responses = [])
    (h : engine.step instants = .ok engine') : engine'.Paired := by
  rcases step_eq_ok h with ⟨metadata, outputs, scheduler, -, -, houtputs, hresponses, -⟩
  unfold Paired
  rw [hresponses, hnone, houtputs]
  rfl

theorem Paired.responses_eq_nil (h : engine.Paired) (hidle : engine.isIdle = true)
    : engine.responses = [] := by
  unfold isIdle at hidle
  rw [Bool.and_eq_true] at hidle
  rw [h, if_pos hidle.2]

theorem Paired.of_getElem? {index : Nat} {receiver : Receiver} (h : engine.Paired)
    (hreceiver : engine.responses[index]? = some receiver)
    : index = 0
        ∧ receiver = { request := engine.currentRequest, schedulerOutputs := engine.schedulerOutputs }
        ∧ (engine.takeResponse index).responses = [] := by
  unfold Paired at h
  split at h
  . simp [h] at hreceiver
  . rw [h] at hreceiver
    cases index with
    | succ index => cases hreceiver
    | zero =>
      cases hreceiver
      refine ⟨rfl, rfl, ?_⟩
      unfold takeResponse
      rw [h]
      rfl

theorem Paired.of_eq (h : engine.Paired) (hresponses : engine'.responses = engine.responses)
    (houtputs : engine'.schedulerOutputs = engine.schedulerOutputs)
    (hmetadata : engine'.sequenceGroupsMetadata = engine.sequenceGroupsMetadata)
    : engine'.Paired := by
  unfold Paired currentRequest at h ⊢
  rw [hresponses, houtputs, hmetadata]
  exact h

theorem Paired.addRequest (h : engine.Paired) (sequences : List Sequence) (request : EngineRequest)
    : ((engine.createSequences request.sequenceGroup sequences).addRequest request).Paired := by
  cases request <;> exact h.of_eq rfl rfl rfl

theorem responses_of_processGeneratedOutputs {created : SequenceRef → Nat}
    {outputs : List SequenceGroupOutput} {requestOutputs : List GenerateRequestOutput}
    (h : engine.processGeneratedOutputs created outputs = .ok (requestOutputs, engine'))
    : engine'.responses = engine.responses := by
  rcases processGeneratedOutputs_eq_ok h with ⟨updated, -, ⟨sequences, sent, rfl⟩, rfl, -⟩
  rfl

/--
`step` is called only when nothing is in flight.
-/
theorem Paired.responses_of_callsStep (h : engine.Paired) (hcalls : engine.CallsStep event called)
    : called.responses = [] := by
  cases hcalls with
  | request instants sequences request hidle =>
    exact (h.addRequest sequences request).responses_eq_nil hidle
  | outputs instants created index receiver outputs requestOutputs called hreceiver hprocess =>
    rw [responses_of_processGeneratedOutputs hprocess]
    exact (h.of_getElem? hreceiver).2.2
  | failure instants created index receiver hreceiver => exact (h.of_getElem? hreceiver).2.2

theorem sendResponse_keeps {output : GenerateRequestOutput}
    (h : engine.sendResponse output = .ok engine')
    : ∃ responseSenders sent, engine' = { engine with responseSenders, sent } := by
  unfold sendResponse at h
  split at h
  . cases h
    exact ⟨_, _, rfl⟩
  . split at h
    . cases h
    . cases h
      exact ⟨_, _, rfl⟩

theorem sendResponses_keeps {outputs : List GenerateRequestOutput}
    (h : outputs.foldlM (fun engine output => sendResponse engine output) engine = .ok engine')
    : ∃ responseSenders sent, engine' = { engine with responseSenders, sent } := by
  refine Except.foldlM_invariant
    (I := fun engine' => ∃ responseSenders sent, engine' = { engine with responseSenders, sent })
    ?_ h ⟨_, _, rfl⟩
  rintro current next output - ⟨responseSenders, sent, rfl⟩ hnext
  rcases sendResponse_keeps hnext with ⟨responseSenders', sent', rfl⟩
  exact ⟨_, _, rfl⟩

/--
The outputs of a response are processed in the state that has taken it, and `step` is called after
that.
-/
theorem handle_response {instants : Instants} {created : SequenceRef → Nat} {index : Nat}
    {receiver : Receiver} {outputs : List SequenceGroupOutput}
    (hreceiver : engine.responses[index]? = some receiver)
    : engine.handle (.response instants created index (some outputs))
        = (engine.takeResponse index).processGeneratedOutputs created outputs >>= fun processed =>
            processed.2.step instants >>= fun stepped =>
              processed.1.foldlM (fun engine output => sendResponse engine output) stepped := by
  unfold handle
  dsimp only
  rw [hreceiver]
  rfl

theorem handle_failure {instants : Instants} {created : SequenceRef → Nat} {index : Nat}
    {receiver : Receiver} (hreceiver : engine.responses[index]? = some receiver)
    : engine.handle (.response instants created index none)
        = (engine.takeResponse index).step instants := by
  unfold handle
  dsimp only
  rw [hreceiver]
  rfl

/--
When an event is handled, `step` is called in a state of `CallsStep`, and then only responses are
sent, or it is not called.
-/
theorem handle_cases (h : engine.handle event = .ok engine')
    : (∃ instants called stepped responseSenders sent,
        event.instants = some instants
          ∧ engine.CallsStep event called
          ∧ called.step instants = .ok stepped
          ∧ engine' = { stepped with responseSenders, sent })
      ∨ engine.Waits event engine' := by
  cases event with
  | request instants sequences request =>
    unfold handle handleRequest at h
    dsimp only at h
    split at h
    . next hidle => exact .inl ⟨instants, _, engine', _, _, rfl, .request _ _ _ hidle, h, rfl⟩
    . next hbusy =>
      cases h
      exact .inr (.request _ _ _ (Bool.eq_false_iff.mpr hbusy))
  | response instants created index outputs =>
    cases hreceiver : engine.responses[index]? with
    | none =>
      unfold handle at h
      dsimp only at h
      rw [hreceiver] at h
      cases h
      exact .inr (.stray _ _ _ _ hreceiver)
    | some receiver =>
      left
      cases outputs with
      | none =>
        rw [handle_failure hreceiver] at h
        exact ⟨instants, _, engine', _, _, rfl, .failure _ _ _ receiver hreceiver, h, rfl⟩
      | some outputs =>
        rw [handle_response hreceiver] at h
        rcases Except.bind_eq_ok.mp h with ⟨⟨requestOutputs, called⟩, hprocess, h⟩
        rcases Except.bind_eq_ok.mp h with ⟨stepped, hstepped, hsend⟩
        rcases sendResponses_keeps hsend with ⟨responseSenders, sent, rfl⟩
        exact ⟨instants, called, stepped, responseSenders, sent, rfl,
          .outputs _ _ _ receiver _ requestOutputs _ hreceiver hprocess, hstepped, rfl⟩
  | disconnect channel =>
    cases h
    exact .inr (.disconnect channel)

/--
Without a call of `step` the batch stays as it is.
-/
theorem handle_eq_ok (h : engine.handle event = .ok engine')
    : (∃ instants called stepped responseSenders sent,
        engine.CallsStep event called
          ∧ called.step instants = .ok stepped
          ∧ engine' = { stepped with responseSenders, sent })
      ∨ engine'.responses = engine.responses
        ∧ engine'.currentRequest = engine.currentRequest
        ∧ engine'.schedulerOutputs = engine.schedulerOutputs := by
  rcases handle_cases h
    with ⟨instants, called, stepped, responseSenders, sent, -, hcalls, hstep, hengine⟩ | hwaits
  . exact .inl ⟨instants, called, stepped, responseSenders, sent, hcalls, hstep, hengine⟩
  . right
    cases hwaits with
    | request instants sequences request => cases request <;> exact ⟨rfl, rfl, rfl⟩
    | stray | disconnect => exact ⟨rfl, rfl, rfl⟩

/--
What a state in which `step` is called has in common with the one before the event.
-/
theorem CallsStep.keeps (h : engine.CallsStep event called)
    : called.scheduler.schedulerConfig = engine.scheduler.schedulerConfig
        ∧ called.disconnected = engine.disconnected := by
  cases h with
  | request instants sequences request => cases request <;> exact ⟨rfl, rfl⟩
  | outputs instants created index receiver outputs requestOutputs called hreceiver hprocess =>
    rcases processGeneratedOutputs_eq_ok hprocess with ⟨_, -, ⟨_, _, rfl⟩, rfl, -⟩
    exact ⟨rfl, rfl⟩
  | failure => exact ⟨rfl, rfl⟩

theorem Paired.next (h : engine.Paired) (hhandle : engine.handle event = .ok engine')
    : engine'.Paired := by
  rcases handle_eq_ok hhandle
    with ⟨instants, called, stepped, responseSenders, sent, hcalls, hstep, rfl⟩
      | ⟨hsame, hrequest, houtputs⟩
  . exact (Paired.of_step (h.responses_of_callsStep hcalls) hstep).of_eq rfl rfl rfl
  . unfold Paired
    rw [hsame, hrequest, houtputs]
    exact h

theorem paired_of_reachable {scheduler : Scheduler} {tokenizer : List Nat → Except String String}
    (h : Reachable (LlmEngine.new scheduler tokenizer) engine) : engine.Paired := by
  induction h with
  | init => rfl
  | step _ _ hhandle ih => exact ih.next hhandle

/--
At most one request is in flight. A response is processed against the metadata and the scheduler
outputs that its request was made from, and `step` is never called while a response is outstanding.
-/
theorem inFlight_of_reachable {scheduler : Scheduler} {tokenizer : List Nat → Except String String}
    (h : Reachable (LlmEngine.new scheduler tokenizer) engine)
    : engine.responses.length ≤ 1
        ∧ (∀ (index : Nat) (receiver : Receiver), engine.responses[index]? = some receiver →
            receiver.request = (engine.takeResponse index).currentRequest
              ∧ receiver.schedulerOutputs = (engine.takeResponse index).schedulerOutputs
              ∧ ∀ instants created outputs,
                  engine.handle (.response instants created index (some outputs))
                    = (engine.takeResponse index).processGeneratedOutputs created outputs
                        >>= fun processed => processed.2.step instants >>= fun stepped =>
                          processed.1.foldlM (fun engine output => sendResponse engine output)
                            stepped)
        ∧ (∀ event called, engine.CallsStep event called → called.responses = [])
        ∧ (∀ event engine', engine.handle event = .ok engine' →
            (∃ instants called stepped responseSenders sent,
              engine.CallsStep event called
                ∧ called.step instants = .ok stepped
                ∧ engine' = { stepped with responseSenders, sent })
            ∨ engine'.responses = engine.responses
              ∧ engine'.currentRequest = engine.currentRequest
              ∧ engine'.schedulerOutputs = engine.schedulerOutputs) := by
  have hpaired := paired_of_reachable h
  refine ⟨?_, ?_, fun event called => hpaired.responses_of_callsStep,
    fun event engine' => handle_eq_ok⟩
  . rw [hpaired]
    split <;> simp
  . intro index receiver hreceiver
    rcases hpaired.of_getElem? hreceiver with ⟨-, rfl, -⟩
    exact ⟨rfl, rfl, fun _ _ _ => handle_response hreceiver⟩

/--
Two requests arrive, the first of which is in flight when the second arrives.
-/
theorem inFlight_of_reachable_two_requests
    : ∃ (scheduler : Scheduler) (tokenizer : List Nat → Except String String) (engine : LlmEngine),
        Reachable (LlmEngine.new scheduler tokenizer) engine
          ∧ engine.responses.length = 1
          ∧ engine.scheduler.waiting = [Scheduler.singleGroup "b" 1 1]
          ∧ (∀ receiver, engine.responses[0]? = some receiver →
              receiver.request = (engine.takeResponse 0).currentRequest)
          ∧ ∀ event called, engine.CallsStep event called → called.responses = [] := by
  let config : SchedulerConfig := ⟨2, 2, 2, 0, false⟩
  let scheduler := Scheduler.new config 1 4 4 none (fun _ => Scheduler.waitingSequence []) 0
  let tokenizer : List Nat → Except String String := fun _ => .ok ""
  let instants : Instants := ⟨2, 2, fun _ => 2, 2⟩
  let events : List Event := [
    .request instants [Scheduler.waitingSequence [5]]
      (.generateRequest (Scheduler.singleGroup "a" 0 0) 0),
    .request instants [Scheduler.waitingSequence [6]]
      (.generateStreamingRequest (Scheduler.singleGroup "b" 1 1) 1)
  ]
  have hrun : ((LlmEngine.new scheduler tokenizer).run events).toOption.any
      (fun engine =>
        engine.responses.length = 1
          ∧ engine.scheduler.waiting = [Scheduler.singleGroup "b" 1 1]) = true := by
    decide +kernel
  rcases Except.exists_eq_ok_of_any hrun with ⟨engine, hok, hvalues⟩
  rw [decide_eq_true_eq] at hvalues
  have hreach : Reachable (LlmEngine.new scheduler tokenizer) engine :=
    .of_run (fun _ _ => trivial) hok
  rcases inFlight_of_reachable hreach with ⟨-, hreceiver, hcalls, -⟩
  exact ⟨scheduler, tokenizer, engine, hreach, hvalues.1, hvalues.2,
    fun receiver h => (hreceiver 0 receiver h).1, hcalls⟩

end LlmEngine

end AtomaInfer
