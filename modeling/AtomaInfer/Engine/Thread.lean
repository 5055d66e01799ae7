import AtomaInfer.Engine.Executed

/-!
Runs of the engine with a thread that executes the batches and keeps a state between them. The
thread is a parameter, and so is what of it an invariant is about.
-/

namespace AtomaInfer

/--
What the thread does when a group arrives, and the outputs and the state that a request may lead to.
-/
structure ModelThread (δ : Type) where
  register : SequenceGroup → δ → δ
  Answers : ExecuteModelRequest → δ → List SequenceGroupOutput → δ → Prop

structure ThreadTrace (δ : Type) where
  trace : Trace
  state : δ

namespace ThreadTrace

variable {δ : Type} {thread : ModelThread δ} {run run' called : ThreadTrace δ}
variable {accepts : Session.Accepts} {instants : Instants} {event : LlmEngine.Event}
variable {engine : LlmEngine} {initial : δ}

def start (engine : LlmEngine) (initial : δ) : ThreadTrace δ where
  trace := .start engine
  state := initial

/--
The traces in which `step` is called, with the state of the thread then.
-/
inductive Calls (accepts : Session.Accepts) (thread : ModelThread δ) (run : ThreadTrace δ)
    (instants : Instants) : LlmEngine.Event → ThreadTrace δ → Prop where
  | request {sequences : List Sequence} {request : EngineRequest} {called : Trace}
      (h : run.trace.Receives accepts instants (.request instants sequences request) called)
      (hidle : called.engine.isIdle = true)
    : Calls accepts thread run instants (.request instants sequences request)
        ⟨called, thread.register request.sequenceGroup run.state⟩
  | response {created : SequenceRef → Nat} {index : Nat} {receiver : Receiver}
      {outputs : List SequenceGroupOutput} {state : δ} {called : Trace}
      (hreceiver : run.trace.engine.responses[index]? = some receiver)
      (hanswers : thread.Answers receiver.request run.state outputs state)
      (h : run.trace.Processes instants (.response instants created index (some outputs)) called)
    : Calls accepts thread run instants (.response instants created index (some outputs))
        ⟨called, state⟩

inductive Step (accepts : Session.Accepts) (thread : ModelThread δ) (run : ThreadTrace δ)
    : ThreadTrace δ → Prop where
  | wait {instants : Instants} {sequences : List Sequence} {request : EngineRequest}
      {received : Trace}
      (h : run.trace.Receives accepts instants (.request instants sequences request) received)
      (hbusy : received.engine.isIdle = false)
    : Step accepts thread run ⟨received, thread.register request.sequenceGroup run.state⟩
  | schedule {instants : Instants} {event : LlmEngine.Event} {called : ThreadTrace δ}
      {engine : LlmEngine} (h : run.Calls accepts thread instants event called)
      (hhandle : run.trace.engine.handle event = .ok engine)
    : Step accepts thread run {
        called with
        trace.engine := engine
        trace.sampled :=
          Trace.reset called.trace.sampled (called.trace.engine.scheduler.recomputed instants) }
  | disconnect (channel : Channel)
    : Step accepts thread run {
        run with
        trace.engine.disconnected := channel :: run.trace.engine.disconnected }

def Reachable (accepts : Session.Accepts) (thread : ModelThread δ) (engine : LlmEngine) (initial : δ)
    (run : ThreadTrace δ) : Prop :=
  Relation.ReflTransGen (Step accepts thread) (start engine initial) run

theorem Calls.trace_calls (h : run.Calls accepts thread instants event called)
    : run.trace.Calls accepts instants event called.trace := by
  cases h with
  | request h hidle => exact .request h hidle
  | response hreceiver hanswers h => exact .response h

theorem Step.trace_step (h : Step accepts thread run run')
    : Trace.Step accepts run.trace run'.trace := by
  cases h with
  | wait h hbusy => exact .wait h hbusy
  | schedule h hhandle => exact .schedule h.trace_calls hhandle
  | disconnect channel => exact .disconnect channel

theorem Reachable.trace_reachable (h : Reachable accepts thread engine initial run)
    : Trace.Reachable accepts engine run.trace := by
  induction h with
  | refl => exact .refl
  | tail _ hstep ih => exact ih.tail hstep.trace_step

/--
A step of the one thread is one of another thread whose states are `related` to its own.
-/
theorem Step.exists_step {ε : Type} {other : ModelThread ε} {related : δ → ε → Prop} {state : ε}
    (h : Step accepts thread run run')
    (hregister : ∀ group,
      related (thread.register group run.state) (other.register group state))
    (hanswers : ∀ (index : Nat) (receiver : Receiver) (outputs : List SequenceGroupOutput)
      (next : δ), run.trace.engine.responses[index]? = some receiver →
        thread.Answers receiver.request run.state outputs next →
          ∃ next', other.Answers receiver.request state outputs next' ∧ related next next')
    (hrelated : related run.state state)
    : ∃ state', Step accepts other ⟨run.trace, state⟩ ⟨run'.trace, state'⟩
        ∧ related run'.state state' := by
  let run₀ : ThreadTrace ε := ⟨run.trace, state⟩
  cases h with
  | wait h hbusy => exact ⟨_, @Step.wait _ accepts other run₀ _ _ _ _ h hbusy, hregister _⟩
  | schedule hcalls hhandle =>
    cases hcalls with
    | request h hidle =>
      have hcalls₀ := @Calls.request _ accepts other run₀ _ _ _ _ h hidle
      exact ⟨_, Step.schedule hcalls₀ hhandle, hregister _⟩
    | response hreceiver hanswered h =>
      rcases hanswers _ _ _ _ hreceiver hanswered with ⟨next', hanswered', hrelated'⟩
      have hcalls₀ := @Calls.response _ accepts other run₀ _ _ _ _ _ _ _ hreceiver hanswered' h
      exact ⟨next', Step.schedule hcalls₀ hhandle, hrelated'⟩
  | disconnect channel => exact ⟨state, .disconnect channel, hrelated⟩

/--
Invariants of the states between two events and of those in which `step` is called.
-/
structure Preserves (accepts : Session.Accepts) (thread : ModelThread δ) (engine : LlmEngine)
    (Between Called : ThreadTrace δ → Prop) : Prop where
  receives : ∀ {run : ThreadTrace δ} {session : Session} {instants : Instants}
    {sequences : List Sequence} {request : EngineRequest} {received : Trace},
    Trace.Reachable accepts engine run.trace → run.trace.Simulates session → session.Inv →
    run.trace.Receives accepts instants (.request instants sequences request) received →
    Between run → Between ⟨received, thread.register request.sequenceGroup run.state⟩
  rests : ∀ {run : ThreadTrace δ}, run.trace.engine.isIdle = true → Between run → Called run
  answers : ∀ {run : ThreadTrace δ} {session : Session} {instants : Instants}
    {created : SequenceRef → Nat} {index : Nat} {receiver : Receiver}
    {outputs : List SequenceGroupOutput} {state : δ} {called : Trace},
    Trace.Reachable accepts engine run.trace → run.trace.Simulates session → session.Inv →
    run.trace.engine.responses[index]? = some receiver →
    thread.Answers receiver.request run.state outputs state →
    run.trace.Processes instants (.response instants created index (some outputs)) called →
    Between run → Called ⟨called, state⟩
  steps : ∀ {run : ThreadTrace δ} {session : Session} {instants : Instants}
    {stepped next : LlmEngine} {sampled : SequenceRef → Bool}
    {responseSenders : AList fun _ : String => Channel} {sent : List (Channel × Message)},
    Trace.Visits accepts engine run.trace → run.trace.Between session → session.Inv →
    run.trace.engine.step instants = .ok stepped →
    next = { stepped with responseSenders, sent } →
    Called run → Between { run with trace.engine := next, trace.sampled := sampled }
  disconnects : ∀ {run : ThreadTrace δ} (channel : Channel),
    Between run →
      Between {
        run with
        trace.engine.disconnected := channel :: run.trace.engine.disconnected }

section Preserves

variable {Between Called : ThreadTrace δ → Prop} {session : Session}
variable {scheduler : Scheduler} {tokenizer : List Nat → Except String String}

theorem Preserves.of_calls (h : Preserves accepts thread engine Between Called)
    (hreach : Trace.Reachable accepts engine run.trace) (hsimulates : run.trace.Simulates session)
    (hinv : session.Inv) (hcalls : run.Calls accepts thread instants event called)
    (hbetween : Between run) : Called called := by
  cases hcalls with
  | request hreceives hidle =>
    exact h.rests hidle (h.receives hreach hsimulates hinv hreceives hbetween)
  | response hreceiver hanswers hprocesses =>
    exact h.answers hreach hsimulates hinv hreceiver hanswers hprocesses hbetween

theorem Preserves.of_step (h : Preserves accepts thread engine Between Called)
    (hreach : Trace.Reachable accepts engine run.trace) (hsimulates : run.trace.Simulates session)
    (hinv : session.Inv) (hstep : Step accepts thread run run') (hbetween : Between run)
    : Between run' := by
  cases hstep with
  | wait hreceives hbusy => exact h.receives hreach hsimulates hinv hreceives hbetween
  | schedule hcalls hhandle =>
    rcases hcalls.trace_calls.exists_between hsimulates hinv with ⟨between, hsteps, hsession, -⟩
    rcases hcalls.trace_calls.handle_eq hhandle
      with ⟨stepped, responseSenders, sent, hstepped, hengine⟩
    exact h.steps (.calls hreach hcalls.trace_calls) hsession (hsteps.inv hinv) hstepped hengine
      (h.of_calls hreach hsimulates hinv hcalls hbetween)
  | disconnect channel => exact h.disconnects channel hbetween

theorem Preserves.between_of_reachable
    (h : Preserves accepts thread (LlmEngine.new scheduler tokenizer) Between Called)
    (hinv : (Session.start scheduler).Inv)
    (hstart : Between (start (LlmEngine.new scheduler tokenizer) initial))
    (hreach : Reachable accepts thread (LlmEngine.new scheduler tokenizer) initial run)
    : Between run := by
  induction hreach with
  | refl => exact hstart
  | @tail between _ hreach hstep ih =>
    have hreach : Reachable accepts thread _ initial between := hreach
    rcases Trace.simulates_of_reachable hinv hreach.trace_reachable
      with ⟨session, hsteps, hsimulates⟩
    exact h.of_step hreach.trace_reachable hsimulates (hsteps.inv hinv) hstep ih

theorem Preserves.called_of_reachable
    (h : Preserves accepts thread (LlmEngine.new scheduler tokenizer) Between Called)
    (hinv : (Session.start scheduler).Inv)
    (hstart : Between (start (LlmEngine.new scheduler tokenizer) initial))
    (hreach : Reachable accepts thread (LlmEngine.new scheduler tokenizer) initial run)
    (hcalls : run.Calls accepts thread instants event called) : Called called := by
  rcases Trace.simulates_of_reachable hinv hreach.trace_reachable
    with ⟨session, hsteps, hsimulates⟩
  exact h.of_calls hreach.trace_reachable hsimulates (hsteps.inv hinv) hcalls
    (h.between_of_reachable hinv hstart hreach)

end Preserves

section Driven

open Scheduler

variable (thread) (answer : ExecuteModelRequest → δ → Option (List SequenceGroupOutput × δ))
variable (engine) (initial) (group : SequenceGroup) (sequence : Sequence)

/--
A request with one sequence.
-/
def submitted : LlmEngine.Event :=
  .request ⟨2, 2, fun _ => 2, 2⟩ [sequence] (.generateRequest group 0)

def submit : Option (ThreadTrace δ) :=
  (engine.handle (submitted group sequence)).toOption.map fun handled => {
    trace := {
      engine := handled
      arrived := [group]
      sampled := Trace.reset (Function.update (fun _ => false) ⟨0, 0⟩ false)
        (((engine.createSequences group [sequence]).addRequest
            (.generateRequest group 0)).scheduler.recomputed ⟨2, 2, fun _ => 2, 2⟩) }
    state := thread.register group initial }

/--
The thread answers the batch of the run, and the engine processes the outputs.
-/
def process (run : ThreadTrace δ) : Option (List SequenceGroupOutput × ThreadTrace δ) :=
  run.trace.engine.responses[0]?.bind fun receiver =>
    (answer receiver.request run.state).bind fun answered =>
      ((run.trace.engine.takeResponse 0).processGeneratedOutputs (fun _ => 4)
          answered.1).toOption.map fun processed => (answered.1, {
        trace := {
          run.trace with
          engine := processed.2
          sampled := Trace.mark run.trace.sampled receiver.schedulerOutputs.scheduledSequenceGroups
            receiver.request.sequenceGroupsMetadata }
        state := answered.2 })

def respond (run : ThreadTrace δ) : Option (ThreadTrace δ) :=
  (process answer run).bind fun processed =>
    (run.trace.engine.handle (.response ⟨4, 4, fun _ => 4, 4⟩ (fun _ => 4) 0
        (some processed.1))).toOption.map fun handled => {
      processed.2 with
      trace.engine := handled
      trace.sampled := Trace.reset processed.2.trace.sampled
        (processed.2.trace.engine.scheduler.recomputed ⟨4, 4, fun _ => 4, 4⟩) }

/--
Another request arrives while a batch is in flight.
-/
def join (requestId : String) (sequenceId : Nat) (promptTokenIds : List Nat) (run : ThreadTrace δ)
    : Option (ThreadTrace δ) :=
  ((run.trace.feed (.prompt requestId sequenceId promptTokenIds)).filter
      fun fed => !fed.2.engine.isIdle).map fun fed => {
    trace := fed.2
    state := thread.register (singleGroup requestId sequenceId 0) run.state }

/--
The first request of a run is submitted, and some batches are answered.
-/
def driven (rounds : Nat) : Option (ThreadTrace δ) :=
  match rounds with
  | 0 => submit thread engine initial group sequence
  | rounds + 1 => (driven rounds).bind (respond answer)

/--
The answers are those of the thread and outputs of the model executor.
-/
def IsAnswer : Prop :=
  ∀ request state outputs state', answer request state = some (outputs, state') →
    thread.Answers request state outputs state'
      ∧ ∃ next, outputs = ModelExecutor.sample next request.sequenceGroupsMetadata

variable {thread} {answer} {group} {sequence} {initial}

theorem calls_of_process {processed : List SequenceGroupOutput × ThreadTrace δ}
    (hanswer : IsAnswer thread answer) (h : process answer run = some processed)
    : run.Calls accepts thread ⟨4, 4, fun _ => 4, 4⟩
          (.response ⟨4, 4, fun _ => 4, 4⟩ (fun _ => 4) 0 (some processed.1)) processed.2
        ∧ processed.2.trace.arrived = run.trace.arrived := by
  rcases Option.bind_eq_some_iff.mp h with ⟨receiver, hreceiver, h⟩
  rcases Option.bind_eq_some_iff.mp h with ⟨⟨outputs, state⟩, hstate, h⟩
  rcases Option.map_eq_some_iff.mp h with ⟨⟨requestOutputs, engine⟩, hprocess, rfl⟩
  rcases hanswer _ _ _ _ hstate with ⟨hanswers, next, rfl⟩
  exact ⟨.response hreceiver hanswers (.intro _ _ 0 receiver _ requestOutputs engine hreceiver
    (Except.toOption_eq_some hprocess)), rfl⟩

theorem step_of_respond (hanswer : IsAnswer thread answer) (h : respond answer run = some run')
    : Step accepts thread run run' ∧ run'.trace.arrived = run.trace.arrived := by
  rcases Option.bind_eq_some_iff.mp h with ⟨⟨outputs, called⟩, hprocess, h⟩
  rcases Option.map_eq_some_iff.mp h with ⟨engine, hhandle, rfl⟩
  rcases calls_of_process hanswer hprocess with ⟨hcalls, harrived⟩
  exact ⟨.schedule hcalls (Except.toOption_eq_some hhandle), harrived⟩

theorem step_of_join {requestId : String} {sequenceId : Nat} {promptTokenIds : List Nat}
    (h : join thread requestId sequenceId promptTokenIds run = some run')
    : Step (fun _ _ _ => True) thread run run'
        ∧ run'.trace.arrived = run.trace.arrived ++ [singleGroup requestId sequenceId 0] := by
  rcases Option.map_eq_some_iff.mp h with ⟨fed, hfed, rfl⟩
  rcases Option.filter_eq_some_iff.mp hfed with ⟨hfeed, hbusy⟩
  have hbusy : fed.2.engine.isIdle = false := by simpa using hbusy
  unfold Trace.feed at hfeed
  dsimp only at hfeed
  split at hfeed
  . next haccepted =>
    cases hfeed
    exact ⟨.wait (.intro ⟨2, 2, fun _ => 2, 2⟩ (.generateRequest _ 0) ⟨sequenceId, sequenceId⟩ _ ""
      promptTokenIds false rfl haccepted.1 haccepted.2 trivial) hbusy, rfl⟩
  . cases hfeed

theorem reachable_of_driven {scheduler : Scheduler} {tokenizer : List Nat → Except String String}
    {rounds : Nat} {promptTokenIds : List Nat} (hanswer : IsAnswer thread answer)
    (hgroup : group.sequences = [⟨0, 0⟩])
    (hnew : Sequence.new "" promptTokenIds scheduler.memory.blockManager.blockSize false
      = .ok sequence)
    (h : driven thread (LlmEngine.new scheduler tokenizer) initial answer group sequence rounds
      = some run)
    : Reachable (fun _ _ _ => True) thread (LlmEngine.new scheduler tokenizer) initial run
        ∧ run.trace.arrived = [group] := by
  induction rounds generalizing run with
  | zero =>
    rcases Option.map_eq_some_iff.mp h with ⟨engine, hhandle, rfl⟩
    refine ⟨.single (.schedule (.request (.intro ⟨2, 2, fun _ => 2, 2⟩ (.generateRequest group 0)
      ⟨0, 0⟩ sequence "" promptTokenIds false hgroup ?_ hnew trivial) rfl)
      (Except.toOption_eq_some hhandle)), rfl⟩
    exact fun _ hgroup => (nomatch hgroup)
  | succ rounds ih =>
    rcases Option.bind_eq_some_iff.mp h with ⟨between, hbetween, hrespond⟩
    rcases ih hbetween with ⟨hreach, harrived⟩
    rcases step_of_respond hanswer hrespond with ⟨hstep, hsame⟩
    exact ⟨hreach.tail hstep, hsame.trans harrived⟩

/--
An engine whose block size is one token.
-/
def fresh (config : SchedulerConfig) (numGpuBlocks : Nat) : LlmEngine :=
  LlmEngine.new
    (Scheduler.new config 1 4 numGpuBlocks none (fun _ => waitingSequence []) 0) fun _ => .ok ""

end Driven

end ThreadTrace

end AtomaInfer
