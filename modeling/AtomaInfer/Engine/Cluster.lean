import AtomaInfer.Engine.Coherence
import AtomaInfer.Engine.Recovery
import AtomaInfer.Worker.Dispatch

/-!
Runs of the engine together with the threads of the GPUs, each of which has a cache of its own. The
engine goes on when the first thread has answered, so the others may be behind by any number of
batches.
-/

namespace AtomaInfer

/--
A step of the engine with one thread that may fail: its response is then missing, and its state is as
before.
-/
inductive ThreadTrace.FaultyStep {δ : Type} (accepts : Session.Accepts) (thread : ModelThread δ)
    (run : ThreadTrace δ) : ThreadTrace δ → Prop where
  | step {run' : ThreadTrace δ} (h : Step accepts thread run run')
    : FaultyStep accepts thread run run'
  | failure {instants : Instants} {event : LlmEngine.Event} {called : Trace} {engine : LlmEngine}
      (h : run.trace.Fails instants event called)
      (hhandle : run.trace.engine.handle event = .ok engine)
    : FaultyStep accepts thread run {
        run with
        trace := {
          called with
          engine
          sampled := Trace.reset called.sampled (called.engine.scheduler.recomputed instants) } }

theorem ThreadTrace.FaultyStep.trace_faultyStep {δ : Type} {accepts : Session.Accepts}
    {thread : ModelThread δ} {run run' : ThreadTrace δ} (h : FaultyStep accepts thread run run')
    : Trace.FaultyStep accepts (fun _ _ => True) run.trace run'.trace := by
  cases h with
  | step h =>
    cases h with
    | wait h hbusy => exact .wait h hbusy
    | schedule h hhandle => exact .schedule (.call h.trace_calls) trivial hhandle
    | disconnect channel => exact .disconnect channel
  | failure h hhandle => exact .schedule (.fail h) trivial hhandle

structure Cluster where
  trace : Trace
  dispatcher : ModelThreadDispatcher KvCache

theorem Trace.Receives.responses_eq {accepts : Session.Accepts} {trace received : Trace}
    {instants : Instants} {event : LlmEngine.Event}
    (h : trace.Receives accepts instants event received)
    : received.engine.responses = trace.engine.responses := by
  cases h with
  | intro request => cases request <;> rfl

theorem Trace.Processes.exists_receiver {trace called : Trace} {instants : Instants}
    {created : SequenceRef → Nat} {index : Nat} {outputs : Option (List SequenceGroupOutput)}
    (h : trace.Processes instants (.response instants created index outputs) called)
    : ∃ receiver, trace.engine.responses[index]? = some receiver := by
  cases h with
  | intro _ _ receiver _ _ _ hreceiver => exact ⟨receiver, hreceiver⟩

theorem LlmEngine.Paired.responses_of_getElem? {engine : LlmEngine} {index : Nat}
    {receiver : Receiver} (h : engine.Paired) (hreceiver : engine.responses[index]? = some receiver)
    : engine.responses = [receiver] := by
  have hsame := (h.of_getElem? hreceiver).2.1
  unfold LlmEngine.Paired at h
  split at h
  . simp [h] at hreceiver
  . rw [h, hsame]

namespace Cluster

/--
What the worker of a rank may do with a request. Only for the output of rank 0 it matters that it is
sampled for the batch.
-/
def Executes (worker : ModelWorker) (rank : Nat) (request : ExecuteModelRequest) (cache : KvCache)
    (outputs : List SequenceGroupOutput) (cache' : KvCache) : Prop :=
  worker.ExecutesCache request cache cache'
    ∧ (rank = 0 → ∃ next, outputs = ModelExecutor.sample next request.sequenceGroupsMetadata)

def sendAll (dispatcher : ModelThreadDispatcher KvCache) (receivers : List Receiver)
    : ModelThreadDispatcher KvCache :=
  receivers.foldl (fun dispatcher receiver => dispatcher.send receiver.request) dispatcher

/--
The engine after `step`, which was called in `called`.
-/
def stepped (called : Trace) (instants : Instants) (engine : LlmEngine) : Trace where
  engine
  arrived := called.arrived
  sampled := Trace.reset called.sampled (called.engine.scheduler.recomputed instants)

/--
The requests that `step` has sent.
-/
def sent (called : Trace) (engine : LlmEngine) : List Receiver :=
  engine.responses.drop called.engine.responses.length

/--
An event of the engine, at which no call of `send` is going on, or a turn of a thread. A channel that
is closed without a response is not taken.
-/
inductive Step (accepts : Session.Accepts) (worker : ModelWorker) (cluster : Cluster)
    : Cluster → Prop where
  | wait {instants : Instants} {sequences : List Sequence} {request : EngineRequest}
      {received : Trace} (hidle : cluster.dispatcher.outgoing = [])
      (h : cluster.trace.Receives accepts instants (.request instants sequences request) received)
      (hbusy : received.engine.isIdle = false)
    : Step accepts worker cluster { cluster with trace := received }
  | request {instants : Instants} {sequences : List Sequence} {request : EngineRequest}
      {called : Trace} {engine : LlmEngine} (hidle : cluster.dispatcher.outgoing = [])
      (h : cluster.trace.Receives accepts instants (.request instants sequences request) called)
      (hcalls : called.engine.isIdle = true)
      (hhandle : cluster.trace.engine.handle (.request instants sequences request) = .ok engine)
      (hshards : sent called engine ≠ [] → 0 < cluster.dispatcher.numShards)
    : Step accepts worker cluster {
        trace := stepped called instants engine
        dispatcher := sendAll cluster.dispatcher (sent called engine) }
  | response {instants : Instants} {created : SequenceRef → Nat} {index channel : Nat}
      {outputs : List SequenceGroupOutput} {called : Trace} {engine : LlmEngine}
      (hidle : cluster.dispatcher.outgoing = [])
      (hresponse : cluster.dispatcher.responses[index]? = some channel)
      (hsent : cluster.dispatcher.channels channel = .sent outputs)
      (h : cluster.trace.Processes instants (.response instants created index (some outputs)) called)
      (hhandle : cluster.trace.engine.handle (.response instants created index (some outputs))
        = .ok engine)
      (hshards : sent called engine ≠ [] → 0 < cluster.dispatcher.numShards)
    : Step accepts worker cluster {
        trace := stepped called instants engine
        dispatcher := sendAll (cluster.dispatcher.receive index channel) (sent called engine) }
  | disconnect (channel : Channel)
    : Step accepts worker cluster {
        cluster with
        trace.engine.disconnected := channel :: cluster.trace.engine.disconnected }
  | turn {dispatcher : ModelThreadDispatcher KvCache}
      (h : ModelThreadDispatcher.Turn (Executes worker) cluster.dispatcher dispatcher)
    : Step accepts worker cluster { cluster with dispatcher }

/--
The engine also takes a channel that is closed without a response, and schedules again.
-/
inductive FaultyStep (accepts : Session.Accepts) (worker : ModelWorker) (cluster : Cluster)
    : Cluster → Prop where
  | step {cluster' : Cluster} (h : Step accepts worker cluster cluster')
    : FaultyStep accepts worker cluster cluster'
  | failure {instants : Instants} {created : SequenceRef → Nat} {index channel : Nat}
      {called : Trace} {engine : LlmEngine} (hidle : cluster.dispatcher.outgoing = [])
      (hresponse : cluster.dispatcher.responses[index]? = some channel)
      (hclosed : cluster.dispatcher.channels channel = .closed)
      (h : cluster.trace.Fails instants (.response instants created index none) called)
      (hhandle : cluster.trace.engine.handle (.response instants created index none) = .ok engine)
      (hshards : sent called engine ≠ [] → 0 < cluster.dispatcher.numShards)
    : FaultyStep accepts worker cluster {
        trace := stepped called instants engine
        dispatcher := sendAll (cluster.dispatcher.receive index channel) (sent called engine) }

def start (engine : LlmEngine) (numShards : Nat) (caches : Nat → KvCache) : Cluster where
  trace := .start engine
  dispatcher := .start numShards caches

def Reachable (accepts : Session.Accepts) (worker : ModelWorker) (engine : LlmEngine)
    (numShards : Nat) (caches : Nat → KvCache) (cluster : Cluster) : Prop :=
  Relation.ReflTransGen (Step accepts worker) (start engine numShards caches) cluster

def FaultyReachable (accepts : Session.Accepts) (worker : ModelWorker) (engine : LlmEngine)
    (numShards : Nat) (caches : Nat → KvCache) (cluster : Cluster) : Prop :=
  Relation.ReflTransGen (FaultyStep accepts worker) (start engine numShards caches) cluster

variable {accepts : Session.Accepts} {worker : ModelWorker} {engine : LlmEngine}
variable {trace called : Trace} {cluster cluster' : Cluster} {instants : Instants}
variable {requests answered : List ExecuteModelRequest}
variable {outputs : List (List SequenceGroupOutput)} {initial cache cache' : KvCache}
variable {numShards rank : Nat} {caches : Nat → KvCache}
variable {dispatcher : ModelThreadDispatcher KvCache}

theorem Reachable.faultyReachable
    (h : Reachable accepts worker engine numShards caches cluster)
    : FaultyReachable accepts worker engine numShards caches cluster :=
  Relation.ReflTransGen.mono (fun _ _ => FaultyStep.step) _ _ h

theorem sent_eq_responses (h : called.engine.responses = [])
    : sent called engine = engine.responses := by
  unfold sent
  rw [h]
  rfl

/--
The caches that the requests lead to when they are executed in order.
-/
def Leads (worker : ModelWorker) (initial : KvCache) (requests : List ExecuteModelRequest)
    (outputs : List (List SequenceGroupOutput)) (cache : KvCache) : Prop :=
  Replica.Executes (fun request cache _ cache' => worker.ExecutesCache request cache cache') initial
    requests outputs cache

theorem leads_of_executes (h : Replica.Executes (Executes worker rank) initial requests outputs cache)
    : Leads worker initial requests outputs cache :=
  h.mono fun _ _ _ _ hexec => hexec.1

section Drives

variable {R : ThreadTrace KvCache → ThreadTrace KvCache → Prop}

/--
With any cache that the answered requests lead to, the trace is a run of a single thread. `R` are its
steps.
-/
def Drives (R : ThreadTrace KvCache → ThreadTrace KvCache → Prop) (worker : ModelWorker)
    (engine : LlmEngine) (answered : List ExecuteModelRequest) (trace : Trace) : Prop :=
  ∀ initial outputs cache, Leads worker initial answered outputs cache →
    Relation.ReflTransGen R (.start engine initial) ⟨trace, cache⟩

theorem Drives.tail {trace' : Trace} (h : Drives R worker engine answered trace)
    (hstep : ∀ cache, R ⟨trace, cache⟩ ⟨trace', cache⟩) : Drives R worker engine answered trace' :=
  fun initial outputs cache hleads => (h initial outputs cache hleads).tail (hstep cache)

/--
The request that is in flight is answered.
-/
theorem Drives.response {created : SequenceRef → Nat} {index : Nat} {receiver : Receiver}
    {output : List SequenceGroupOutput} {engine' : LlmEngine}
    (hsteps : ∀ run run', ThreadTrace.Step accepts worker.thread run run' → R run run')
    (h : Drives R worker engine answered trace)
    (hreceiver : trace.engine.responses[index]? = some receiver)
    (hprocesses : trace.Processes instants (.response instants created index (some output)) called)
    (hhandle : trace.engine.handle (.response instants created index (some output)) = .ok engine')
    : Drives R worker engine (answered ++ [receiver.request]) (stepped called instants engine') := by
  intro initial outputs cache' hleads
  rcases hleads.exists_of_append_singleton with ⟨earlier, _, cache, -, hleads, hexecutes⟩
  exact (h initial earlier cache hleads).tail
    (hsteps _ _ (.schedule (.response hreceiver hexecutes hprocesses) hhandle))

end Drives

/--
The requests that were sent: the first thread has answered the first ones, it has failed before the
`lost` ones, whose channels are closed, and the last one may be in flight. `R` are the steps of a
single thread that does the same.
-/
structure Tracks (R : ThreadTrace KvCache → ThreadTrace KvCache → Prop) (worker : ModelWorker)
    (engine : LlmEngine) (numShards : Nat) (caches : Nat → KvCache) (cluster : Cluster)
    (answered lost : List ExecuteModelRequest) : Prop where
  dispatches : ModelThreadDispatcher.Reachable (Executes worker) numShards caches cluster.dispatcher
  dropped_eq : cluster.dispatcher.dropped = false
  requests_eq : cluster.dispatcher.requests
    = answered ++ lost ++ cluster.trace.engine.responses.map (·.request)
  responses_eq : cluster.dispatcher.responses
    = List.range' (answered ++ lost).length cluster.trace.engine.responses.length
  closed : ∀ channel, answered.length ≤ channel → channel < (answered ++ lost).length →
    cluster.dispatcher.channels channel = .closed
  executes : ∃ outputs cache,
    Replica.Executes (Executes worker 0) (caches 0) answered outputs cache
  drives : Drives R worker engine answered cluster.trace

section Tracks

variable {R : ThreadTrace KvCache → ThreadTrace KvCache → Prop} {lost : List ExecuteModelRequest}
variable {config : SchedulerConfig} {blockSize numCpuBlocks numGpuBlocks : Nat}
variable {slidingWindow : Option Nat} {heap : SequenceHeap} {now : Nat}
variable {tokenizer : List Nat → Except String String} {engine' : LlmEngine}

theorem tracks_start (R : ThreadTrace KvCache → ThreadTrace KvCache → Prop) (worker : ModelWorker)
    (engine : LlmEngine) (numShards : Nat) (caches : Nat → KvCache)
    (hresponses : engine.responses = [])
    : Tracks R worker engine numShards caches (start engine numShards caches) [] [] := by
  refine ⟨.refl, rfl, ?_, ?_, fun _ _ hlt => absurd hlt (Nat.not_lt_zero _), ⟨_, _, .nil⟩, ?_⟩
  . change [] = [] ++ [] ++ engine.responses.map _
    rw [hresponses]
    rfl
  . change [] = List.range' 0 engine.responses.length
    rw [hresponses]
    rfl
  . intro initial outputs cache hleads
    rw [hleads.eq_of_nil]
    exact .refl

theorem Tracks.turn (h : Tracks R worker engine numShards caches cluster answered lost)
    (hturn : ModelThreadDispatcher.Turn (Executes worker) cluster.dispatcher dispatcher)
    : Tracks R worker engine numShards caches { cluster with dispatcher } answered lost := by
  have hsame := hturn.sameTask
  refine ⟨h.dispatches.tail (.turn hturn), hsame.dropped_eq.trans h.dropped_eq,
    hsame.requests_eq.trans h.requests_eq, hsame.responses_eq.trans h.responses_eq, ?_, h.executes,
    h.drives⟩
  intro channel hge hlt
  have hsent : channel < cluster.dispatcher.requests.length := by
    rw [h.requests_eq, List.length_append]
    omega
  exact (ModelThreadDispatcher.inv_of_reachable h.dispatches).closed_of_turn hsent
    (h.closed channel hge hlt) hturn

/--
The first thread has answered all requests before the one whose response is taken.
-/
theorem Tracks.eq_nil_of_sent {index channel : Nat} {output : List SequenceGroupOutput}
    (h : Tracks R worker engine numShards caches cluster answered lost)
    (hresponse : cluster.dispatcher.responses[index]? = some channel)
    (hsent : cluster.dispatcher.channels channel = .sent output) : lost = [] := by
  have hmem := List.mem_of_getElem? hresponse
  rw [h.responses_eq, List.mem_range'_1] at hmem
  have hlt : channel < cluster.dispatcher.requests.length := by
    rw [h.requests_eq, List.length_append, List.length_map]
    omega
  by_contra hlost
  have hpos := List.length_pos_iff.mpr hlost
  rw [List.length_append] at hmem
  rcases (ModelThreadDispatcher.inv_of_reachable h.dispatches).exists_sent_of_lt hlt hsent
    (show answered.length < channel by omega) with ⟨output', hsent'⟩
  rw [h.closed answered.length (Nat.le_refl _) (by rw [List.length_append]; omega)] at hsent'
  cases hsent'

/--
When the response to the request in flight is taken, the first thread has executed all the requests.
-/
theorem Tracks.exists_executes {index channel : Nat} {output : List SequenceGroupOutput}
    {receiver : Receiver} (h : Tracks R worker engine numShards caches cluster answered [])
    (hreceivers : cluster.trace.engine.responses = [receiver])
    (hresponse : cluster.dispatcher.responses[index]? = some channel)
    (hsent : cluster.dispatcher.channels channel = .sent output)
    : ∃ outputs cache,
        Replica.Executes (Executes worker 0) (caches 0) (answered ++ [receiver.request]) outputs cache
    := by
  have hrequests := h.requests_eq
  rw [hreceivers, List.append_nil, List.map_singleton] at hrequests
  have hchannel : channel = answered.length := by
    have hmem := List.mem_of_getElem? hresponse
    rw [h.responses_eq, hreceivers, List.append_nil, List.mem_range'_1] at hmem
    simp at hmem
    omega
  subst hchannel
  have hlt : answered.length < cluster.dispatcher.requests.length := by
    rw [hrequests]
    simp
  rcases (ModelThreadDispatcher.inv_of_reachable h.dispatches).answers_of_sent hlt hsent
    with ⟨request, earlier, before, after, hrequest, hexecutes, hexec⟩
  rw [hrequests] at hrequest hexecutes
  rw [List.take_left] at hexecutes
  rw [List.getElem?_concat_length, Option.some.injEq] at hrequest
  rw [hrequest]
  exact ⟨_, _, hexecutes.snoc hexec⟩

section Simulates

variable (hfaulty : ∀ run run', R run run' → ThreadTrace.FaultyStep accepts worker.thread run run')
variable (hengine : engine = LlmEngine.new
  (Scheduler.new config blockSize numCpuBlocks numGpuBlocks slidingWindow heap now) tokenizer)
include hfaulty hengine

theorem Drives.exists_simulates {initial : KvCache}
    (hdrives : Drives R worker engine answered trace)
    (hexecutes : ∃ outputs cache,
      Replica.Executes (Executes worker 0) initial answered outputs cache)
    : ∃ session : Session, session.Inv ∧ trace.Simulates session := by
  rcases hexecutes with ⟨outputs, cache, hexecutes⟩
  have hreach := hdrives _ _ _ (leads_of_executes hexecutes)
  have hfaultyReach : Trace.FaultyReachable accepts (fun _ _ => True) engine trace :=
    Relation.ReflTransGen.lift ThreadTrace.trace
      (fun run run' hstep => (hfaulty run run' hstep).trace_faultyStep) _ _ hreach
  have hstart := Session.inv_start config blockSize numCpuBlocks numGpuBlocks slidingWindow heap now
  rw [hengine] at hfaultyReach
  rcases Trace.simulates_of_faultyReachable hstart hfaultyReach with ⟨session, hsteps, hsimulates⟩
  exact ⟨session, hsteps.inv hstart, hsimulates⟩

/--
What `step` sends is at most one request.
-/
theorem tracks_of_stepped
    (hdispatches : ModelThreadDispatcher.Reachable (Executes worker) numShards caches dispatcher)
    (hdropped : dispatcher.dropped = false) (hidle : dispatcher.outgoing = [])
    (hresponses : dispatcher.responses = [])
    (hshards : trace.engine.responses ≠ [] → 0 < dispatcher.numShards)
    (hrequests : dispatcher.requests = answered ++ lost)
    (hclosed : ∀ channel, answered.length ≤ channel → channel < (answered ++ lost).length →
      dispatcher.channels channel = .closed)
    (hexecutes : ∃ outputs cache,
      Replica.Executes (Executes worker 0) (caches 0) answered outputs cache)
    (hdrives : Drives R worker engine answered trace)
    : Tracks R worker engine numShards caches
        { trace, dispatcher := sendAll dispatcher trace.engine.responses } answered lost := by
  rcases hdrives.exists_simulates hfaulty hengine hexecutes with ⟨session, -, hsimulates⟩
  have hpaired := hsimulates.paired
  unfold LlmEngine.Paired at hpaired
  split at hpaired
  . rw [hpaired]
    refine ⟨hdispatches, hdropped, ?_, ?_, hclosed, hexecutes, hdrives⟩
    . rw [hpaired, List.map_nil, List.append_nil]
      exact hrequests
    . rw [hpaired]
      exact hresponses
  . generalize hreceiver :
      ({ request := trace.engine.currentRequest, schedulerOutputs := trace.engine.schedulerOutputs }
        : Receiver) = receiver at hpaired
    have hpos := hshards (by rw [hpaired]; exact List.cons_ne_nil _ _)
    rw [hpaired]
    refine ⟨hdispatches.tail (.send receiver.request hpos hidle hdropped), hdropped, ?_, ?_, hclosed,
      hexecutes, hdrives⟩
    . rw [hpaired, ← hrequests]
      rfl
    . rw [hpaired, ← hrequests]
      change dispatcher.responses ++ [dispatcher.requests.length] = _
      rw [hresponses]
      rfl

end Simulates

/--
The one channel is the one of the request in flight.
-/
theorem Tracks.responses_receive {index channel : Nat} {receiver : Receiver}
    (h : Tracks R worker engine numShards caches cluster answered lost)
    (hreceivers : cluster.trace.engine.responses = [receiver])
    (hresponse : cluster.dispatcher.responses[index]? = some channel)
    : (cluster.dispatcher.receive index channel).responses = []
        ∧ channel = (answered ++ lost).length := by
  have hresponses := h.responses_eq
  rw [hreceivers] at hresponses
  have hresponses : cluster.dispatcher.responses = [(answered ++ lost).length] := hresponses
  rw [hresponses] at hresponse
  have hindex := (List.getElem?_eq_some_iff.mp hresponse).1
  have hzero : index = 0 := by simpa using hindex
  subst hzero
  refine ⟨?_, (Option.some.inj hresponse).symm⟩
  change cluster.dispatcher.responses.eraseIdx 0 = []
  rw [hresponses]
  rfl

section Step

variable (hsteps : ∀ run run', ThreadTrace.Step accepts worker.thread run run' → R run run')
variable (hfaulty : ∀ run run', R run run' → ThreadTrace.FaultyStep accepts worker.thread run run')
variable (hengine : engine = LlmEngine.new
  (Scheduler.new config blockSize numCpuBlocks numGpuBlocks slidingWindow heap now) tokenizer)
include hsteps hfaulty hengine

/--
A step answers the request in flight, or none.
-/
theorem Tracks.step (h : Tracks R worker engine numShards caches cluster answered lost)
    (hstep : Step accepts worker cluster cluster')
    : ∃ answered', answered' <+: cluster.dispatcher.requests
        ∧ Tracks R worker engine numShards caches cluster' answered' lost := by
  rcases h.drives.exists_simulates hfaulty hengine h.executes with ⟨session, hsession, hsimulates⟩
  have hprefix : answered <+: cluster.dispatcher.requests := by
    rw [h.requests_eq, List.append_assoc]
    exact List.prefix_append _ _
  cases hstep with
  | @wait instants sequences request received hidle hreceives hbusy =>
    refine ⟨answered, hprefix, h.dispatches, h.dropped_eq, ?_, ?_, h.closed, h.executes,
      h.drives.tail fun cache => hsteps _ _ (.wait hreceives hbusy)⟩
    . rw [hreceives.responses_eq]
      exact h.requests_eq
    . rw [hreceives.responses_eq]
      exact h.responses_eq
  | turn hturn => exact ⟨answered, hprefix, h.turn hturn⟩
  | disconnect channel =>
    exact ⟨answered, hprefix, h.dispatches, h.dropped_eq, h.requests_eq, h.responses_eq, h.closed,
      h.executes, h.drives.tail fun cache => hsteps _ _ (.disconnect channel)⟩
  | @request instants sequences request called engine' hidle hreceives hcalls hhandle hshards =>
    rcases (Trace.Calls.request hreceives hcalls).exists_between hsimulates hsession
      with ⟨_, -, -, hnone⟩
    have hbefore := hreceives.responses_eq.symm.trans hnone
    have hrequests := h.requests_eq
    have hresponses := h.responses_eq
    rw [hbefore, List.map_nil, List.append_nil] at hrequests
    rw [hbefore] at hresponses
    rw [sent_eq_responses hnone] at hshards ⊢
    exact ⟨answered, hprefix, tracks_of_stepped hfaulty hengine h.dispatches h.dropped_eq hidle
      hresponses hshards hrequests h.closed h.executes
      (h.drives.tail fun cache => hsteps _ _ (.schedule (.request hreceives hcalls) hhandle))⟩
  | @response instants created index channel outputs called engine' hidle hresponse hsent hprocesses
      hhandle hshards =>
    rcases (Trace.Calls.response hprocesses : cluster.trace.Calls accepts instants _ called
      ).exists_between hsimulates hsession with ⟨_, -, -, hnone⟩
    rcases hprocesses.exists_receiver with ⟨receiver, hreceiver⟩
    have hreceivers := hsimulates.paired.responses_of_getElem? hreceiver
    have hlost := h.eq_nil_of_sent hresponse hsent
    subst hlost
    have hrequests := h.requests_eq
    rw [hreceivers, List.append_nil, List.map_singleton] at hrequests
    have hready : cluster.dispatcher.channels channel ≠ .waiting := by
      rw [hsent]
      exact nofun
    rw [sent_eq_responses hnone] at hshards ⊢
    refine ⟨answered ++ [receiver.request], ?_, tracks_of_stepped hfaulty hengine
      (h.dispatches.tail (.receive hidle hresponse hready)) h.dropped_eq hidle
      (h.responses_receive hreceivers hresponse).1 hshards ?_ ?_
      (h.exists_executes hreceivers hresponse hsent)
      (h.drives.response hsteps hreceiver hprocesses hhandle)⟩
    . rw [hrequests]
    . rw [List.append_nil]
      exact hrequests
    . intro channel hge hlt
      rw [List.append_nil] at hlt
      omega

end Step

/--
The request whose channel is closed is lost.
-/
theorem Tracks.failure {created : SequenceRef → Nat} {index channel : Nat}
    (hengine : engine = LlmEngine.new
      (Scheduler.new config blockSize numCpuBlocks numGpuBlocks slidingWindow heap now) tokenizer)
    (h : Tracks (ThreadTrace.FaultyStep accepts worker.thread) worker engine numShards caches cluster
      answered lost)
    (hidle : cluster.dispatcher.outgoing = [])
    (hresponse : cluster.dispatcher.responses[index]? = some channel)
    (hclosed : cluster.dispatcher.channels channel = .closed)
    (hfails : cluster.trace.Fails instants (.response instants created index none) called)
    (hhandle : cluster.trace.engine.handle (.response instants created index none) = .ok engine')
    (hshards : sent called engine' ≠ [] → 0 < cluster.dispatcher.numShards)
    : ∃ request,
        Tracks (ThreadTrace.FaultyStep accepts worker.thread) worker engine numShards caches
          { trace := stepped called instants engine'
            dispatcher := sendAll (cluster.dispatcher.receive index channel) (sent called engine') }
          answered (lost ++ [request]) := by
  rcases h.drives.exists_simulates (fun _ _ hstep => hstep) hengine h.executes
    with ⟨session, hsession, hsimulates⟩
  rcases (Trace.FaultyCalls.fail hfails : cluster.trace.FaultyCalls accepts instants _ called
    ).exists_between hsimulates hsession with ⟨_, -, -, hnone⟩
  have hreceiver : ∃ receiver, cluster.trace.engine.responses[index]? = some receiver := by
    cases hfails with
    | intro _ _ receiver hreceiver => exact ⟨receiver, hreceiver⟩
  rcases hreceiver with ⟨receiver, hreceiver⟩
  have hreceivers := hsimulates.paired.responses_of_getElem? hreceiver
  rcases h.responses_receive hreceivers hresponse with ⟨hresponses, hchannel⟩
  have hready : cluster.dispatcher.channels channel ≠ .waiting := by
    rw [hclosed]
    exact nofun
  rw [sent_eq_responses hnone] at hshards ⊢
  refine ⟨receiver.request, tracks_of_stepped (fun _ _ hstep => hstep) hengine
    (h.dispatches.tail (.receive hidle hresponse hready)) h.dropped_eq hidle hresponses hshards ?_ ?_
    h.executes (h.drives.tail fun cache => .failure hfails hhandle)⟩
  . have hrequests := h.requests_eq
    rw [hreceivers, List.map_singleton, List.append_assoc] at hrequests
    exact hrequests
  . intro other hge hlt
    rw [← List.append_assoc, List.length_append, List.length_singleton] at hlt
    rcases Nat.lt_or_eq_of_le (Nat.le_of_lt_succ hlt) with hlt | rfl
    . exact h.closed other hge hlt
    . rw [← hchannel]
      exact hclosed

theorem exists_tracks_of_reachable
    (h : Reachable accepts worker
      (LlmEngine.new
        (Scheduler.new config blockSize numCpuBlocks numGpuBlocks slidingWindow heap now) tokenizer)
      numShards caches cluster)
    : ∃ answered,
        Tracks (ThreadTrace.Step accepts worker.thread) worker
          (LlmEngine.new
            (Scheduler.new config blockSize numCpuBlocks numGpuBlocks slidingWindow heap now)
            tokenizer)
          numShards caches cluster answered [] := by
  induction h with
  | refl => exact ⟨[], tracks_start _ _ _ _ _ rfl⟩
  | tail _ hstep ih =>
    rcases ih with ⟨answered, htracks⟩
    rcases htracks.step (fun _ _ hstep => hstep) (fun _ _ => .step) rfl hstep
      with ⟨answered', -, htracks'⟩
    exact ⟨answered', htracks'⟩

/--
Without a lost request the run takes no closed channel.
-/
theorem exists_tracks_of_faultyReachable
    (h : FaultyReachable accepts worker
      (LlmEngine.new
        (Scheduler.new config blockSize numCpuBlocks numGpuBlocks slidingWindow heap now) tokenizer)
      numShards caches cluster)
    : ∃ answered lost,
        Tracks (ThreadTrace.FaultyStep accepts worker.thread) worker
            (LlmEngine.new
              (Scheduler.new config blockSize numCpuBlocks numGpuBlocks slidingWindow heap now)
              tokenizer)
            numShards caches cluster answered lost
          ∧ (lost = [] → Reachable accepts worker
              (LlmEngine.new
                (Scheduler.new config blockSize numCpuBlocks numGpuBlocks slidingWindow heap now)
                tokenizer)
              numShards caches cluster) := by
  induction h with
  | refl => exact ⟨[], [], tracks_start _ _ _ _ _ rfl, fun _ => .refl⟩
  | tail _ hstep ih =>
    rcases ih with ⟨answered, lost, htracks, hreach⟩
    cases hstep with
    | step hstep =>
      rcases htracks.step (fun _ _ => .step) (fun _ _ hstep => hstep) rfl hstep
        with ⟨answered', -, htracks'⟩
      exact ⟨answered', lost, htracks', fun hlost => (hreach hlost).tail hstep⟩
    | failure hidle hresponse hclosed hfails hhandle hshards =>
      rcases htracks.failure rfl hidle hresponse hclosed hfails hhandle hshards
        with ⟨request, htracks'⟩
      exact ⟨answered, lost ++ [request], htracks', fun hnil => by simp at hnil⟩

theorem Tracks.failed_of_lost
    (h : Tracks R worker engine numShards caches cluster answered lost) (hlost : lost ≠ [])
    : (cluster.dispatcher.threads 0).status = .failed := by
  have hpos := List.length_pos_iff.mpr hlost
  refine (ModelThreadDispatcher.inv_of_reachable h.dispatches).failed_of_closed ?_
    (h.closed answered.length (Nat.le_refl _) (by rw [List.length_append]; omega))
  rw [h.requests_eq, List.length_append, List.length_append]
  omega

end Tracks

/--
The request can be executed with the cache, and the attention then finds the tokens of each sequence.
-/
def Reads (worker : ModelWorker) (request : ExecuteModelRequest) (cache : KvCache) : Prop :=
  (∃ cache', worker.executeCache request cache = .ok cache')
    ∧ ∀ cache', worker.ExecutesCache request cache cache' →
        CacheTrace.ReadsTokens worker request.sequenceGroupsMetadata cache'

/--
Whenever a request is executed after those before it, the attention reads the right tokens.
-/
def AllRead (worker : ModelWorker) (requests : List ExecuteModelRequest) : Prop :=
  ∀ i request, requests[i]? = some request → ∀ initial outputs cache,
    Leads worker initial (requests.take i) outputs cache → Reads worker request cache

theorem AllRead.concat {request : ExecuteModelRequest} (h : AllRead worker requests)
    (hlast : ∀ initial outputs cache, Leads worker initial requests outputs cache →
      Reads worker request cache)
    : AllRead worker (requests ++ [request]) := by
  intro i request' hrequest initial outputs cache hleads
  rcases Nat.lt_trichotomy i requests.length with hlt | rfl | hgt
  . rw [List.getElem?_append_left hlt] at hrequest
    rw [List.take_append_of_le_length hlt.le] at hleads
    exact h i request' hrequest initial outputs cache hleads
  . rw [List.getElem?_concat_length, Option.some.injEq] at hrequest
    rw [List.take_left] at hleads
    rw [← hrequest]
    exact hlast initial outputs cache hleads
  . rw [List.getElem?_eq_none (by simp; omega)] at hrequest
    cases hrequest

theorem AllRead.of_prefix (h : AllRead worker requests) (hbegins : answered <+: requests)
    : AllRead worker answered := by
  intro i request hrequest initial outputs cache hleads
  have hlt := (List.getElem?_eq_some_iff.mp hrequest).1
  rcases hbegins with ⟨rest, rfl⟩
  refine h i request ?_ initial outputs cache ?_
  . rw [List.getElem?_append_left hlt]
    exact hrequest
  . rw [List.take_append_of_le_length hlt.le]
    exact hleads

/--
As long as no request is lost, every request can be executed after those before it, and is then read
right.
-/
structure Inv (accepts : Session.Accepts) (worker : ModelWorker) (engine : LlmEngine)
    (numShards : Nat) (caches : Nat → KvCache) (cluster : Cluster)
    (answered : List ExecuteModelRequest) : Prop where
  tracks : Tracks (ThreadTrace.Step accepts worker.thread) worker engine numShards caches cluster
    answered []
  allRead : AllRead worker cluster.dispatcher.requests

section Run

variable {config : SchedulerConfig} {blockSize numCpuBlocks numGpuBlocks : Nat}
variable {heap : SequenceHeap} {now : Nat} {tokenizer : List Nat → Except String String}

/--
The request in flight is executed after the answered ones.
-/
theorem inv_of_tracks (hsize : worker.blockSize = blockSize) (hwindow : worker.slidingWindow = none)
    (hengine : engine = LlmEngine.new
      (Scheduler.new config blockSize numCpuBlocks numGpuBlocks none heap now) tokenizer)
    (h : Tracks (ThreadTrace.Step accepts worker.thread) worker engine numShards caches cluster
      answered [])
    (hallRead : AllRead worker answered)
    : Inv accepts worker engine numShards caches cluster answered := by
  refine ⟨h, ?_⟩
  rcases h.drives.exists_simulates (fun _ _ => .step) hengine h.executes
    with ⟨session, -, hsimulates⟩
  have hpaired := hsimulates.paired
  have hrequests := h.requests_eq
  rw [List.append_nil] at hrequests
  rw [hrequests]
  unfold LlmEngine.Paired at hpaired
  split at hpaired
  . rw [hpaired, List.map_nil, List.append_nil]
    exact hallRead
  . generalize hreceiver : ({
        request := cluster.trace.engine.currentRequest
        schedulerOutputs := cluster.trace.engine.schedulerOutputs } : Receiver) = receiver at hpaired
    rw [hpaired, List.map_singleton]
    refine hallRead.concat ?_
    intro initial outputs cache hleads
    have hfirst : cluster.trace.engine.responses[0]? = some receiver := by
      rw [hpaired]
      rfl
    have hdriven : CacheTrace.Reachable accepts worker _ initial _ := h.drives _ _ _ hleads
    rw [hengine] at hdriven
    exact ⟨hdriven.exists_executeCache hsize hwindow hfirst,
      fun _ hexecutes => hdriven.readsTokens hsize hwindow hfirst hexecutes⟩

theorem exists_inv_of_reachable (hsize : worker.blockSize = blockSize)
    (hwindow : worker.slidingWindow = none)
    (h : Reachable accepts worker
      (LlmEngine.new
        (Scheduler.new config blockSize numCpuBlocks numGpuBlocks none heap now) tokenizer)
      numShards caches cluster)
    : ∃ answered,
        Inv accepts worker
          (LlmEngine.new
            (Scheduler.new config blockSize numCpuBlocks numGpuBlocks none heap now) tokenizer)
          numShards caches cluster answered := by
  induction h with
  | refl => exact ⟨[], tracks_start _ _ _ _ _ rfl, fun _ _ hrequest => (nomatch hrequest)⟩
  | tail _ hstep ih =>
    rcases ih with ⟨answered, htracks, hallRead⟩
    rcases htracks.step (fun _ _ hstep => hstep) (fun _ _ => .step) rfl hstep
      with ⟨answered', hprefix, htracks'⟩
    exact ⟨answered', inv_of_tracks hsize hwindow rfl htracks' (hallRead.of_prefix hprefix)⟩

theorem Inv.reads {command : ModelThreadCommand} {commands : List ModelThreadCommand}
    (hinv : Inv accepts worker engine numShards caches cluster answered) (hrank : rank < numShards)
    (hreceiver : (cluster.dispatcher.threads rank).receiver = command :: commands)
    : Reads worker command.request (cluster.dispatcher.threads rank).worker := by
  have hthreads := ModelThreadDispatcher.inv_of_reachable hinv.tracks.dispatches
  rcases hthreads.rank rank (by rwa [ModelThreadDispatcher.numShards_eq hinv.tracks.dispatches])
    with ⟨pending, outputs, hself⟩
  refine hinv.allRead outputs.length command.request ?_ _ _ _ (leads_of_executes hself.executes)
  have hpending := hself.receiver_eq
  split at hpending
  . rw [hreceiver] at hpending
    have hqueue := congrArg (fun queue => (queue.map (·.request))[0]?) hself.follows.queue_eq
    rw [List.map_drop, ModelThreadDispatcher.map_request_log, ← hpending, List.getElem?_drop,
      Nat.add_zero] at hqueue
    exact hqueue.symm
  . rw [hreceiver] at hpending
    cases hpending

section Delivered

open CacheTrace (smallWorker)
open Scheduler (singleGroup waitingSequence)

def deliveredEngine : LlmEngine :=
  ThreadTrace.fresh ⟨2, 1, 8, 0, true⟩ 4

/--
Two threads have got the first request of a run.
-/
theorem exists_reachable_delivered
    : ∃ (cluster : Cluster) (receiver : Receiver),
        Reachable (fun _ _ _ => True) smallWorker deliveredEngine 2 (fun _ _ _ => none) cluster
          ∧ deliveredEngine.handle
              (ThreadTrace.submitted (singleGroup "a" 0 0) (waitingSequence [5, 6, 7]))
            = .ok cluster.trace.engine
          ∧ cluster.trace.engine.responses = [receiver]
          ∧ cluster.dispatcher.requests = [receiver.request]
          ∧ cluster.dispatcher.responses = [0]
          ∧ cluster.dispatcher.outgoing = []
          ∧ (cluster.dispatcher.threads 0).status = .running
          ∧ (cluster.dispatcher.threads 0).receiver
              = [{ request := receiver.request, sender := some 0 }]
          ∧ (cluster.dispatcher.threads 1).receiver
              = [{ request := receiver.request, sender := none }] := by
  have hhandled : (deliveredEngine.handle
      (ThreadTrace.submitted (singleGroup "a" 0 0) (waitingSequence [5, 6, 7]))).toOption.any
        (·.responses.length = 1) = true := by
    decide +kernel
  rcases Except.exists_eq_ok_of_any hhandled with ⟨handled, hhandle, hlength⟩
  rcases List.length_eq_one_iff.mp (of_decide_eq_true hlength) with ⟨receiver, hreceiver⟩
  have hfirst : Reachable (fun _ _ _ => True) smallWorker deliveredEngine 2 (fun _ _ _ => none) _ :=
    .single (.request rfl (.intro ⟨2, 2, fun _ => 2, 2⟩ (.generateRequest (singleGroup "a" 0 0) 0)
      ⟨0, 0⟩ (waitingSequence [5, 6, 7]) "" [5, 6, 7] false rfl (fun _ hgroup => (nomatch hgroup)) rfl
      trivial) rfl hhandle fun _ => by decide)
  rw [sent_eq_responses rfl, hreceiver] at hfirst
  exact ⟨_, receiver, (hfirst.tail (.turn (.deliver rfl))).tail (.turn (.deliver rfl)), hhandle,
    hreceiver, rfl, rfl, rfl, rfl, rfl, rfl⟩

/--
The first thread fails then, and the engine takes its closed channel and sends the batch again.
-/
theorem exists_faultyReachable_failed
    : ∃ cluster,
        FaultyReachable (fun _ _ _ => True) smallWorker deliveredEngine 2 (fun _ _ _ => none) cluster
          ∧ (cluster.dispatcher.threads 0).status = .failed
          ∧ cluster.dispatcher.requests.length = 2 := by
  have hretried : (deliveredEngine.handle
      (ThreadTrace.submitted (singleGroup "a" 0 0) (waitingSequence [5, 6, 7]))).toOption.any
        (fun handled => (handled.handle
            (.response ⟨4, 4, fun _ => 4, 4⟩ (fun _ => 4) 0 none)).toOption.any
          (·.responses.length = 1)) = true := by
    decide +kernel
  rcases exists_reachable_delivered with ⟨cluster, receiver, hreach, hhandle, hreceivers, hrequests,
    hresponses, hidle, hrunning, hqueue, -⟩
  rw [hhandle] at hretried
  have hretried : (cluster.trace.engine.handle
      (.response ⟨4, 4, fun _ => 4, 4⟩ (fun _ => 4) 0 none)).toOption.any (·.responses.length = 1)
        = true := hretried
  rcases Except.exists_eq_ok_of_any hretried with ⟨engine, hretry, hlength⟩
  rcases List.length_eq_one_iff.mp (of_decide_eq_true hlength) with ⟨retried, hsent⟩
  rcases exists_tracks_of_reachable hreach with ⟨answered, htracks⟩
  have hshards : 0 < cluster.dispatcher.numShards := by
    rw [ModelThreadDispatcher.numShards_eq htracks.dispatches]
    decide
  have hreceiver : cluster.trace.engine.responses[0]? = some receiver := by
    rw [hreceivers]
    rfl
  have hnone : (cluster.trace.engine.takeResponse 0).responses = [] := by
    change cluster.trace.engine.responses.eraseIdx 0 = []
    rw [hreceivers]
    rfl
  have hresponse : (cluster.dispatcher.stop 0 .failed).responses[0]? = some 0 := by
    change cluster.dispatcher.responses[0]? = some 0
    rw [hresponses]
    rfl
  have hclosed : (cluster.dispatcher.stop 0 .failed).channels 0 = .closed := by
    change ModelThreadDispatcher.close _ (cluster.dispatcher.threads 0).receiver 0 = .closed
    rw [hqueue]
    rfl
  have hlost := (hreach.faultyReachable.tail (.step (.turn (.fail hshards hrunning)))).tail
    (.failure hidle hresponse hclosed (.intro ⟨4, 4, fun _ => 4, 4⟩ (fun _ => 4) 0 receiver hreceiver)
      hretry fun _ => hshards)
  rw [sent_eq_responses hnone, hsent] at hlost
  refine ⟨_, hlost, rfl, ?_⟩
  change (cluster.dispatcher.requests ++ [retried.request]).length = 2
  rw [hrequests]
  rfl

end Delivered

/--
However far a thread is behind, the next request in its queue can be executed with its cache, and the
attention then reads the tokens of the sequences, each in its own blocks.
-/
theorem reads_of_reachable (hsize : worker.blockSize = blockSize)
    (hwindow : worker.slidingWindow = none)
    (h : Reachable accepts worker
      (LlmEngine.new
        (Scheduler.new config blockSize numCpuBlocks numGpuBlocks none heap now) tokenizer)
      numShards caches cluster)
    (hrank : rank < numShards) {command : ModelThreadCommand} {commands : List ModelThreadCommand}
    (hreceiver : (cluster.dispatcher.threads rank).receiver = command :: commands)
    : Reads worker command.request (cluster.dispatcher.threads rank).worker := by
  rcases exists_inv_of_reachable hsize hwindow h with ⟨answered, hinv⟩
  exact hinv.reads hrank hreceiver

theorem reads_of_reachable_delivered
    : ∃ (cluster : Cluster) (command : ModelThreadCommand),
        (cluster.dispatcher.threads 1).receiver = [command]
          ∧ Reads CacheTrace.smallWorker command.request (cluster.dispatcher.threads 1).worker := by
  rcases exists_reachable_delivered with ⟨cluster, receiver, hreach, -, -, -, -, -, -, -, hreceiver⟩
  exact ⟨cluster, _, hreceiver, reads_of_reachable rfl rfl hreach (by decide) hreceiver⟩

/--
A run with any number of threads, in any order of their turns and also when some of them fail, is a
run of the engine with one thread that executes a request when its response is taken and fails where
the channel is closed. The first thread has executed what was answered, and when a request is lost it
has failed and all later ones are lost too.
-/
theorem refines_of_faultyReachable {slidingWindow : Option Nat}
    (h : FaultyReachable accepts worker
      (LlmEngine.new
        (Scheduler.new config blockSize numCpuBlocks numGpuBlocks slidingWindow heap now) tokenizer)
      numShards caches cluster)
    : ∃ answered lost outputs cache,
        cluster.dispatcher.requests
            = answered ++ lost ++ cluster.trace.engine.responses.map (·.request)
          ∧ Replica.Executes (Executes worker 0) (caches 0) answered outputs cache
          ∧ (∀ channel, answered.length ≤ channel → channel < (answered ++ lost).length →
              cluster.dispatcher.channels channel = .closed)
          ∧ (lost ≠ [] → (cluster.dispatcher.threads 0).status = .failed)
          ∧ Relation.ReflTransGen (ThreadTrace.FaultyStep accepts worker.thread)
              (.start
                (LlmEngine.new
                  (Scheduler.new config blockSize numCpuBlocks numGpuBlocks slidingWindow heap now)
                  tokenizer)
                (caches 0))
              ⟨cluster.trace, cache⟩
          ∧ (lost = [] → ThreadTrace.Reachable accepts worker.thread
              (LlmEngine.new
                (Scheduler.new config blockSize numCpuBlocks numGpuBlocks slidingWindow heap now)
                tokenizer)
              (caches 0) ⟨cluster.trace, cache⟩) := by
  rcases exists_tracks_of_faultyReachable h with ⟨answered, lost, htracks, hreach⟩
  rcases htracks.executes with ⟨outputs, cache, hexecutes⟩
  refine ⟨answered, lost, outputs, cache, htracks.requests_eq, hexecutes, htracks.closed,
    htracks.failed_of_lost, htracks.drives _ _ _ (leads_of_executes hexecutes), ?_⟩
  intro hlost
  rcases exists_tracks_of_reachable (hreach hlost) with ⟨answered', htracks'⟩
  have hsame := htracks.requests_eq.symm.trans htracks'.requests_eq
  rw [hlost, List.append_nil, List.append_nil, List.append_left_inj] at hsame
  subst hsame
  exact htracks'.drives _ _ _ (leads_of_executes hexecutes)

/--
The first thread fails at the first request. The engine takes its closed channel and sends the batch
again.
-/
theorem refines_of_faultyReachable_failed
    : ∃ (cluster : Cluster) (answered lost : List ExecuteModelRequest) (cache : KvCache),
        (cluster.dispatcher.threads 0).status = .failed
          ∧ cluster.dispatcher.requests.length = 2
          ∧ cluster.dispatcher.requests
              = answered ++ lost ++ cluster.trace.engine.responses.map (·.request)
          ∧ Relation.ReflTransGen
              (ThreadTrace.FaultyStep (fun _ _ _ => True) CacheTrace.smallWorker.thread)
              (.start deliveredEngine fun _ _ => none)
              ⟨cluster.trace, cache⟩ := by
  rcases exists_faultyReachable_failed with ⟨cluster, hreach, hfailed, hlength⟩
  rcases refines_of_faultyReachable hreach
    with ⟨answered, lost, outputs, cache, hrequests, -, -, -, hthread, -⟩
  exact ⟨cluster, answered, lost, cache, hfailed, hlength, hrequests, hthread⟩

theorem exists_turn (hsize : worker.blockSize = blockSize) (hwindow : worker.slidingWindow = none)
    (h : Reachable accepts worker
      (LlmEngine.new
        (Scheduler.new config blockSize numCpuBlocks numGpuBlocks none heap now) tokenizer)
      numShards caches cluster)
    (hshards : 0 < numShards) (hrunning : (cluster.dispatcher.threads 0).status = .running)
    (hbusy : cluster.dispatcher.outgoing ≠ [] ∨ (cluster.dispatcher.threads 0).receiver ≠ [])
    : ∃ dispatcher,
        ModelThreadDispatcher.Turn (Executes worker) cluster.dispatcher dispatcher
          ∧ (dispatcher.threads 0).status = .running
          ∧ 2 * dispatcher.outgoing.length + (dispatcher.threads 0).receiver.length
              < 2 * cluster.dispatcher.outgoing.length
                + (cluster.dispatcher.threads 0).receiver.length := by
  rcases exists_inv_of_reachable hsize hwindow h with ⟨answered, hinv⟩
  have hnumShards := ModelThreadDispatcher.numShards_eq hinv.tracks.dispatches
  cases hout : cluster.dispatcher.outgoing with
  | cons entry rest =>
    rcases entry with ⟨rank, command⟩
    refine ⟨_, .deliver hout, ?_, ?_⟩
    . rw [ModelThreadDispatcher.status_deliver, hrunning]
    . have hlength := ModelThreadDispatcher.length_receiver_deliver cluster.dispatcher rank 0 command
        rest
      have hrest : (cluster.dispatcher.deliver rank command rest).outgoing = rest :=
        ModelThreadDispatcher.outgoing_deliver
      rw [hrest, List.length_cons]
      omega
  | nil =>
    cases hreceiver : (cluster.dispatcher.threads 0).receiver with
    | nil => simp [hout, hreceiver] at hbusy
    | cons command commands =>
      rcases (hinv.reads hshards hreceiver).1 with ⟨cache', hcache⟩
      have hexec : Executes worker 0 command.request (cluster.dispatcher.threads 0).worker
          (ModelExecutor.sample (fun _ => ⟨0, 0, false⟩) command.request.sequenceGroupsMetadata)
          cache' :=
        ⟨ModelWorker.executesCache_of_executeCache hcache, fun _ => ⟨_, rfl⟩⟩
      have hthread := (ModelThreadDispatcher.inv_of_reachable hinv.tracks.dispatches).threads_reply
        (by rwa [hnumShards]) hrunning hreceiver
        (ModelExecutor.sample (fun _ => ⟨0, 0, false⟩) command.request.sequenceGroupsMetadata) cache'
      refine ⟨_, .execute (by rwa [hnumShards]) hrunning hreceiver hexec, ?_, ?_⟩
      . rw [hthread, hrunning]
      . rw [hthread, ModelThreadDispatcher.outgoing_reply]
        simp [hout]

theorem exists_answers_of_reachable (hsize : worker.blockSize = blockSize)
    (hwindow : worker.slidingWindow = none)
    (h : Reachable accepts worker
      (LlmEngine.new
        (Scheduler.new config blockSize numCpuBlocks numGpuBlocks none heap now) tokenizer)
      numShards caches cluster)
    (hshards : 0 < numShards) (hrunning : (cluster.dispatcher.threads 0).status = .running)
    : ∃ dispatcher,
        Relation.ReflTransGen (ModelThreadDispatcher.Turn (Executes worker)) cluster.dispatcher
            dispatcher
          ∧ ∀ channel < cluster.dispatcher.requests.length,
              ∃ output, dispatcher.channels channel = .sent output := by
  generalize hsteps : 2 * cluster.dispatcher.outgoing.length
    + (cluster.dispatcher.threads 0).receiver.length = steps
  induction steps using Nat.strong_induction_on generalizing cluster with
  | _ steps ih =>
    by_cases hbusy : cluster.dispatcher.outgoing ≠ [] ∨ (cluster.dispatcher.threads 0).receiver ≠ []
    . rcases exists_turn hsize hwindow h hshards hrunning hbusy
        with ⟨dispatcher, hturn, hrunning', hlt⟩
      have hreach : Reachable accepts worker _ numShards caches { cluster with dispatcher } :=
        h.tail (.turn hturn)
      rcases ih _ (hsteps ▸ hlt) hreach hrunning' rfl with ⟨last, hturns, hanswers⟩
      refine ⟨last, .head hturn hturns, ?_⟩
      rw [← hturn.sameTask.requests_eq]
      exact hanswers
    . -- nothing is in flight to the first thread
      rw [not_or, not_not, not_not] at hbusy
      rcases hbusy with ⟨hout, hreceiver⟩
      rcases exists_inv_of_reachable hsize hwindow h with ⟨answered, hinv⟩
      refine ⟨cluster.dispatcher, .refl, ?_⟩
      intro channel hchannel
      have hdispatches := ModelThreadDispatcher.inv_of_reachable hinv.tracks.dispatches
      cases hstate : cluster.dispatcher.channels channel with
      | sent output => exact ⟨output, rfl⟩
      | closed =>
        rw [hdispatches.failed_of_closed hchannel hstate] at hrunning
        cases hrunning
      | waiting =>
        rcases hdispatches.exists_of_waiting hchannel hstate with ⟨command, hcommand, -⟩
        unfold ModelThreadDispatcher.outgoingOf at hcommand
        simp [hout, hreceiver] at hcommand

/--
While the first thread runs, turns alone bring the response to every request: the engine never waits
for one that cannot come.
-/
theorem exists_answers_of_faultyReachable (hsize : worker.blockSize = blockSize)
    (hwindow : worker.slidingWindow = none)
    (h : FaultyReachable accepts worker
      (LlmEngine.new
        (Scheduler.new config blockSize numCpuBlocks numGpuBlocks none heap now) tokenizer)
      numShards caches cluster)
    (hshards : 0 < numShards) (hrunning : (cluster.dispatcher.threads 0).status = .running)
    : ∃ dispatcher,
        Relation.ReflTransGen (ModelThreadDispatcher.Turn (Executes worker)) cluster.dispatcher
            dispatcher
          ∧ ∀ channel < cluster.dispatcher.requests.length,
              ∃ output, dispatcher.channels channel = .sent output := by
  rcases exists_tracks_of_faultyReachable h with ⟨answered, lost, htracks, hreach⟩
  by_cases hlost : lost = []
  . exact exists_answers_of_reachable hsize hwindow (hreach hlost) hshards hrunning
  . rw [htracks.failed_of_lost hlost] at hrunning
    cases hrunning

theorem exists_answers_of_faultyReachable_delivered
    : ∃ (cluster : Cluster) (dispatcher : ModelThreadDispatcher KvCache),
        Relation.ReflTransGen (ModelThreadDispatcher.Turn (Executes CacheTrace.smallWorker))
            cluster.dispatcher dispatcher
          ∧ ∀ channel < cluster.dispatcher.requests.length,
              ∃ output, dispatcher.channels channel = .sent output := by
  rcases exists_reachable_delivered with ⟨cluster, receiver, hreach, -, -, -, -, -, hrunning, -⟩
  exact ⟨cluster, exists_answers_of_faultyReachable rfl rfl hreach.faultyReachable (by decide)
    hrunning⟩

end Run

end Cluster

end AtomaInfer
