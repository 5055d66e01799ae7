import AtomaInfer.Engine.Executed
import AtomaInfer.Scheduler.Steady

/-!
Runs of the engine in which the model executor may fail. The engine then schedules again, although
the sequences of the batch have not advanced.
-/

namespace AtomaInfer

open Scheduler

namespace Session

/--
A prompt with at least one token, in a group with a new request identifier.
-/
def acceptsRequests : Accepts :=
  fun arrived group sequence =>
    (∀ other ∈ arrived, other.requestId ≠ group.requestId)
      ∧ sequence.sequenceData.promptTokenIds ≠ []

/--
What holds in every state of a run in which batches may be dropped.
-/
structure Recoverable (session : Session) : Prop where
  steady : session.Steady
  held_le : session.scheduler.config.held ≤ (session.arrived : Multiset SequenceGroup)
  nodup : (session.arrived.map (·.requestId)).Nodup

variable {session session' : Session}

theorem Recoverable.distinct (h : session.Recoverable) : session.DistinctRequests := by
  have hle := Multiset.map_le_map (f := (·.requestId)) h.held_le
  rw [held_config] at hle
  exact Multiset.nodup_of_le hle h.nodup

theorem Recoverable.ready (h : session.Recoverable) : session.scheduler.Ready session.refs :=
  h.steady.ready h.distinct

theorem Recoverable.step (h : session.Recoverable) (hstep : Step acceptsRequests session session')
    : session'.Recoverable := by
  have hsteady := hstep.steady h.steady h.distinct fun _ _ sequence haccepts => by
    have hlength := List.length_pos_iff.mpr haccepts.2
    unfold Sequence.length SequenceData.length
    omega
  cases hstep with
  | arrive hstep =>
    cases hstep with
    | intro group seq sequence prompt promptTokenIds returnFullText hgroup hfresh hnew haccepts =>
      refine ⟨hsteady, ?_, ?_⟩
      . rw [held_receive]
        have hadd : (session.receive group seq sequence).arrived
            = (group ::ₘ (session.arrived : Multiset SequenceGroup)) := by
          rw [← coe_add_singleton]
          rfl
        rw [hadd]
        exact Multiset.cons_le_cons group h.held_le
      . have hadd : (session.receive group seq sequence).arrived.map (·.requestId)
            = session.arrived.map (·.requestId) ++ [group.requestId] := by
          simp [receive]
        rw [hadd, List.nodup_append]
        refine ⟨h.nodup, List.nodup_singleton _, ?_⟩
        intro requestId hmem requestId' hmem'
        rcases List.mem_map.mp hmem with ⟨other, hother, rfl⟩
        rw [List.mem_singleton.mp hmem']
        exact haccepts.1 other hother
  | schedule hstep =>
    cases hstep with
    | intro instants metadata outputs scheduler hpending hschedule =>
      exact ⟨hsteady, (h.steady.inv.reschedules hschedule).held_le.trans h.held_le, h.nodup⟩
  | update hstep =>
    cases hstep with
    | intro metadata outputs heap hpending hupdates =>
      exact ⟨hsteady, (session.held_update_le heap).trans h.held_le, h.nodup⟩

/--
The batch is dropped, and nothing else is done.
-/
def drop (session : Session) : Session :=
  { session with pending := none }

inductive FaultyStep (accepts : Accepts) (session : Session) : Session → Prop where
  | step {session' : Session} (h : Step accepts session session') : FaultyStep accepts session session'
  | drop : FaultyStep accepts session session.drop

/--
A run in which batches may be dropped.
-/
def FaultySteps (accepts : Accepts) : Session → Session → Prop :=
  Relation.ReflTransGen (FaultyStep accepts)

variable {accepts : Accepts}

theorem Steps.faultySteps (h : session.Steps accepts session')
    : session.FaultySteps accepts session' := by
  induction h with
  | refl => exact .refl
  | tail _ hstep ih => exact ih.tail (.step hstep)

theorem Inv.drop (h : session.Inv) : session.drop.Inv :=
  ⟨h.ok, fun _ _ hsome => (by cases hsome)⟩

theorem FaultySteps.inv (h : session.FaultySteps accepts session') (hinv : session.Inv)
    : session'.Inv := by
  induction h with
  | refl => exact hinv
  | tail _ hstep ih =>
    cases hstep with
    | step hstep => exact Steps.inv (.single hstep) ih
    | drop => exact ih.drop

theorem FaultySteps.sameConfig (h : session.FaultySteps accepts session') (hinv : session.Inv)
    : session.scheduler.memory.blockManager.SameConfig session'.scheduler.memory.blockManager := by
  induction h with
  | refl => exact .refl _
  | tail hsteps hstep ih =>
    cases hstep with
    | step hstep => exact ih.trans (Steps.sameConfig (.single hstep) (FaultySteps.inv hsteps hinv)).2
    | drop => exact ih

theorem FaultySteps.recoverable (h : session.FaultySteps acceptsRequests session')
    (hrecoverable : session.Recoverable) : session'.Recoverable := by
  induction h with
  | refl => exact hrecoverable
  | tail _ hstep ih =>
    cases hstep with
    | step hstep => exact ih.step hstep
    | drop =>
      exact ⟨⟨ih.steady.inv.drop, ih.steady.unwindowed, ih.steady.single, ih.steady.limits,
        ih.steady.width_le⟩, ih.held_le, ih.nodup⟩

end Session

namespace Trace

open Session (acceptsRequests)

/--
The batch has no outputs because its execution has failed.
-/
inductive Fails (trace : Trace) : Instants → LlmEngine.Event → Trace → Prop where
  | intro (instants : Instants) (created : SequenceRef → Nat) (index : Nat) (receiver : Receiver)
      (hreceiver : trace.engine.responses[index]? = some receiver)
    : Fails trace instants (.response instants created index none)
        { trace with engine := trace.engine.takeResponse index }

/--
The traces in which `step` is called when executions may fail.
-/
inductive FaultyCalls (accepts : Session.Accepts) (trace : Trace) (instants : Instants)
    (event : LlmEngine.Event) (called : Trace) : Prop where
  | call (h : trace.Calls accepts instants event called)
  | fail (h : trace.Fails instants event called)

/--
A step of a run in which executions may fail. The events at which `step` is called meet `P`, a
condition on the state before them.
-/
inductive FaultyStep (accepts : Session.Accepts) (P : LlmEngine → LlmEngine.Event → Prop)
    (trace : Trace) : Trace → Prop where
  | wait {instants : Instants} {event : LlmEngine.Event} {received : Trace}
      (h : trace.Receives accepts instants event received)
      (hbusy : received.engine.isIdle = false)
    : FaultyStep accepts P trace received
  | schedule {instants : Instants} {event : LlmEngine.Event} {called : Trace} {engine : LlmEngine}
      (h : trace.FaultyCalls accepts instants event called) (hP : P trace.engine event)
      (hhandle : trace.engine.handle event = .ok engine)
    : FaultyStep accepts P trace {
        called with
        engine
        sampled := reset called.sampled (called.engine.scheduler.recomputed instants) }
  | disconnect (channel : Channel)
    : FaultyStep accepts P trace {
        trace with
        engine.disconnected := channel :: trace.engine.disconnected }

def FaultyReachable (accepts : Session.Accepts) (P : LlmEngine → LlmEngine.Event → Prop)
    (engine : LlmEngine) (trace : Trace) : Prop :=
  Relation.ReflTransGen (FaultyStep accepts P) (start engine) trace

/--
The states of such a run: those between two events, and those in which `step` is called.
-/
inductive FaultyVisits (accepts : Session.Accepts) (P : LlmEngine → LlmEngine.Event → Prop)
    (engine : LlmEngine) : Trace → Prop where
  | between {trace : Trace} (h : FaultyReachable accepts P engine trace)
    : FaultyVisits accepts P engine trace
  | calls {trace called : Trace} {instants : Instants} {event : LlmEngine.Event}
      (h : FaultyReachable accepts P engine trace)
      (hcalls : trace.FaultyCalls accepts instants event called) (hP : P trace.engine event)
    : FaultyVisits accepts P engine called

variable {accepts : Session.Accepts} {P : LlmEngine → LlmEngine.Event → Prop}
variable {trace trace' called : Trace} {session : Session} {instants : Instants}
variable {event : LlmEngine.Event} {engine : LlmEngine}

theorem Fails.handle_eq (h : trace.Fails instants event called)
    : trace.engine.handle event = called.engine.step instants := by
  cases h with
  | intro created index receiver hreceiver => exact LlmEngine.handle_failure hreceiver

theorem FaultyCalls.handle_eq (h : trace.FaultyCalls accepts instants event called)
    (hhandle : trace.engine.handle event = .ok engine)
    : ∃ stepped responseSenders sent,
        called.engine.step instants = .ok stepped
          ∧ engine = { stepped with responseSenders, sent } := by
  cases h with
  | call hcalls => exact hcalls.handle_eq hhandle
  | fail hfails =>
    rw [hfails.handle_eq] at hhandle
    exact ⟨engine, _, _, hhandle, rfl⟩

theorem FaultyCalls.exists_between (h : trace.FaultyCalls accepts instants event called)
    (hsimulates : trace.Simulates session) (hinv : session.Inv)
    : ∃ session', session.FaultySteps accepts session' ∧ called.Between session'
        ∧ called.engine.responses = [] := by
  cases h with
  | call hcalls =>
    rcases hcalls.exists_between hsimulates hinv with ⟨session', hsteps, hbetween, hnone⟩
    exact ⟨session', hsteps.faultySteps, hbetween, hnone⟩
  | fail hfails =>
    cases hfails with
    | intro created index receiver hreceiver =>
      exact ⟨session.drop, .single .drop, ⟨hsimulates.scheduler_eq, hsimulates.arrived_eq, rfl⟩,
        (hsimulates.paired.of_getElem? hreceiver).2.2⟩

/--
A run in which executions may fail is one of a session in which batches may be dropped.
-/
theorem FaultyStep.simulates (h : FaultyStep accepts P trace trace')
    (hsimulates : trace.Simulates session) (hinv : session.Inv)
    : ∃ session', session.FaultySteps accepts session' ∧ trace'.Simulates session' := by
  cases h with
  | wait hreceives hbusy =>
    rcases hreceives.simulates hsimulates with ⟨received, harrives, hreceived⟩
    exact ⟨received, .single (.step (.arrive harrives)), hreceived⟩
  | schedule hcalls hP hhandle =>
    rcases hcalls.exists_between hsimulates hinv with ⟨between, hsteps, hbetween, hnone⟩
    rcases hcalls.handle_eq hhandle with ⟨stepped, responseSenders, sent, hstep, hengine⟩
    rcases hbetween.simulates (hsteps.inv hinv) hnone hstep hengine
      with ⟨session', hschedules, hsimulates'⟩
    exact ⟨session', hsteps.tail (.step (.schedule hschedules)), hsimulates'⟩
  | disconnect channel =>
    exact ⟨session, .refl, hsimulates.scheduler_eq, hsimulates.arrived_eq, hsimulates.pending_eq,
      hsimulates.paired.of_eq rfl rfl rfl, hsimulates.nodup⟩

theorem simulates_of_faultyReachable {scheduler : Scheduler}
    {tokenizer : List Nat → Except String String} (hinv : (Session.start scheduler).Inv)
    (h : FaultyReachable accepts P (LlmEngine.new scheduler tokenizer) trace)
    : ∃ session, (Session.start scheduler).FaultySteps accepts session ∧ trace.Simulates session := by
  induction h with
  | refl => exact ⟨_, .refl, rfl, rfl, .inr ⟨rfl, rfl⟩, rfl, List.nodup_nil⟩
  | tail _ hstep ih =>
    rcases ih with ⟨session, hsteps, hsimulates⟩
    rcases hstep.simulates hsimulates (hsteps.inv hinv) with ⟨session', hsteps', hsimulates'⟩
    exact ⟨session', hsteps.trans hsteps', hsimulates'⟩

section Runs

variable {maxNumBatchedTokens maxNumSequences maxModelLen : Nat} {delayFactor : ℚ}
variable {enableChunkedPrefill : Bool} {config : SchedulerConfig}
variable {blockSize numCpuBlocks numGpuBlocks : Nat} {heap : SequenceHeap} {now : Nat}
variable {tokenizer : List Nat → Except String String}

theorem exists_recoverable
    (hconfig : SchedulerConfig.new maxNumBatchedTokens maxNumSequences maxModelLen delayFactor
      enableChunkedPrefill = .ok config)
    (h : FaultyReachable acceptsRequests P (LlmEngine.new
      (Scheduler.new config blockSize numCpuBlocks numGpuBlocks none heap now) tokenizer) trace)
    : ∃ session : Session, session.Recoverable ∧ trace.Simulates session := by
  rcases Except.bind_eq_ok.mp hconfig with ⟨_, hverify, hpure⟩
  cases hpure
  have hsteady := Session.steady_start hverify blockSize numCpuBlocks numGpuBlocks heap now
  rcases simulates_of_faultyReachable hsteady.inv h with ⟨session, hsteps, hsimulates⟩
  refine ⟨session, hsteps.recoverable ⟨hsteady, ?_, List.nodup_nil⟩, hsimulates⟩
  rw [Session.held_config]
  exact le_rfl

/--
After a failed execution the engine goes on just when the scheduler does not get stuck.
-/
theorem recovers_iff
    (hconfig : SchedulerConfig.new maxNumBatchedTokens maxNumSequences maxModelLen delayFactor
      enableChunkedPrefill = .ok config)
    (h : FaultyReachable acceptsRequests (fun _ _ => True) (LlmEngine.new
      (Scheduler.new config blockSize numCpuBlocks numGpuBlocks none heap now) tokenizer) trace)
    {index : Nat} {receiver : Receiver} (hreceiver : trace.engine.responses[index]? = some receiver)
    (instants : Instants) (created : SequenceRef → Nat)
    : (∃ engine, trace.engine.handle (.response instants created index none) = .ok engine)
        ↔ ¬ trace.engine.scheduler.Stuck instants := by
  rcases exists_recoverable hconfig h with ⟨session, hrecoverable, hsimulates⟩
  have hready := hrecoverable.ready
  rw [hsimulates.scheduler_eq] at hready
  have hfails : trace.Fails instants (.response instants created index none) _ :=
    .intro instants created index receiver hreceiver
  rw [← hready.exists_schedule_iff, hfails.handle_eq]
  constructor
  . rintro ⟨engine, hstep⟩
    rcases LlmEngine.step_eq_ok hstep with ⟨metadata, outputs, scheduler, hschedule, -⟩
    exact ⟨metadata, outputs, scheduler, hschedule⟩
  . rintro ⟨metadata, outputs, scheduler, hschedule⟩
    have hschedule : (trace.engine.takeResponse index).scheduler.schedule instants
        = .ok (metadata, outputs, scheduler) := hschedule
    unfold LlmEngine.step
    rw [hschedule]
    simp only [Except.mapError, bind, Except.bind]
    split
    . exact ⟨_, rfl⟩
    . exact ⟨_, rfl⟩

end Runs

/--
An engine for blocks of one token, before any request.
-/
def idle (config : SchedulerConfig) : LlmEngine :=
  LlmEngine.new (Scheduler.new config 1 4 4 none (fun _ => waitingSequence []) 0) fun _ => .ok ""

/--
The first request of a run, with one token.
-/
def firstRequest : LlmEngine.Event :=
  .request ⟨2, 2, fun _ => 2, 2⟩ [waitingSequence [5]] (.generateRequest (singleGroup "a" 0 0) 0)

/--
The model executor does not answer its first batch.
-/
def firstFailure : LlmEngine.Event :=
  .response ⟨4, 4, fun _ => 4, 4⟩ (fun _ => 4) 0 none

theorem exists_faultyReachable (config : SchedulerConfig) {p : LlmEngine → Bool}
    (hP : P (idle config) firstRequest) (h : ((idle config).handle firstRequest).toOption.any (fun engine =>
      engine.responses[0]?.isSome && p engine) = true)
    : ∃ trace receiver,
        FaultyReachable acceptsRequests P (idle config) trace
          ∧ trace.engine.responses[0]? = some receiver
          ∧ p trace.engine = true := by
  rcases Except.exists_eq_ok_of_any h with ⟨engine, hengine, h⟩
  rw [Bool.and_eq_true, Option.isSome_iff_exists] at h
  rcases h with ⟨⟨receiver, hreceiver⟩, hp⟩
  have hnew : Sequence.new "" [5] 1 false = .ok (waitingSequence [5]) := by decide +kernel
  refine ⟨_, receiver, .single (.schedule (.call (.request (.intro ⟨2, 2, fun _ => 2, 2⟩
    (.generateRequest (singleGroup "a" 0 0) 0) ⟨0, 0⟩ (waitingSequence [5]) "" [5] false rfl ?_ hnew
    ⟨?_, by decide⟩) rfl)) hP hengine), hreceiver, hp⟩
  . intro group hgroup
    cases hgroup
  . intro other hother
    cases hother

/--
With chunked prefills the prompt is computed again.
-/
theorem recovers_iff_chunked
    : ∃ config trace,
        SchedulerConfig.new 2 2 2 0 true = .ok config
          ∧ FaultyReachable acceptsRequests (fun _ _ => True) (idle config) trace
          ∧ (∃ engine, trace.engine.handle firstFailure = .ok engine
              ∧ engine.responses.length = 1)
          ∧ ¬ trace.engine.scheduler.Stuck ⟨4, 4, fun _ => 4, 4⟩ := by
  have hconfig : SchedulerConfig.new 2 2 2 0 true = .ok ⟨2, 2, 2, 0, true⟩ := rfl
  rcases exists_faultyReachable ⟨2, 2, 2, 0, true⟩ (P := fun _ _ => True) (p := fun engine =>
    (engine.handle firstFailure).toOption.any fun engine => engine.responses.length = 1)
    trivial (by decide +kernel) with ⟨trace, receiver, hreach, hreceiver, hp⟩
  rcases Except.exists_eq_ok_of_any hp with ⟨engine, hhandle, hlength⟩
  exact ⟨_, trace, hconfig, hreach, ⟨engine, hhandle, of_decide_eq_true hlength⟩,
    (recovers_iff hconfig hreach hreceiver _ _).mp ⟨engine, hhandle⟩⟩

/--
The default policy does not take a running group whose prompt is not computed, and the engine stops.
-/
theorem not_recovers_default
    : ∃ config trace receiver,
        SchedulerConfig.new 2 2 2 0 false = .ok config
          ∧ FaultyReachable acceptsRequests (fun _ _ => True) (idle config) trace
          ∧ trace.engine.responses[0]? = some receiver
          ∧ ¬ ∃ engine, trace.engine.handle firstFailure = .ok engine := by
  rcases exists_faultyReachable ⟨2, 2, 2, 0, false⟩ (P := fun _ _ => True) (p := fun engine =>
    (engine.handle firstFailure).toOption.isNone)
    trivial (by decide +kernel) with ⟨trace, receiver, hreach, hreceiver, hp⟩
  refine ⟨_, trace, receiver, rfl, hreach, hreceiver, ?_⟩
  rintro ⟨engine, hhandle⟩
  rw [hhandle] at hp
  cases hp

end Trace

end AtomaInfer
