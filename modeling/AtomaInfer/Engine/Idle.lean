import AtomaInfer.Engine.Run
import AtomaInfer.Scheduler.Stranded

/-!
The engine is idle when no request is in flight. It then waits for a new request.
-/

namespace AtomaInfer

namespace LlmEngine

open Scheduler

/--
The call of `step` at the event, if there is one, strands no group.
-/
def StrandsNothing (engine : LlmEngine) (event : Event) : Prop :=
  ∀ called instants, engine.CallsStep event called → event.instants = some instants →
    ¬ called.scheduler.Strands instants

/--
With an empty batch the engine holds no groups.
-/
structure HoldsNothing (engine : LlmEngine) : Prop where
  metadata : engine.sequenceGroupsMetadata = []
  waiting : engine.scheduler.waiting = []
  running : engine.scheduler.running = []
  swapped : engine.scheduler.swapped = []

variable {engine engine' : LlmEngine} {event : Event}

theorem holdsNothing_of_step {instants : Instants} (h : engine.step instants = .ok engine')
    (hdelay : engine.scheduler.schedulerConfig.delayFactor = 0)
    (hstrands : ¬ engine.scheduler.Strands instants)
    : engine'.scheduler.schedulerConfig.delayFactor = 0
        ∧ (engine'.schedulerOutputs.isEmpty = true → engine'.HoldsNothing) := by
  rcases step_eq_ok h with ⟨metadata, outputs, scheduler, hschedule, hmetadata, houtputs, -, hengine⟩
  have hscheduler : engine'.scheduler = scheduler := by rw [hengine]
  refine ⟨?_, ?_⟩
  . rw [hscheduler, Scheduler.schedulerConfig_of_schedule hschedule]
    exact hdelay
  . rw [houtputs]
    intro hempty
    rcases Scheduler.queues_of_schedule hschedule hdelay hstrands hempty
      with ⟨hnil, hwaiting, hrunning, hswapped⟩
    refine ⟨hmetadata.trans hnil, ?_, ?_, ?_⟩
    all_goals
      rw [hscheduler]
      assumption

theorem holdsNothing_of_handle (hhandle : engine.handle event = .ok engine')
    (hstrands : engine.StrandsNothing event)
    (h : engine.scheduler.schedulerConfig.delayFactor = 0
      ∧ (engine.schedulerOutputs.isEmpty = true → engine.HoldsNothing))
    : engine'.scheduler.schedulerConfig.delayFactor = 0
        ∧ (engine'.schedulerOutputs.isEmpty = true → engine'.HoldsNothing) := by
  rcases handle_cases hhandle
    with ⟨instants, called, stepped, _, _, hinstants, hcalls, hstep, rfl⟩ | hwaits
  . have hdelay : called.scheduler.schedulerConfig.delayFactor = 0 := by
      rw [hcalls.keeps.1]
      exact h.1
    rcases holdsNothing_of_step hstep hdelay (hstrands _ _ hcalls hinstants)
      with ⟨hdelay', hnothing⟩
    refine ⟨hdelay', fun hempty => ?_⟩
    rcases hnothing hempty with ⟨hmetadata, hwaiting, hrunning, hswapped⟩
    exact ⟨hmetadata, hwaiting, hrunning, hswapped⟩
  . cases hwaits with
    | request instants sequences request hbusy =>
      refine ⟨by cases request <;> exact h.1, fun hempty => ?_⟩
      -- an engine with an empty batch is idle and calls `step`
      have houtputs : engine.schedulerOutputs.isEmpty = true := by
        cases request <;> exact hempty
      have hidle : engine.isIdle = true := by
        unfold isIdle
        rw [(h.2 houtputs).metadata, houtputs]
        rfl
      refine absurd ?_ (Bool.eq_false_iff.mp hbusy)
      cases request <;> exact hidle
    | stray => exact h
    | disconnect channel =>
      refine ⟨h.1, fun hempty => ?_⟩
      rcases h.2 hempty with ⟨hmetadata, hwaiting, hrunning, hswapped⟩
      exact ⟨hmetadata, hwaiting, hrunning, hswapped⟩

theorem ReachableWith.reachable {P : LlmEngine → Event → Prop} {initial : LlmEngine}
    (h : ReachableWith P initial engine) : Reachable initial engine := by
  induction h with
  | init => exact .init
  | step _ _ hhandle ih => exact ih.step trivial hhandle

/--
Without a delay, an engine that is idle holds no groups, as long as no call of `step` strands one.
-/
theorem queues_of_idle (config : SchedulerConfig) (hdelay : config.delayFactor = 0)
    (blockSize numCpuBlocks numGpuBlocks : Nat) (slidingWindow : Option Nat) (heap : SequenceHeap)
    (now : Nat) (tokenizer : List Nat → Except String String)
    (h : ReachableWith StrandsNothing
      (LlmEngine.new (Scheduler.new config blockSize numCpuBlocks numGpuBlocks slidingWindow heap now)
        tokenizer) engine)
    (hidle : engine.responses = [])
    : engine.scheduler.waiting = [] ∧ engine.scheduler.running = [] ∧ engine.scheduler.swapped = []
    := by
  have hnothing : engine.scheduler.schedulerConfig.delayFactor = 0
      ∧ (engine.schedulerOutputs.isEmpty = true → engine.HoldsNothing) := by
    clear hidle
    induction h with
    | init => exact ⟨hdelay, fun _ => ⟨rfl, rfl, rfl, rfl⟩⟩
    | step _ hstrands hhandle ih => exact holdsNothing_of_handle hhandle hstrands ih
  have hpaired := paired_of_reachable h.reachable
  unfold Paired at hpaired
  rw [hidle] at hpaired
  split at hpaired
  . next hempty =>
    rcases hnothing.2 hempty with ⟨-, hwaiting, hrunning, hswapped⟩
    exact ⟨hwaiting, hrunning, hswapped⟩
  . cases hpaired

section Checked

/--
No iteration of a call of `schedule` without chunked prefills takes a branch that strands a group.
-/
def checkStrands (scheduler : Scheduler) (instants : Instants) : Bool :=
  !scheduler.schedulerConfig.enableChunkedPrefill
    && scheduler.swapped.isEmpty
    && (scheduler.beforeRunning instants).toOption.all (fun before =>
      ((runningLoop false).states (before.runningStart instants)).all (fun vars =>
          vars.current.all (fun current => vars.scheduler.canAppendSlots current.1)
            && vars.runningQueue.head?.all fun group =>
              (vars.scheduler.getNumTokens group .running false vars.budget).toOption.all (0 < ·))
        && ((runningLoop false).run (before.runningStart instants)).toOption.all fun running =>
          ((swappedLoop false).states (SwappedVars.start running.scheduler before.remainingSwapped
            running.budget instants.swapped)).all (·.swappedQueue.isEmpty))
    && ((prefillLoop false instants.prefills).states (PrefillVars.start scheduler scheduler.waiting
        (scheduler.includeRunning scheduler.newBudget))).all fun vars =>
      vars.waitingQueue.head?.all fun group =>
        vars.scheduler.memory.blockManager.canAllocate group vars.scheduler.memory.sequences ≠ .later
          && (vars.scheduler.getNumTokens group .waiting false vars.budget).toOption.all
            fun numNewTokens => vars.canSchedule numNewTokens
              (group.getMaxNumRunningSeqs vars.scheduler.memory.sequences) ≠ .ok false

theorem not_strands_of_checkStrands {scheduler : Scheduler} {instants : Instants}
    (h : checkStrands scheduler instants = true) : ¬ scheduler.Strands instants := by
  simp only [checkStrands, Bool.and_eq_true, Bool.not_eq_true', List.isEmpty_iff] at h
  rcases h with ⟨⟨⟨hpolicy, hnone⟩, hbefore⟩, hprefills⟩
  -- an iteration of `schedule_running` passes the check
  have hrunning : ∀ vars, scheduler.ReachesRunning instants vars →
      vars.current.all (fun current => vars.scheduler.canAppendSlots current.1) = true
        ∧ vars.runningQueue.head?.all (fun group =>
          (vars.scheduler.getNumTokens group .running false vars.budget).toOption.all (0 < ·))
            = true := by
    rintro vars ⟨before, hok, -, hreach⟩
    rw [hok] at hbefore
    rw [hpolicy] at hreach
    have hvars := List.all_eq_true.mp (Bool.and_eq_true_iff.mp hbefore).1 vars
      (Loop.mem_states_of_reaches _ hreach)
    exact Bool.and_eq_true_iff.mp hvars
  intro hstrands
  cases hstrands with
  | preempts vars hreach _ _ hpreempts =>
    rcases hpreempts with ⟨group, numRunningTokens, hcurrent, -, hcan, -⟩
    have hvars := (hrunning vars hreach).1
    rw [hcurrent, Option.all_some, hcan] at hvars
    cases hvars
  | lacksTokens vars hreach _ hlacks =>
    rcases hlacks with ⟨group, runningQueue, -, hqueue, htokens⟩
    have hvars := (hrunning vars hreach).2
    rw [hpolicy] at htokens
    rw [hqueue, List.head?_cons, Option.all_some, htokens] at hvars
    cases hvars
  | defersSwapped vars hreach _ hdefers =>
    rcases hreach with ⟨before, running, hok, -, hrun, -, -, -, hreach⟩
    rw [hpolicy] at hrun hreach
    rw [hok] at hbefore
    have hswapped := (Bool.and_eq_true_iff.mp hbefore).2
    rw [hrun] at hswapped
    have hvars := List.all_eq_true.mp hswapped vars (Loop.mem_states_of_reaches _ hreach)
    rcases hdefers with ⟨group, swappedQueue, hqueue, -⟩
    rw [hqueue] at hvars
    cases hvars
  | dropsSwapped _ _ _ _ _ hswapped => exact hswapped hnone
  | defersWaiting vars hreach _ hdefers =>
    unfold ReachesPrefills at hreach
    rw [hpolicy] at hreach hdefers
    have hvars := List.all_eq_true.mp hprefills vars (Loop.mem_states_of_reaches _ hreach.2.2)
    rcases hdefers with ⟨group, waitingQueue, numNewTokens, hqueue, htokens, -, hdefers⟩
    rw [hqueue, List.head?_cons, Option.all_some, htokens, Bool.and_eq_true] at hvars
    rcases hdefers with hlater | ⟨-, hrefused⟩
    . exact of_decide_eq_true hvars.1 hlater
    . exact of_decide_eq_true hvars.2 hrefused

/--
The engine when the event calls `step`.
-/
def calledEngine (engine : LlmEngine) (event : Event) : Option LlmEngine :=
  match event with
  | .request _ sequences request =>
    some ((engine.createSequences request.sequenceGroup sequences).addRequest request)
  | .response _ created index (some outputs) =>
    ((engine.takeResponse index).processGeneratedOutputs created outputs).toOption.map (·.2)
  | .response _ _ index none => some (engine.takeResponse index)
  | .disconnect _ => none

theorem calledEngine_eq_some {called : LlmEngine} (h : engine.CallsStep event called)
    : calledEngine engine event = some called := by
  cases h with
  | request => rfl
  | outputs instants created index receiver outputs requestOutputs called hreceiver hprocess =>
    unfold calledEngine
    dsimp only
    rw [hprocess]
    rfl
  | failure => rfl

/--
A run that stops when a call of `step` may strand a group.
-/
def runChecked (engine : LlmEngine) (events : List Event) : Option LlmEngine :=
  events.foldlM
    (fun engine event =>
      if (calledEngine engine event).all fun called =>
          event.instants.all fun instants => checkStrands called.scheduler instants then
        (engine.handle event).toOption
      else none)
    engine

theorem reachableWith_of_runChecked {initial : LlmEngine} {events : List Event}
    (h : initial.runChecked events = some engine) : ReachableWith StrandsNothing initial engine := by
  unfold runChecked at h
  induction events using List.reverseRecOn generalizing engine with
  | nil =>
    cases h
    exact .init
  | append_singleton events event ih =>
    rw [List.foldlM_append] at h
    rcases Option.bind_eq_some_iff.mp h with ⟨between, hbetween, h⟩
    rw [List.foldlM_cons] at h
    rcases Option.bind_eq_some_iff.mp h with ⟨next, hnext, h⟩
    cases h
    split at hnext
    . next hcheck =>
      refine (ih hbetween).step ?_ (Except.toOption_eq_some hnext)
      intro called instants hcalls hinstants
      rw [calledEngine_eq_some hcalls, Option.all_some, hinstants, Option.all_some] at hcheck
      exact not_strands_of_checkStrands hcheck
    . cases hnext

/--
The only token of a prompt is computed, then the next one, and the sequence is finished.
-/
theorem queues_of_idle_finished
    : ∃ engine,
        ReachableWith StrandsNothing
            (LlmEngine.new (Scheduler.new ⟨4, 4, 2, 0, false⟩ 1 4 4 none
              (fun _ => Scheduler.waitingSequence []) 0) fun _ => .ok "") engine
          ∧ (engine.scheduler.memory.sequences ⟨0, 0⟩).sequenceData.outputTokenIds = [7, 8]
          ∧ (engine.scheduler.memory.sequences ⟨0, 0⟩).isFinished = true
          ∧ engine.responses = []
          ∧ engine.scheduler.waiting = []
          ∧ engine.scheduler.running = []
          ∧ engine.scheduler.swapped = [] := by
  have hrun : ((LlmEngine.new (Scheduler.new ⟨4, 4, 2, 0, false⟩ 1 4 4 none
      (fun _ => Scheduler.waitingSequence []) 0) fun _ => .ok "").runChecked [
        .request ⟨2, 2, fun _ => 2, 2⟩ [Scheduler.waitingSequence [5]]
          (.generateRequest (Scheduler.singleGroup "a" 0 0) 0),
        .response ⟨4, 4, fun _ => 4, 4⟩ (fun _ => 4) 0
          (some [⟨AList.insert 0 ⟨0, 7, AList.insert 7 ⟨0, none, none⟩ ∅, false⟩ ∅⟩]),
        .response ⟨6, 6, fun _ => 6, 6⟩ (fun _ => 6) 0
          (some [⟨AList.insert 0 ⟨0, 8, AList.insert 8 ⟨0, none, none⟩ ∅, false⟩ ∅⟩])
      ]).any (fun engine =>
        (engine.scheduler.memory.sequences ⟨0, 0⟩).sequenceData.outputTokenIds = [7, 8]
          ∧ (engine.scheduler.memory.sequences ⟨0, 0⟩).isFinished = true
          ∧ engine.responses.length = 0) = true := by
    decide +kernel
  rcases (Option.any_eq_true _ _).mp hrun with ⟨engine, hok, hvalues⟩
  rcases of_decide_eq_true hvalues with ⟨htokens, hfinished, hresponses⟩
  have hidle : engine.responses = [] := List.length_eq_zero_iff.mp hresponses
  have hreach := reachableWith_of_runChecked hok
  exact ⟨engine, hreach, htokens, hfinished, hidle, queues_of_idle ⟨4, 4, 2, 0, false⟩ rfl 1 4 4 none
    (fun _ => Scheduler.waitingSequence []) 0 (fun _ => .ok "") hreach hidle⟩

end Checked

/--
The only running group needs a block and there is none. Its blocks are freed, it waits again, and the
engine is idle.
-/
theorem idle_with_waiting_group
    : ∃ engine, Reachable (LlmEngine.new (Scheduler.new ⟨4, 4, 4, 0, false⟩ 1 4 1 none
          (fun _ => Scheduler.waitingSequence []) 0) fun _ => .ok "") engine
        ∧ engine.responses = []
        ∧ engine.scheduler.waiting = [Scheduler.singleGroup "a" 0 0] := by
  have hrun : ((LlmEngine.new (Scheduler.new ⟨4, 4, 4, 0, false⟩ 1 4 1 none
      (fun _ => Scheduler.waitingSequence []) 0) fun _ => .ok "").run [
        .request ⟨2, 2, fun _ => 2, 2⟩ [Scheduler.waitingSequence [5]]
          (.generateRequest (Scheduler.singleGroup "a" 0 0) 0),
        .response ⟨4, 4, fun _ => 4, 4⟩ (fun _ => 4) 0
          (some [⟨AList.insert 0 ⟨0, 7, AList.insert 7 ⟨0, none, none⟩ ∅, false⟩ ∅⟩])
      ]).toOption.any (fun engine =>
        engine.responses.length = 0
          ∧ engine.scheduler.waiting = [Scheduler.singleGroup "a" 0 0]) = true := by
    decide +kernel
  rcases Except.exists_eq_ok_of_any hrun with ⟨engine, hok, hvalues⟩
  rw [decide_eq_true_eq] at hvalues
  exact ⟨engine, .of_run (fun _ _ => trivial) hok, List.length_eq_zero_iff.mp hvalues.1, hvalues.2⟩

end LlmEngine

end AtomaInfer
