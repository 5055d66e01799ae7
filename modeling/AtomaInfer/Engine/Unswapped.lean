import AtomaInfer.Engine.Prompts
import AtomaInfer.Scheduler.Narrow

/-!
Runs of the engine in which no request asks for more than one sequence. Their groups are preempted by
recomputation, so nothing is swapped, and no batch asks for copies between blocks.
-/

namespace AtomaInfer

open Scheduler

namespace Trace

variable {accepts : Session.Accepts} {trace trace' called received : Trace} {instants : Instants}
variable {event : LlmEngine.Event} {session : Session}

/--
No request asks for more than one sequence.
-/
def Single (trace : Trace) : Prop :=
  ∀ group ∈ trace.arrived, group.nextTokenChooserParams.bestOf ≤ 1

structure Unswapped (trace : Trace) : Prop where
  swapped : trace.engine.scheduler.swapped = []
  copies : trace.engine.currentRequest.CopiesNothing

theorem Single.narrow (h : trace.Single)
    (hheld : ∀ group ∈ trace.engine.scheduler.config.held, group ∈ trace.arrived)
    : trace.engine.scheduler.config.Narrow :=
  fun group hgroup => Nat.max_eq_left (h group (hheld group hgroup))

theorem Receives.swapped_eq (h : trace.Receives accepts instants event received)
    : received.engine.scheduler.swapped = trace.engine.scheduler.swapped := by
  cases h with
  | intro request => cases request <;> rfl

theorem Receives.unswapped (h : trace.Receives accepts instants event received)
    (hunswapped : trace.Unswapped) : received.Unswapped := by
  rcases h.exists_seq with ⟨-, -, -, hrequest, -⟩
  refine ⟨h.swapped_eq.trans hunswapped.swapped, ?_⟩
  rw [hrequest]
  exact hunswapped.copies

theorem Calls.arrived_subset (h : trace.Calls accepts instants event called)
    (hsimulates : trace.Simulates session) (hinv : session.Inv) : trace.arrived ⊆ called.arrived := by
  cases h with
  | request hreceives hidle => exact hreceives.batch_eq.2.2
  | response hprocesses =>
    rcases hprocesses.processed hsimulates hinv with ⟨heap, hprocessed⟩
    rw [hprocessed.arrived_eq]
    exact List.Subset.refl _

theorem Calls.swapped_eq (h : trace.Calls accepts instants event called)
    (hsimulates : trace.Simulates session) (hinv : session.Inv)
    (hswapped : trace.engine.scheduler.swapped = []) : called.engine.scheduler.swapped = [] := by
  cases h with
  | request hreceives hidle => exact hreceives.swapped_eq.trans hswapped
  | response hprocesses =>
    rcases hprocesses.processed hsimulates hinv with ⟨heap, hprocessed⟩
    rw [hprocessed.scheduler_eq]
    simp [removeFinishedSequences, hswapped]

theorem Calls.held (h : trace.Calls accepts instants event called)
    (hsimulates : trace.Simulates session) (hinv : session.Inv) (hholds : trace.Holds)
    : ∀ group ∈ called.engine.scheduler.config.held, group ∈ called.arrived := by
  cases h with
  | request hreceives hidle => exact (hreceives.holds hholds).held
  | response hprocesses => exact hprocesses.held hsimulates hinv hholds

/--
A call of `step` swaps nothing.
-/
theorem Between.unswapped {stepped engine : LlmEngine} {sampled : SequenceRef → Bool}
    {responseSenders : AList fun _ : String => Channel} {sent : List (Channel × Message)}
    (hbetween : called.Between session) (hinv : session.Inv)
    (hnarrow : called.engine.scheduler.config.Narrow)
    (hnone : called.engine.scheduler.memory.Unwindowed)
    (hswapped : called.engine.scheduler.swapped = [])
    (hstep : called.engine.step instants = .ok stepped)
    (hengine : engine = { stepped with responseSenders, sent })
    : Unswapped { called with engine, sampled } := by
  rcases LlmEngine.step_eq_ok hstep
    with ⟨metadata, outputs, scheduler, hschedule, hmetadata, houtputs, -, hstepped⟩
  have hok : called.engine.scheduler.config.OK
      called.engine.scheduler.schedulerConfig.enableChunkedPrefill called.refs := by
    have hok := hinv.ok.of_scheduled_eq_zero rfl
      called.engine.scheduler.schedulerConfig.enableChunkedPrefill
    unfold Session.refs at hok
    rwa [hbetween.scheduler_eq, hbetween.arrived_eq] at hok
  rcases schedule_eq_ok hschedule with ⟨passed, hpolicy, hsame, -⟩
  rcases spares_of_schedulePolicy hpolicy hok hnarrow hswapped with ⟨hswapped', hin, hout⟩
  rcases schedulePolicy_moves hpolicy hok with ⟨c, lost, hmoves, hsettles, -⟩
  have hcopy : outputs.blocksToCopy = ∅ :=
    hsettles.blocksToCopy_eq.trans (hmoves.blocksToCopy_eq hnone)
  rcases hsame with ⟨manager, rfl, -⟩
  subst hengine
  constructor
  . dsimp only
    rw [hstepped]
    exact hswapped'
  . unfold ExecuteModelRequest.CopiesNothing LlmEngine.currentRequest
    dsimp only
    rw [houtputs]
    exact ⟨hin, hout, hcopy⟩

theorem Step.unswapped (h : Step accepts trace trace') (hsimulates : trace.Simulates session)
    (hinv : session.Inv) (hholds : trace.Holds) (hnone : session.scheduler.memory.Unwindowed)
    (hunswapped : trace.Single → trace.Unswapped) (hsingle : trace'.Single) : trace'.Unswapped := by
  cases h with
  | wait hreceives hbusy =>
    refine hreceives.unswapped (hunswapped ?_)
    exact fun group hgroup => hsingle group (hreceives.batch_eq.2.2 hgroup)
  | @schedule _ _ called engine hcalls hhandle =>
    have hbefore := hunswapped fun group hgroup =>
      hsingle group (hcalls.arrived_subset hsimulates hinv hgroup)
    rcases hcalls.exists_between hsimulates hinv with ⟨between, hsteps, hbetween, -⟩
    rcases hcalls.handle_eq hhandle with ⟨stepped, responseSenders, sent, hstep, hengine⟩
    have hheld := hcalls.held hsimulates hinv hholds
    have hcalled : called.Single := hsingle
    refine hbetween.unswapped (hsteps.inv hinv) (hcalled.narrow hheld) ?_
      (hcalls.swapped_eq hsimulates hinv hbefore.swapped) hstep hengine
    rw [← hbetween.scheduler_eq]
    exact (hsteps.sameConfig hinv).2.blockSlidingWindow_eq.trans hnone
  | disconnect channel =>
    have hbefore := hunswapped hsingle
    exact ⟨hbefore.swapped, hbefore.copies⟩

variable {config : SchedulerConfig} {blockSize numCpuBlocks numGpuBlocks : Nat}
variable {heap : SequenceHeap} {now : Nat} {tokenizer : List Nat → Except String String}

/--
As long as no request asks for more than one sequence, no group is swapped out and no batch in flight
asks for copies.
-/
theorem unswapped_of_reachable
    (h : Reachable accepts
      (LlmEngine.new
        (Scheduler.new config blockSize numCpuBlocks numGpuBlocks none heap now) tokenizer)
      trace)
    (hsingle : trace.Single)
    : trace.engine.scheduler.swapped = []
        ∧ ∀ receiver ∈ trace.engine.responses, receiver.request.CopiesNothing := by
  have hstart := Session.inv_start config blockSize numCpuBlocks numGpuBlocks none heap now
  have hunswapped : trace.Single → trace.Unswapped := by
    clear hsingle
    induction h with
    | refl => exact fun _ => ⟨rfl, rfl, rfl, rfl⟩
    | tail hreach hstep ih =>
      rcases simulates_of_reachable hstart hreach with ⟨session, hsteps, hsimulates⟩
      exact hstep.unswapped hsimulates (hsteps.inv hstart) (holds_of_reachable hstart rfl hreach)
        (hsteps.sameConfig hstart).2.blockSlidingWindow_eq ih
  refine ⟨(hunswapped hsingle).swapped, ?_⟩
  intro receiver hreceiver
  rcases simulates_of_reachable hstart h with ⟨session, hsteps, hsimulates⟩
  rcases List.mem_iff_getElem?.mp hreceiver with ⟨index, hindex⟩
  rcases hsimulates.paired.of_getElem? hindex with ⟨-, rfl, -⟩
  exact (hunswapped hsingle).copies

/--
There is no block for the third token of the only sequence, so its group is preempted.
-/
theorem unswapped_of_reachable_preempted
    : ∃ trace : Trace,
        trace.engine.scheduler.numCumulativePreemption = 1
          ∧ trace.engine.scheduler.waiting = [singleGroup "a" 0 0]
          ∧ trace.engine.scheduler.swapped = []
          ∧ ∀ receiver ∈ trace.engine.responses, receiver.request.CopiesNothing := by
  let driven := ThreadTrace.driven SampledTrace.counting.thread
    (ThreadTrace.fresh ⟨8, 2, 8, 0, false⟩ 2) SampledTrace.counting.initialProcessors
    (SampledTrace.answer SampledTrace.counting) (singleGroup "a" 0 0) (waitingSequence [5, 6]) 1
  have hdriven : driven.any (fun run =>
      run.trace.engine.scheduler.numCumulativePreemption = 1
        ∧ run.trace.engine.scheduler.waiting = [singleGroup "a" 0 0]) = true := by
    decide +kernel
  rcases (Option.any_eq_true _ _).mp hdriven with ⟨run, hrun, hpreempted⟩
  rcases of_decide_eq_true hpreempted with ⟨hcount, hwaiting⟩
  have hnew : Sequence.new "" [5, 6] 1 false = .ok (waitingSequence [5, 6]) := by decide +kernel
  rcases ThreadTrace.reachable_of_driven SampledTrace.isAnswer_answer rfl hnew hrun
    with ⟨hreach, harrived⟩
  refine ⟨run.trace, hcount, hwaiting, unswapped_of_reachable hreach.trace_reachable ?_⟩
  intro group hgroup
  rw [harrived, List.mem_singleton] at hgroup
  subst hgroup
  exact le_rfl

end Trace

end AtomaInfer
