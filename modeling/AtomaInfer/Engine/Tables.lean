import AtomaInfer.Engine.Disconnect
import AtomaInfer.Engine.Idle
import AtomaInfer.Engine.Recovery
import AtomaInfer.Scheduler.Tables

/-!
The engine and the blocks of the requests that it no longer holds.
-/

namespace AtomaInfer

open Scheduler

namespace BlockSpaceManager

variable {manager manager' : BlockSpaceManager}

theorem owned_eq_zero_of_lookup
    (h : ∀ sequenceId blockTable, manager.blockTables.lookup sequenceId ≠ some blockTable)
    : manager.owned = 0 := by
  rw [Multiset.eq_zero_iff_forall_notMem]
  intro block hblock
  rcases mem_owned_iff_lookup.mp hblock with ⟨sequenceId, blockTable, hlookup, -⟩
  exact h sequenceId blockTable hlookup

theorem Accounted.freeBlocks_perm (h : manager.Accounted) (h' : manager'.Accounted)
    (hconfig : manager.SameConfig manager') (howned : manager.owned = 0)
    (howned' : manager'.owned = 0) (device : BlockDevice)
    : (manager'.allocator device).freeBlocks.Perm (manager.allocator device).freeBlocks := by
  refine (List.perm_ext_iff_of_nodup (h'.balanced.nodup_free device)
    (h.balanced.nodup_free device)).mpr fun block => ?_
  rw [h'.balanced.mem_free, h.balanced.mem_free, hconfig.created_eq, howned, howned']

end BlockSpaceManager

namespace LlmEngine

/--
No block table is lost at the event: its outputs finish no group, and the call of `step` at it keeps
the tables.
-/
structure KeepsTables (engine : LlmEngine) (event : Event) : Prop where
  finishes : ∀ instants created index outputs,
    event = .response instants created index (some outputs) →
      ∀ scheduled ∈ engine.schedulerOutputs.scheduledSequenceGroups,
        ¬ engine.Finishes outputs scheduled.scheduledGroup
  schedules : ∀ called instants, engine.CallsStep event called → event.instants = some instants →
    called.scheduler.KeepsTables instants

end LlmEngine

namespace Scheduler

/--
The tables are those of the groups that run or are swapped out.
-/
def Tabled (scheduler : Scheduler) : Prop :=
  scheduler.memory.TablesIn (scheduler.running + scheduler.swapped)

/--
Only groups that run or are swapped out have tables. Without any groups, and without a sliding
window, the blocks that were free in `initial` are free again.
-/
structure Releases (initial scheduler : Scheduler) : Prop where
  tables : ∀ sequenceId blockTable,
    scheduler.memory.blockManager.blockTables.lookup sequenceId = some blockTable →
      ∃ group ∈ scheduler.running ++ scheduler.swapped, ∃ seq ∈ group.sequences,
        seq.sequenceId = sequenceId
  free : initial.memory.Unwindowed → scheduler.waiting = [] → scheduler.running = [] →
    scheduler.swapped = [] → ∀ device,
      (scheduler.memory.blockManager.allocator device).freeBlocks.Perm
        (initial.memory.blockManager.allocator device).freeBlocks

end Scheduler

namespace Trace

variable {accepts : Session.Accepts} {P : LlmEngine → LlmEngine.Event → Prop}
variable {trace trace' called : Trace} {session : Session} {instants : Instants}
variable {event : LlmEngine.Event} {engine : LlmEngine}

theorem Receives.tabled {received : Trace} (h : trace.Receives accepts instants event received)
    (htabled : trace.engine.scheduler.Tabled) : received.engine.scheduler.Tabled := by
  cases h with
  | intro request seq sequence prompt promptTokenIds returnFullText hgroup hfresh hnew haccepts =>
    cases request <;> exact htabled

theorem FaultyCalls.callsStep (h : trace.FaultyCalls accepts instants event called)
    : trace.engine.CallsStep event called.engine ∧ event.instants = some instants := by
  cases h with
  | call hcalls =>
    cases hcalls with
    | request hreceives hidle =>
      cases hreceives with
      | intro request => exact ⟨.request instants _ request hidle, rfl⟩
    | response hprocesses =>
      cases hprocesses with
      | intro created index receiver next requestOutputs engine hreceiver hprocess =>
        exact ⟨.outputs instants created index receiver _ requestOutputs engine hreceiver hprocess,
          rfl⟩
  | fail hfails =>
    cases hfails with
    | intro created index receiver hreceiver =>
      exact ⟨.failure instants created index receiver hreceiver, rfl⟩

/--
When no group of the batch is finished, none is removed.
-/
theorem Processes.tabled (h : trace.Processes instants event called)
    (hsimulates : trace.Simulates session) (hinv : session.Inv)
    (hkeeps : trace.engine.KeepsTables event) (htabled : trace.engine.scheduler.Tabled)
    : called.engine.scheduler.Tabled := by
  cases h with
  | intro created index receiver next requestOutputs engine hreceiver hprocess =>
    have hpending := hsimulates.pending_of_getElem? hreceiver
    have hdescribes := hinv.describes _ _ hpending
    have hrunning := hinv.ok.running
    rw [hsimulates.scheduler_eq] at hdescribes hrunning
    have hfinishes := hkeeps.finishes _ _ _ _ rfl
    rcases LlmEngine.processGeneratedOutputs_eq_ok hprocess
      with ⟨updated, hfold, ⟨sequences, sent, rfl⟩, rfl, -⟩
    have hall : trace.engine.scheduler.running.filter (fun group => !group.isFinished sequences)
        = trace.engine.scheduler.running := by
      rw [List.filter_eq_self]
      intro group hgroup
      rcases hrunning group hgroup with ⟨seq, hsingle, hstatus⟩
      rw [Bool.not_eq_true', ← Bool.not_eq_true]
      intro hfinished
      have hfinished : (sequences seq).isFinished = true :=
        List.all_eq_true.mp hfinished seq (by simp [hsingle])
      have hnodup : (((trace.engine.takeResponse index).batch
          (ModelExecutor.sample next receiver.request.sequenceGroupsMetadata)).flatMap
            (·.2.2.scheduledGroup.sequences)).Nodup :=
        LlmEngine.nodup_batch _ hsimulates.nodup
      rcases LlmEngine.isFinished_of_batch hnodup hfold hfinished with hbefore | ⟨entry, hentry, hseq, hstops⟩
      . have hstatus : (trace.engine.scheduler.memory.sequences seq).sequenceStatus = .running :=
          hstatus
        change (trace.engine.scheduler.memory.sequences seq).isFinished = true at hbefore
        simp [Sequence.isFinished, hstatus, SequenceStatus.isFinished] at hbefore
      . have hmem : entry.2.2 ∈ trace.engine.schedulerOutputs.scheduledSequenceGroups :=
          (LlmEngine.batch_sublist (trace.engine.takeResponse index) _).subset
            (List.mem_map_of_mem hentry)
        refine hfinishes entry.2.2 hmem ?_
        rcases List.forall₂_iff_zip.mp hdescribes with ⟨-, hzip⟩
        rcases hzip (mem_zip_of_entry hentry) with ⟨seq', -, blockTable, hdescribes⟩
        intro other hother
        rw [hdescribes.sequences_eq, List.mem_singleton] at hother hseq
        subst hother hseq
        exact .inr ⟨entry, hentry, by simp [hdescribes.sequences_eq], hstops⟩
    unfold Tabled removeFinishedSequences
    dsimp only [LlmEngine.takeResponse]
    rw [hall]
    exact htabled

theorem FaultyCalls.tabled (h : trace.FaultyCalls accepts instants event called)
    (hsimulates : trace.Simulates session) (hinv : session.Inv)
    (hkeeps : trace.engine.KeepsTables event) (htabled : trace.engine.scheduler.Tabled)
    : called.engine.scheduler.Tabled := by
  cases h with
  | call hcalls =>
    cases hcalls with
    | request hreceives hidle => exact hreceives.tabled htabled
    | response hprocesses => exact hprocesses.tabled hsimulates hinv hkeeps htabled
  | fail hfails =>
    cases hfails with
    | intro => exact htabled

theorem FaultyStep.tabled (h : FaultyStep accepts LlmEngine.KeepsTables trace trace')
    (hsimulates : trace.Simulates session) (hinv : session.Inv)
    (htabled : trace.engine.scheduler.Tabled) : trace'.engine.scheduler.Tabled := by
  cases h with
  | wait hreceives hbusy => exact hreceives.tabled htabled
  | schedule hcalls hkeeps hhandle =>
    rcases hcalls.callsStep with ⟨hcallsStep, hinstants⟩
    rcases hcalls.handle_eq hhandle with ⟨stepped, responseSenders, sent, hstep, rfl⟩
    rcases hcalls.exists_between hsimulates hinv with ⟨between, hsteps, hbetween, -⟩
    rcases LlmEngine.step_eq_ok hstep
      with ⟨metadata, outputs, scheduler, hschedule, -, -, -, hstepped⟩
    rcases schedule_eq_ok hschedule with ⟨passed, hpolicy, hsame, -⟩
    have hok := (hsteps.inv hinv).ok.of_scheduled_eq_zero rfl
      between.scheduler.schedulerConfig.enableChunkedPrefill
    rw [hbetween.scheduler_eq] at hok
    have hpassed := (hkeeps.schedules _ _ hcallsStep hinstants).tablesIn hpolicy hok
      (hcalls.tabled hsimulates hinv hkeeps htabled)
    rcases hsame with ⟨manager, rfl, blocks, rfl, -⟩
    dsimp only
    rw [hstepped]
    exact hpassed
  | disconnect channel => exact htabled

theorem exists_tabled {scheduler : Scheduler} {tokenizer : List Nat → Except String String}
    (hinv : (Session.start scheduler).Inv) (htabled : scheduler.Tabled)
    (h : FaultyReachable accepts LlmEngine.KeepsTables (LlmEngine.new scheduler tokenizer) trace)
    : ∃ session, (Session.start scheduler).FaultySteps accepts session
        ∧ trace.Simulates session ∧ trace.engine.scheduler.Tabled := by
  induction h with
  | refl => exact ⟨_, .refl, ⟨rfl, rfl, .inr ⟨rfl, rfl⟩, rfl, List.nodup_nil⟩, htabled⟩
  | tail _ hstep ih =>
    rcases ih with ⟨session, hsteps, hsimulates, htabled⟩
    have hinv := hsteps.inv hinv
    rcases hstep.simulates hsimulates hinv with ⟨session', hsteps', hsimulates'⟩
    exact ⟨session', hsteps.trans hsteps', hsimulates', hstep.tabled hsimulates hinv htabled⟩

theorem FaultyVisits.exists_tabled {scheduler : Scheduler}
    {tokenizer : List Nat → Except String String} (hinv : (Session.start scheduler).Inv)
    (htabled : scheduler.Tabled)
    (h : FaultyVisits accepts LlmEngine.KeepsTables (LlmEngine.new scheduler tokenizer) trace)
    : ∃ session, (Session.start scheduler).FaultySteps accepts session
        ∧ session.scheduler = trace.engine.scheduler ∧ trace.engine.scheduler.Tabled := by
  cases h with
  | between h =>
    rcases Trace.exists_tabled hinv htabled h with ⟨session, hsteps, hsimulates, htabled⟩
    exact ⟨session, hsteps, hsimulates.scheduler_eq, htabled⟩
  | calls h hcalls hkeeps =>
    rcases Trace.exists_tabled hinv htabled h with ⟨session, hsteps, hsimulates, htabled⟩
    have hinv := hsteps.inv hinv
    rcases hcalls.exists_between hsimulates hinv with ⟨between, hsteps', hbetween, -⟩
    exact ⟨between, hsteps.trans hsteps', hbetween.scheduler_eq,
      hcalls.tabled hsimulates hinv hkeeps htabled⟩

/--
As long as no table is lost, only the groups that run or are swapped out have tables, and without
any groups all blocks are free.
-/
theorem releases_of_keepsTables (config : SchedulerConfig) (blockSize numCpuBlocks numGpuBlocks : Nat)
    (slidingWindow : Option Nat) (heap : SequenceHeap) (now : Nat)
    (tokenizer : List Nat → Except String String)
    (h : FaultyVisits accepts LlmEngine.KeepsTables (LlmEngine.new
      (Scheduler.new config blockSize numCpuBlocks numGpuBlocks slidingWindow heap now) tokenizer)
      trace)
    : (Scheduler.new config blockSize numCpuBlocks numGpuBlocks slidingWindow heap now).Releases
        trace.engine.scheduler := by
  have hstart := Session.inv_start config blockSize numCpuBlocks numGpuBlocks slidingWindow heap now
  have hnone : ∀ sequenceId blockTable, (Scheduler.new config blockSize numCpuBlocks numGpuBlocks
      slidingWindow heap now).memory.blockManager.blockTables.lookup sequenceId
        ≠ some blockTable := by
    intro sequenceId blockTable hlookup
    cases hlookup
  rcases h.exists_tabled hstart (fun _ _ hlookup => absurd hlookup (hnone _ _))
    with ⟨session, hsteps, hscheduler, htabled⟩
  have hconfig := hsteps.sameConfig hstart
  have hsound := (hsteps.inv hstart).ok.sound
  rw [hscheduler] at hconfig hsound
  refine ⟨?_, ?_⟩
  . intro sequenceId blockTable hlookup
    rcases htabled sequenceId blockTable hlookup with ⟨group, hgroup, hseq⟩
    exact ⟨group, by simpa using hgroup, hseq⟩
  . intro hunwindowed hwaiting hrunning hswapped device
    have hunwindowed' : trace.engine.scheduler.memory.Unwindowed :=
      hconfig.blockSlidingWindow_eq.trans hunwindowed
    refine (hstart.ok.sound.accounted hunwindowed).freeBlocks_perm (hsound.accounted hunwindowed')
      hconfig (BlockSpaceManager.owned_eq_zero_of_lookup hnone)
      (BlockSpaceManager.owned_eq_zero_of_lookup ?_) device
    intro sequenceId blockTable hlookup
    rcases htabled sequenceId blockTable hlookup with ⟨group, hgroup, -⟩
    simp [hrunning, hswapped] at hgroup

theorem keepsTables_firstRequest : (idle ⟨2, 2, 2, 0, false⟩).KeepsTables firstRequest := by
  refine ⟨fun _ _ _ _ heq => (by cases heq), ?_⟩
  intro called instants hcalls hinstants
  cases hcalls with
  | request _ _ _ _ =>
    cases hinstants
    refine ⟨fun hchunked => (by cases hchunked), ?_⟩
    rintro vars ⟨before, _, hbefore, hprefills, -⟩ -
    have hscheduled : ((((idle ⟨2, 2, 2, 0, false⟩).createSequences (singleGroup "a" 0 0)
        [waitingSequence [5]]).addRequest (.generateRequest (singleGroup "a" 0 0) 0)
          ).scheduler.beforeRunning ⟨2, 2, fun _ => 2, 2⟩).toOption.all
            (fun before => before.prefills.sequenceGroups ≠ []) = true := by
      decide +kernel
    change _ = Except.ok before at hbefore
    rw [show (((idle ⟨2, 2, 2, 0, false⟩).createSequences (singleGroup "a" 0 0)
      [waitingSequence [5]]).addRequest (.generateRequest (singleGroup "a" 0 0) 0)
        ).scheduler.beforeRunning ⟨2, 2, fun _ => 2, 2⟩ = .ok before from hbefore] at hscheduled
    simp [Except.toOption, hprefills] at hscheduled

/--
The group of the first request runs, and its sequence has a table.
-/
theorem releases_of_keepsTables_firstRequest
    : ∃ trace,
        FaultyVisits Session.acceptsRequests LlmEngine.KeepsTables (idle ⟨2, 2, 2, 0, false⟩) trace
          ∧ (trace.engine.scheduler.memory.blockManager.blockTables.lookup 0).isSome = true
          ∧ (Scheduler.new ⟨2, 2, 2, 0, false⟩ 1 4 4 none (fun _ => waitingSequence []) 0).Releases
              trace.engine.scheduler := by
  rcases exists_faultyReachable ⟨2, 2, 2, 0, false⟩ (p := fun engine =>
    (engine.scheduler.memory.blockManager.blockTables.lookup 0).isSome)
    keepsTables_firstRequest (by decide +kernel) with ⟨trace, receiver, hreach, -, htable⟩
  exact ⟨trace, .between hreach, htable, releases_of_keepsTables ⟨2, 2, 2, 0, false⟩ 1 4 4 none
    (fun _ => waitingSequence []) 0 (fun _ => .ok "") (.between hreach)⟩

/--
The first token finishes the only request. Its group is removed, and its block is not freed.
-/
theorem not_releases_finished
    : ∃ engine,
        (idle ⟨2, 2, 1, 0, false⟩).run [
              firstRequest,
              .response ⟨4, 4, fun _ => 4, 4⟩ (fun _ => 4) 0
                (some [⟨AList.insert 0 ⟨0, 7, AList.insert 7 ⟨0, none, none⟩ ∅, false⟩ ∅⟩])
            ] = .ok engine
          ∧ engine.scheduler.groups = []
          ∧ engine.scheduler.memory.blockManager.blockTables.lookup 0 = some [⟨.gpu, 3⟩]
          ∧ engine.scheduler.memory.blockManager.gpuAllocator.freeBlocks.length = 3
          ∧ ¬ (Scheduler.new ⟨2, 2, 1, 0, false⟩ 1 4 4 none (fun _ => waitingSequence []) 0).Releases
              engine.scheduler := by
  have hrun : ((idle ⟨2, 2, 1, 0, false⟩).run [
      firstRequest,
      .response ⟨4, 4, fun _ => 4, 4⟩ (fun _ => 4) 0
        (some [⟨AList.insert 0 ⟨0, 7, AList.insert 7 ⟨0, none, none⟩ ∅, false⟩ ∅⟩])
    ]).toOption.any (fun engine =>
      engine.scheduler.groups = []
        ∧ engine.scheduler.memory.blockManager.blockTables.lookup 0 = some [⟨.gpu, 3⟩]
        ∧ engine.scheduler.memory.blockManager.gpuAllocator.freeBlocks.length = 3) = true := by
    decide +kernel
  rcases Except.exists_eq_ok_of_any hrun with ⟨engine, hok, hvalues⟩
  rw [decide_eq_true_eq] at hvalues
  refine ⟨engine, hok, hvalues.1, hvalues.2.1, hvalues.2.2, ?_⟩
  intro hreleases
  rcases hreleases.tables 0 _ hvalues.2.1 with ⟨group, hgroup, -⟩
  have hnone : group ∈ engine.scheduler.groups := by
    unfold Scheduler.groups
    simp only [List.mem_append] at hgroup ⊢
    tauto
  rw [hvalues.1] at hnone
  cases hnone

end Trace

end AtomaInfer
