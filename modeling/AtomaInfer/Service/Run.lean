import AtomaInfer.Scheduler.Untabled
import AtomaInfer.Service.Impl

/-!
The identifiers that the service gives to the sequences of the requests, over whole runs of the
service and the scheduler of the engine. The block manager keys its tables by them.
-/

namespace AtomaInfer

/--
`allocate` for the group leaves every block table there is, and gives the group no block of one.
-/
def BlockSpaceManager.AllocatesApart (manager : BlockSpaceManager) (group : SequenceGroup)
    (heap : SequenceHeap) : Prop :=
  ∀ manager', (allocate group heap).run manager = .ok () manager' →
    ∀ sequenceId blockTable, manager.blockTables.lookup sequenceId = some blockTable →
      manager'.blockTables.lookup sequenceId = some blockTable
        ∧ ∀ sequenceId' ∈ group.sequenceIds, ∀ blockTable',
            manager'.blockTables.lookup sequenceId' = some blockTable' →
              blockTable'.Disjoint blockTable

namespace LlmService

structure RunState where
  service : LlmService
  scheduler : Scheduler

inductive Event where
  | accept
  | schedule
  | process
  deriving DecidableEq

/--
`accept` hands the group of an accepted request over to the scheduler, and `process` is the work of
the engine on the outputs of a batch: it writes to the sequences and removes the finished groups.
-/
inductive Step (state : RunState) : Event → RunState → Prop where
  | accept (requestId : String) (arrivalTime addr : Nat)
      (validated : Except LlmServiceError ValidGenerateRequest)
      (group : SequenceGroup) (sequence : Sequence) (service : LlmService)
      (haddr : ∀ live ∈ state.scheduler.groups, ∀ seq ∈ live.sequences, seq.addr ≠ addr)
      (hrequest : state.service.handleRequest requestId arrivalTime addr validated
        = .ok (group, sequence, service))
    : Step state .accept {
        service
        scheduler := {
          state.scheduler with
          memory.sequences := group.sequences.foldl
            (fun sequences seq => Function.update sequences seq sequence)
            state.scheduler.memory.sequences }.addSequenceGroup group }
  | schedule (instants : Instants) (metadata : List SequenceGroupMetadata)
      (outputs : SchedulerOutputs) (scheduler : Scheduler)
      (hschedule : state.scheduler.schedule instants = .ok (metadata, outputs, scheduler))
    : Step state .schedule { state with scheduler }
  | process (sequences : SequenceHeap)
    : Step state .process {
        state with
        scheduler :=
          { state.scheduler with memory.sequences := sequences }.removeFinishedSequences }

/--
The states that runs reach in which every step meets `P`, a condition on the state before it.
-/
inductive ReachableWith (P : RunState → Event → Prop) (initial : RunState) : RunState → Prop where
  | init : ReachableWith P initial initial
  | step {state state' : RunState} {event : Event} (hreach : ReachableWith P initial state)
      (hP : P state event) (hstep : Step state event state')
    : ReachableWith P initial state'

/--
The service and the scheduler as `LlmService::start` creates them.
-/
def RunState.start (config : SchedulerConfig) (blockSize numCpuBlocks numGpuBlocks : Nat)
    (slidingWindow : Option Nat) (sequences : SequenceHeap) (now : Nat) : RunState where
  service := LlmService.start blockSize
  scheduler := Scheduler.new config blockSize numCpuBlocks numGpuBlocks slidingWindow sequences now

/--
Any two live groups have disjoint sets of sequence identifiers.
-/
def RunState.LiveDisjoint (state : RunState) : Prop :=
  state.scheduler.groups.Pairwise fun group group' =>
    ∀ sequenceId ∈ group.sequences.map (·.sequenceId),
      sequenceId ∉ group'.sequences.map (·.sequenceId)

/--
Any two live groups have disjoint sets of identifiers, and no table lies under one of a group that
waits for its blocks.
-/
structure RunState.TablesApart (state : RunState) : Prop where
  liveDisjoint : state.LiveDisjoint
  untabled : ∀ group ∈ state.scheduler.waiting, state.scheduler.memory.blockManager.Untabled group

/--
In every call of `schedule`, a request that gets blocks overwrites no block table and gets none of
its blocks.
-/
def RunState.AllocatesApart (state : RunState) : Prop :=
  ∀ instants vars group waitingQueue,
    state.scheduler.ReachesPrefill instants vars → vars.waitingQueue = group :: waitingQueue →
      vars.scheduler.memory.blockManager.AllocatesApart group vars.scheduler.memory.sequences

/--
A request is handed over only when no group is live and no block table is left under the identifier
that it gets.
-/
def HandsOverAlone (state : RunState) (event : Event) : Prop :=
  event = .accept →
    state.scheduler.groups = []
      ∧ state.scheduler.memory.blockManager.blockTables.lookup state.service.requestCounter = none

/--
The counter is still at zero, and so are the identifiers of the sequences of all live groups.
-/
structure AllZero (state : RunState) : Prop where
  counter : state.service.requestCounter = 0
  groups : ∀ group ∈ state.scheduler.groups, group.sequences.map (·.sequenceId) = [0]

variable {state state' : RunState} {event : Event}

theorem Step.groups_subperm (h : Step state event state') (hevent : event ≠ .accept)
    : state'.scheduler.groups.Subperm state.scheduler.groups ∧ state'.service = state.service := by
  cases h with
  | accept => exact absurd rfl hevent
  | schedule instants metadata outputs scheduler hschedule =>
    exact ⟨Scheduler.groups_subperm_of_schedule hschedule, rfl⟩
  | process sequences =>
    have hgroups := Scheduler.groups_removeFinishedSequences
      { state.scheduler with memory.sequences := sequences }
    exact ⟨hgroups.subperm, rfl⟩

theorem Step.of_accept (h : Step state .accept state')
    : ∃ group addr,
        state'.scheduler.waiting = state.scheduler.waiting ++ [group]
          ∧ state'.scheduler.groups.Perm (group :: state.scheduler.groups)
          ∧ group.sequences = [⟨state.service.requestCounter, addr⟩]
          ∧ state'.scheduler.memory.blockManager = state.scheduler.memory.blockManager
          ∧ state'.service = state.service := by
  cases h with
  | accept requestId arrivalTime addr validated group sequence service haddr hrequest =>
    rcases handleRequest_eq_ok hrequest with ⟨rfl, hsequences⟩
    exact ⟨group, addr, rfl, Scheduler.groups_addSequenceGroup_perm _ group, hsequences, rfl, rfl⟩

theorem AllZero.step (hzero : AllZero state) (h : Step state event state') : AllZero state' := by
  by_cases hevent : event = .accept
  . subst hevent
    rcases h.of_accept with ⟨group, addr, -, hperm, hsequences, -, hservice⟩
    refine ⟨by rw [hservice]; exact hzero.counter, ?_⟩
    intro live hlive
    rw [hperm.mem_iff, List.mem_cons] at hlive
    rcases hlive with rfl | hlive
    . simp [hsequences, hzero.counter]
    . exact hzero.groups live hlive
  . rcases h.groups_subperm hevent with ⟨hsubperm, hservice⟩
    refine ⟨by rw [hservice]; exact hzero.counter, ?_⟩
    intro live hlive
    exact hzero.groups live (hsubperm.subset hlive)

theorem allZero_of_reachable {P : RunState → Event → Prop} {initial : RunState}
    (hinitial : AllZero initial) (h : ReachableWith P initial state) : AllZero state := by
  induction h with
  | init => exact hinitial
  | step _ _ hstep ih => exact ih.step hstep

theorem liveDisjoint_of_length_le (h : state.scheduler.groups.length ≤ 1) : state.LiveDisjoint := by
  unfold RunState.LiveDisjoint
  match hgroups : state.scheduler.groups with
  | [] => exact .nil
  | [group] => exact List.pairwise_singleton _ group
  | group :: group' :: groups => simp [hgroups] at h

theorem AllZero.not_liveDisjoint (hzero : AllZero state) (h : 2 ≤ state.scheduler.groups.length)
    : ¬ state.LiveDisjoint := by
  unfold RunState.LiveDisjoint
  match hgroups : state.scheduler.groups with
  | [] => simp [hgroups] at h
  | [group] => simp [hgroups] at h
  | group :: group' :: groups =>
    intro hpairwise
    have hfirst := hzero.groups group (by simp [hgroups])
    have hsecond := hzero.groups group' (by simp [hgroups])
    have := (List.pairwise_cons.mp hpairwise).1 group' List.mem_cons_self 0
    rw [hfirst, hsecond] at this
    simp at this

theorem Step.tablesApart (h : Step state .accept state') (hP : HandsOverAlone state .accept)
    : state'.TablesApart := by
  rcases hP rfl with ⟨hgroups, hlookup⟩
  rcases h.of_accept with ⟨group, addr, hwaiting, hperm, hsequences, hmanager, -⟩
  have hlength := hperm.length_eq
  rw [hgroups] at hlength
  refine ⟨liveDisjoint_of_length_le hlength.le, ?_⟩
  intro live hlive sequenceId hmem
  have hnone : state.scheduler.waiting = [] :=
    (List.append_eq_nil_iff.mp (List.append_eq_nil_iff.mp hgroups).1).1
  rw [hwaiting, hnone, List.nil_append, List.mem_singleton] at hlive
  rw [hlive, SequenceGroup.sequenceIds, hsequences, List.map_singleton, List.mem_singleton] at hmem
  rw [hmanager, hmem, hlookup]

/--
What the condition on the hand-overs makes of a state: at most one group is live, and when it waits
there is no table.
-/
structure Alone (state : RunState) : Prop extends AllZero state where
  length_le : state.scheduler.groups.length ≤ 1
  untabled : ∀ group ∈ state.scheduler.waiting, state.scheduler.memory.blockManager.Untabled group
  lookup_of_ne : ∀ sequenceId, sequenceId ≠ 0 →
    state.scheduler.memory.blockManager.blockTables.lookup sequenceId = none

namespace Alone

theorem notMem (h : AllZero state) {sequenceId : Nat} (hne : sequenceId ≠ 0)
    {group : SequenceGroup} (hgroup : group ∈ state.scheduler.groups)
    : sequenceId ∉ group.sequenceIds := by
  rw [SequenceGroup.sequenceIds, h.groups group hgroup, List.mem_singleton]
  exact hne

theorem distinct (h : Alone state) : Scheduler.Distinct state.scheduler.groups := by
  refine ⟨fun group hgroup => ?_, liveDisjoint_of_length_le h.length_le⟩
  rcases List.map_eq_singleton_iff.mp (h.groups group hgroup) with ⟨seq, hsequences, -⟩
  exact ⟨seq, hsequences⟩

theorem tablesApart (h : Alone state) : state.TablesApart :=
  ⟨liveDisjoint_of_length_le h.length_le, h.untabled⟩

theorem step (h : Alone state) (hP : HandsOverAlone state event) (hstep : Step state event state')
    : Alone state' := by
  have hzero := h.toAllZero.step hstep
  by_cases hevent : event = .accept
  . subst hevent
    rcases hstep.of_accept with ⟨group, addr, -, hperm, -, hmanager, -⟩
    exact ⟨hzero, by rw [hperm.length_eq, (hP rfl).1]; rfl, (hstep.tablesApart hP).untabled,
      by rw [hmanager]; exact h.lookup_of_ne⟩
  . have hlength := (hstep.groups_subperm hevent).1.length_le.trans h.length_le
    cases hstep with
    | accept => exact absurd rfl hevent
    | schedule instants metadata outputs scheduler hschedule =>
      rcases Scheduler.untabled_of_schedule h.untabled h.distinct hschedule
        with ⟨htouches, huntabled⟩
      refine ⟨hzero, hlength, huntabled, fun sequenceId hne => ?_⟩
      rw [htouches sequenceId fun group hgroup => notMem h.toAllZero hne hgroup]
      exact h.lookup_of_ne sequenceId hne
    | process sequences => exact ⟨hzero, hlength, h.untabled, h.lookup_of_ne⟩

/--
A group that gets blocks finds no block table at all.
-/
theorem allocatesApart (h : Alone state) : state.AllocatesApart := by
  intro instants vars group waitingQueue hreach hqueue manager' hrun sequenceId blockTable hlookup
  rcases Scheduler.untabled_of_reachesPrefill h.untabled h.distinct hreach
    with ⟨htouches, hsubset, huntabled⟩
  have hmem : group ∈ vars.waitingQueue := by
    rw [hqueue]
    exact List.mem_cons_self
  have hnone : vars.scheduler.memory.blockManager.blockTables.lookup sequenceId = none := by
    by_cases hne : sequenceId = 0
    . apply huntabled group hmem
      rw [SequenceGroup.sequenceIds, h.groups group (by simp [Scheduler.groups, hsubset hmem]), hne]
      exact List.mem_singleton_self 0
    . rw [htouches sequenceId fun group hgroup => notMem h.toAllZero hne hgroup]
      exact h.lookup_of_ne sequenceId hne
  rw [hnone] at hlookup
  cases hlookup

end Alone

theorem alone_of_reachable {initial : RunState} (hinitial : Alone initial)
    (h : ReachableWith HandsOverAlone initial state) : Alone state := by
  induction h with
  | init => exact hinitial
  | step _ hP hstep ih => exact ih.step hP hstep

/--
In every run that hands requests over one at a time, each after the tables of those before it are
gone, the identifiers of live groups are disjoint and an allocation touches no table of another
request. A request that is handed over in any other state breaks this at once.
-/
theorem tablesApart_of_handsOverAlone (config : SchedulerConfig)
    (blockSize numCpuBlocks numGpuBlocks : Nat) (slidingWindow : Option Nat)
    (sequences : SequenceHeap) (now : Nat)
    : (∀ state,
        ReachableWith HandsOverAlone
            (.start config blockSize numCpuBlocks numGpuBlocks slidingWindow sequences now) state
          → state.TablesApart ∧ state.AllocatesApart)
      ∧ (∀ state state',
        ReachableWith (fun _ _ => True)
            (.start config blockSize numCpuBlocks numGpuBlocks slidingWindow sequences now) state
          → Step state .accept state'
          → (state'.TablesApart ↔ HandsOverAlone state .accept)) := by
  have hinitial : AllZero
      (.start config blockSize numCpuBlocks numGpuBlocks slidingWindow sequences now) :=
    ⟨rfl, by simp [RunState.start, Scheduler.new, Scheduler.groups]⟩
  constructor
  . intro state hreach
    have halone := alone_of_reachable
      ⟨hinitial, by simp [RunState.start, Scheduler.new, Scheduler.groups],
        fun _ hmem => absurd hmem List.not_mem_nil, fun _ _ => rfl⟩
      hreach
    exact ⟨halone.tablesApart, halone.allocatesApart⟩
  . intro state state' hreach hstep
    have hzero' := (allZero_of_reachable hinitial hreach).step hstep
    rcases hstep.of_accept with ⟨group, addr, hwaiting, hperm, hsequences, hmanager, -⟩
    have hlength := hperm.length_eq
    rw [List.length_cons] at hlength
    refine ⟨fun hapart _ => ⟨?_, ?_⟩, hstep.tablesApart⟩
    . by_contra hlive
      have := List.length_pos_of_ne_nil hlive
      exact hzero'.not_liveDisjoint (by omega) hapart.liveDisjoint
    . rw [← hmanager]
      refine hapart.untabled group (by simp [hwaiting]) _ ?_
      rw [SequenceGroup.sequenceIds, hsequences]
      exact List.mem_singleton_self _

def shortRequest (tokenIds : List Nat) : ValidGenerateRequest where
  inputs := "a"
  encoding := tokenIds
  parameters := {
    n := 1
    bestOf := 1
    temperature := 1
    topK := 0
    topP := 1
    doSample := false
    randomSeed := 0
    repetitionPenalty := 1
    repeatLastN := 0
  }
  stoppingParameters := { maxNewTokens := 4, stopSequences := [], ignoreEosToken := false }
  returnFullText := false

def shortGroup (requestId : String) (addr : Nat) : SequenceGroup where
  requestId
  sequences := [⟨0, addr⟩]
  arrivalTime := addr
  nextTokenChooserParams := (shortRequest []).parameters
  stoppingCriteria := (shortRequest []).stoppingParameters
  logitsProcessor := ⟨0, .argMax⟩

def shortSequence (tokenIds : List Nat) : Sequence :=
  { Scheduler.waitingSequence tokenIds with prompt := "a" }

/--
The state after the request `requestId` was accepted.
-/
def acceptShort (scheduler : Scheduler) (requestId : String) (addr : Nat) (tokenIds : List Nat)
    : RunState where
  service := LlmService.start 1
  scheduler := {
    scheduler with
    memory.sequences :=
      Function.update scheduler.memory.sequences ⟨0, addr⟩ (shortSequence tokenIds)
  }.addSequenceGroup (shortGroup requestId addr)

theorem step_acceptShort {scheduler : Scheduler} {requestId : String} {addr : Nat}
    {tokenIds : List Nat}
    (haddr : ∀ live ∈ scheduler.groups, ∀ seq ∈ live.sequences, seq.addr ≠ addr)
    (hrequest : (LlmService.start 1).handleRequest requestId addr addr (.ok (shortRequest tokenIds))
      = .ok (shortGroup requestId addr, shortSequence tokenIds, LlmService.start 1))
    : Step ⟨LlmService.start 1, scheduler⟩ .accept
        (acceptShort scheduler requestId addr tokenIds) :=
  Step.accept requestId addr addr
    (.ok (shortRequest tokenIds)) (shortGroup requestId addr) (shortSequence tokenIds) _ haddr
    hrequest

/--
The first prompt is too long and ignored, and the second request is handed over after that.
-/
theorem tablesApart_of_handsOverAlone_second
    : ∃ state : RunState,
        ReachableWith HandsOverAlone
            (.start ⟨2, 2, 2, 0, false⟩ 1 4 4 none (fun _ => Scheduler.waitingSequence []) 0) state
          ∧ state.scheduler.groups.map (·.requestId) = ["second"]
          ∧ state.TablesApart
          ∧ state.scheduler.memory.blockManager.AllocatesApart (shortGroup "second" 1)
              state.scheduler.memory.sequences := by
  let initial : RunState :=
    .start ⟨2, 2, 2, 0, false⟩ 1 4 4 none (fun _ => Scheduler.waitingSequence []) 0
  let first := acceptShort initial.scheduler "first" 0 [5, 6, 7]
  have hfirst : Step initial .accept first := step_acceptShort (by decide) rfl
  have hrun : (first.scheduler.schedule ⟨2, 2, fun _ => 2, 2⟩).toOption.any
      (fun result =>
        result.2.1.ignoredSeqGroups.map (·.requestId) = ["first"]
          ∧ result.2.2.waiting = []
          ∧ result.2.2.running = []
          ∧ result.2.2.swapped = []
          ∧ result.2.2.schedulerConfig.enableChunkedPrefill = false
          ∧ result.2.2.memory.blockManager.blockTables.lookup 0 = none) = true := by
    decide +kernel
  rcases Except.exists_eq_ok_of_any hrun with ⟨⟨metadata, outputs, scheduler⟩, hok, hvalues⟩
  rw [decide_eq_true_eq] at hvalues
  rcases hvalues with ⟨-, hwaiting, hrunning, hswapped, hdefault, hlookup⟩
  dsimp only at hwaiting hrunning hswapped hdefault hlookup
  have hgroups : scheduler.groups = [] := by simp [Scheduler.groups, hwaiting, hrunning, hswapped]
  have hschedule : Step first .schedule { first with scheduler } := .schedule _ _ _ _ hok
  let second := acceptShort scheduler "second" 1 [8]
  have hsecond : Step { first with scheduler } .accept second :=
    step_acceptShort (by simp [hgroups]) rfl
  have hnoAccept : HandsOverAlone first .schedule := by
    intro haccept
    cases haccept
  have hreach := ((ReachableWith.init.step (fun _ => ⟨rfl, rfl⟩) hfirst).step hnoAccept
    hschedule).step (P := HandsOverAlone) (fun _ => ⟨hgroups, hlookup⟩) hsecond
  rcases (tablesApart_of_handsOverAlone _ _ _ _ _ _ _).1 second hreach with ⟨htables, hallocates⟩
  have hqueue : second.scheduler.waiting = [shortGroup "second" 1] := by
    simp [second, acceptShort, Scheduler.addSequenceGroup, hwaiting]
  have hprefill : second.scheduler.ReachesPrefill ⟨2, 2, fun _ => 2, 2⟩
      (.start second.scheduler second.scheduler.waiting
        (second.scheduler.includeRunning second.scheduler.newBudget)) := by
    unfold Scheduler.ReachesPrefill
    rw [if_neg (by simp [second, acceptShort, Scheduler.addSequenceGroup, hdefault])]
    exact ⟨hswapped, .refl⟩
  refine ⟨second, hreach, ?_, htables, hallocates _ _ _ [] hprefill hqueue⟩
  have hperm := Scheduler.groups_addSequenceGroup_perm scheduler (shortGroup "second" 1)
  rw [hgroups, List.perm_singleton] at hperm
  exact congrArg (List.map (·.requestId)) hperm

/--
Two requests are handed over and scheduled together. Their sequences share an identifier, the block
table of the second replaces that of the first, and the block of the first is in no table and not
free either.
-/
theorem liveDisjoint_fails_two_requests
    : ∃ waiting scheduled : RunState,
        ReachableWith (fun _ _ => True)
            (.start ⟨2, 2, 2, 0, false⟩ 1 4 4 none (fun _ => Scheduler.waitingSequence []) 0)
            waiting
          ∧ ¬ waiting.LiveDisjoint
          ∧ Step waiting .schedule scheduled
          ∧ scheduled.scheduler.running.map (·.requestId) = ["first", "second"]
          ∧ scheduled.scheduler.memory.blockManager.blockTables.entries
              = [⟨0, [⟨.gpu, 2⟩]⟩]
          ∧ scheduled.scheduler.memory.blockManager.gpuAllocator.freeBlocks
              = [⟨.gpu, 1⟩, ⟨.gpu, 0⟩] := by
  let initial : RunState :=
    .start ⟨2, 2, 2, 0, false⟩ 1 4 4 none (fun _ => Scheduler.waitingSequence []) 0
  let first := acceptShort initial.scheduler "first" 0 [5]
  let second := acceptShort first.scheduler "second" 1 [6]
  have hfirst : Step initial .accept first := step_acceptShort (by decide) rfl
  have hsecond : Step first .accept second := step_acceptShort (by decide) rfl
  have hrun : (second.scheduler.schedule ⟨2, 2, fun _ => 2, 2⟩).toOption.any
      (fun result =>
        result.2.2.running.map (·.requestId) = ["first", "second"]
          ∧ result.2.2.memory.blockManager.blockTables.entries = [⟨0, [⟨.gpu, 2⟩]⟩]
          ∧ result.2.2.memory.blockManager.gpuAllocator.freeBlocks
              = [⟨.gpu, 1⟩, ⟨.gpu, 0⟩]) = true := by
    decide +kernel
  rcases Except.exists_eq_ok_of_any hrun with ⟨⟨metadata, outputs, scheduler⟩, hok, hvalues⟩
  rw [decide_eq_true_eq] at hvalues
  have hreach := ((ReachableWith.init (P := fun _ _ => True)).step trivial hfirst).step trivial
    hsecond
  refine ⟨second, { second with scheduler }, hreach, ?_, .schedule _ metadata outputs _ hok,
    hvalues⟩
  have hzero : AllZero second := ⟨rfl, by decide⟩
  exact hzero.not_liveDisjoint (by decide)

end LlmService

end AtomaInfer
