import AtomaInfer.Scheduler.Passes
import AtomaInfer.Scheduler.Refines

/-!
How a call of `schedule` with an empty batch can leave groups in the queues.
-/

namespace AtomaInfer

/--
No group is scheduled so far.
-/
def SchedulerRunningOutputs.IsEmpty (outputs : SchedulerRunningOutputs) : Prop :=
  outputs.prefillSeqGroups = [] ∧ outputs.decodeSeqGroups = []

def SchedulerSwappedInOutputs.IsEmpty (outputs : SchedulerSwappedInOutputs) : Prop :=
  outputs.prefillSeqGroups = [] ∧ outputs.decodeSeqGroups = []

namespace Scheduler

/--
The running sequences of the group have no blocks.
-/
def HoldsNoBlocks (memory : Memory) (group : SequenceGroup) : Prop :=
  ∀ sequenceId ∈ group.getSequencesIds memory.sequences .running,
    (memory.blockManager.blockTables.lookup sequenceId).getD [] = []

/--
The last running group does not get its slots, and its blocks are freed.
-/
def RunningVars.PreemptsLast (vars : RunningVars) : Prop :=
  ∃ group numRunningTokens,
    vars.current = some (group, numRunningTokens)
      ∧ vars.runningQueue = []
      ∧ vars.scheduler.canAppendSlots group = false
      ∧ (group.getMaxNumRunningSeqs vars.scheduler.memory.sequences = 1
          ∨ HoldsNoBlocks vars.scheduler.memory group)

/--
There is a running group, and no token in the budget for it.
-/
def RunningVars.LacksTokens (enableChunking : Bool) (vars : RunningVars) : Prop :=
  ∃ group runningQueue,
    vars.current = none
      ∧ vars.runningQueue = group :: runningQueue
      ∧ vars.scheduler.getNumTokens group .running enableChunking vars.budget = .ok 0

/--
The first swapped group cannot be swapped in yet, or the budget does not allow it.
-/
def SwappedVars.Defers (enableChunking : Bool) (vars : SwappedVars) : Prop :=
  ∃ group swappedQueue,
    vars.swappedQueue = group :: swappedQueue
      ∧ (vars.scheduler.memory.blockManager.canSwapIn group vars.scheduler.memory.sequences = .later
          ∨ vars.scheduler.memory.blockManager.canSwapIn group vars.scheduler.memory.sequences = .ok
            ∧ ∃ numNewTokens,
                vars.scheduler.getNumTokens group .swapped enableChunking vars.budget
                    = .ok numNewTokens
                  ∧ vars.canSchedule numNewTokens
                      (group.getMaxNumRunningSeqs vars.scheduler.memory.sequences) = .ok false)

/--
The first waiting group cannot be allocated yet, or the budget does not allow it.
-/
def PrefillVars.Defers (enableChunking : Bool) (vars : PrefillVars) : Prop :=
  ∃ group waitingQueue numNewTokens,
    vars.waitingQueue = group :: waitingQueue
      ∧ vars.scheduler.getNumTokens group .waiting enableChunking vars.budget = .ok numNewTokens
      ∧ numNewTokens ≤ vars.scheduler.getPromptLimit
      ∧ (vars.scheduler.memory.blockManager.canAllocate group vars.scheduler.memory.sequences
            = .later
          ∨ vars.scheduler.memory.blockManager.canAllocate group vars.scheduler.memory.sequences
              = .ok
            ∧ vars.canSchedule numNewTokens
                (group.getMaxNumRunningSeqs vars.scheduler.memory.sequences) = .ok false)

section Calls

variable (scheduler : Scheduler) (instants : Instants)

/--
A call of `schedule` comes to an iteration of `schedule_swapped` with the variables `vars`, and no
running group is scheduled.
-/
def ReachesSwapped (vars : SwappedVars) : Prop :=
  ∃ before running,
    scheduler.beforeRunning instants = .ok before
      ∧ before.prefills.sequenceGroups = []
      ∧ (runningLoop scheduler.schedulerConfig.enableChunkedPrefill).run
          (before.runningStart instants) = .ok running
      ∧ running.outputs.preempted = []
      ∧ running.outputs.swappedOut = []
      ∧ running.outputs.IsEmpty
      ∧ (swappedLoop scheduler.schedulerConfig.enableChunkedPrefill).Reaches
          (SwappedVars.start running.scheduler before.remainingSwapped running.budget
            instants.swapped) vars

/--
A call of `schedule` comes to an iteration of `schedule_prefills` with the variables `vars`. With
chunked prefills, it has scheduled nothing else; otherwise there is nothing else to schedule.
-/
def ReachesPrefills (vars : PrefillVars) : Prop :=
  if scheduler.schedulerConfig.enableChunkedPrefill then
    ∃ after,
      (PolicyVars.start scheduler scheduler.newBudget).scheduleRunningAndSwapped true instants
          = .ok after
        ∧ after.runningScheduled.IsEmpty
        ∧ after.runningScheduled.blocksToSwapOut = ∅
        ∧ after.swappedIn.IsEmpty
        ∧ (prefillLoop true instants.prefills).Reaches
            (PrefillVars.start after.scheduler after.remainingWaiting after.budget) vars
  else
    scheduler.swapped = []
      ∧ scheduler.running = []
      ∧ (prefillLoop false instants.prefills).Reaches
          (PrefillVars.start scheduler scheduler.waiting
            (scheduler.includeRunning scheduler.newBudget)) vars

/--
The branches that leave a group behind while the batch is empty.
-/
inductive Strands : Prop where
  | preempts (vars : RunningVars) (hreach : scheduler.ReachesRunning instants vars)
      (hempty : vars.outputs.IsEmpty) (hout : vars.outputs.blocksToSwapOut = ∅)
      (hpreempts : vars.PreemptsLast)
  | lacksTokens (vars : RunningVars) (hreach : scheduler.ReachesRunning instants vars)
      (hempty : vars.outputs.IsEmpty)
      (hlacks : vars.LacksTokens scheduler.schedulerConfig.enableChunkedPrefill)
  | defersSwapped (vars : SwappedVars) (hreach : scheduler.ReachesSwapped instants vars)
      (hempty : vars.outputs.IsEmpty)
      (hdefers : vars.Defers scheduler.schedulerConfig.enableChunkedPrefill)
  | dropsSwapped (vars : SwappedVars) (hreach : scheduler.ReachesSwapped instants vars)
      (hempty : vars.outputs.IsEmpty) (hqueue : vars.swappedQueue = [])
      (hchunked : scheduler.schedulerConfig.enableChunkedPrefill = false)
      (hswapped : scheduler.swapped ≠ []) (hwaiting : scheduler.waiting ≠ [])
  | defersWaiting (vars : PrefillVars) (hreach : scheduler.ReachesPrefills instants vars)
      (hempty : vars.outputs.sequenceGroups = [])
      (hdefers : vars.Defers scheduler.schedulerConfig.enableChunkedPrefill)

end Calls

section SwapOut

variable {source target : BlockDevice} {manager manager' : BlockSpaceManager}
variable {mapping mapping' : BlockSpaceManager.SwapMapping}

theorem ne_empty_of_swapBlock {acc acc' : BlockSpaceManager.SwapMapping × BlockTable}
    {block : SyncPhysicalTokenBlock}
    (h : (BlockSpaceManager.swapBlock source target acc block).run manager = .ok acc' manager')
    : acc'.1 ≠ ∅ := by
  simp only [BlockSpaceManager.swapBlock, EStateM.bind_run_eq_ok] at h
  rcases h with ⟨⟨mapping, newBlock⟩, between, hnew, _, _, -, hpure⟩
  cases hpure
  unfold BlockSpaceManager.swapBlock.newBlock at hnew
  have hsome : (mapping.lookup block.blockNumber).isSome = true := by
    split at hnew
    . rcases EStateM.bind_run_eq_ok.mp hnew with ⟨_, _, -, hpure⟩
      cases hpure
      rw [AList.lookup_insert]
      rfl
    . next hlookup =>
      rcases EStateM.bind_run_eq_ok.mp hnew with ⟨_, _, -, hpure⟩
      cases hpure
      rw [hlookup]
      rfl
  rintro rfl
  cases hsome

/--
A table with blocks adds to the mapping, and the others stay empty.
-/
theorem getD_lookup_of_swapTable {sequenceId : Nat}
    (h : (BlockSpaceManager.swapTable source target mapping sequenceId).run manager
      = .ok mapping' manager') (hempty : mapping' = ∅)
    : mapping = ∅
        ∧ (manager.blockTables.lookup sequenceId).getD [] = []
        ∧ ∀ other, (manager'.blockTables.lookup other).getD []
            = (manager.blockTables.lookup other).getD [] := by
  simp only [BlockSpaceManager.swapTable, EStateM.bind_run_eq_ok] at h
  rcases h with ⟨_, _, hget, h⟩
  cases hget
  split at h
  . next hlookup =>
    cases h
    exact ⟨hempty, by rw [hlookup]; rfl, fun _ => rfl⟩
  . next blockTable hlookup =>
    simp only [EStateM.bind_run_eq_ok] at h
    rcases h with ⟨⟨mapping'', newBlockTable⟩, between, hfold, _, _, hmodify, hpure⟩
    cases hmodify
    cases hpure
    cases blockTable with
    | nil =>
      cases hfold
      refine ⟨hempty, by rw [hlookup]; rfl, ?_⟩
      intro other
      dsimp only [BlockSpaceManager.insertTable]
      by_cases heq : other = sequenceId
      . rw [heq, AList.lookup_insert, hlookup]
      . rw [AList.lookup_insert_ne heq]
    | cons block blockTable =>
      rw [List.foldlM_cons] at hfold
      rcases EStateM.bind_run_eq_ok.mp hfold with ⟨acc, _, hblock, hrest⟩
      have hne := EStateM.foldlM_run_invariant
        (I := fun _ (acc : BlockSpaceManager.SwapMapping × BlockTable) _ => acc.1 ≠ ∅)
        (fun _ hnext => ne_empty_of_swapBlock hnext) hrest (ne_empty_of_swapBlock hblock)
      exact absurd hempty hne

theorem toAList_map_eq_empty (h : (mapping.entries.map fun e =>
    (⟨e.1, e.2.blockNumber⟩ : Sigma fun _ : Nat => Nat)).toAList = ∅) : mapping = ∅ := by
  cases hentries : mapping.entries with
  | nil => exact AList.ext hentries
  | cons e entries =>
    rw [hentries] at h
    have hlookup := congrArg (AList.lookup e.1) h
    rw [AList.lookup_to_alist, List.map_cons, List.dlookup_cons_eq] at hlookup
    cases hlookup

/--
When swapping a group out moves no block, the group has none.
-/
theorem holdsNoBlocks_of_swapOut {scheduler scheduler' : Scheduler} {group : SequenceGroup}
    {blocks : BlockMapping} (h : scheduler.swapOut group blocks = .ok (∅, scheduler'))
    : blocks = ∅ ∧ HoldsNoBlocks scheduler.memory group := by
  simp only [swapOut] at h
  split at h
  . cases h
  . rcases Except.bind_eq_ok.mp h with ⟨⟨numbers, next⟩, honMemory, hpure⟩
    rcases onMemory_eq_ok honMemory with ⟨memory, hrun, rfl⟩
    have hunion : numbers ∪ blocks = ∅ := by
      injection hpure with hpair
      exact congrArg Prod.fst hpair
    rcases AList.eq_empty_of_union_eq_empty hunion with ⟨rfl, hblocks⟩
    refine ⟨hblocks, ?_⟩
    simp only [Memory.swapOut, Memory.swap, EStateM.bind_run_eq_ok] at hrun
    rcases hrun with ⟨_, _, hget, mapping, _, hfold, hpure⟩
    cases hget
    have hmapping : mapping = ∅ := by
      injection hpure with hnumbers
      exact toAList_map_eq_empty hnumbers
    -- the tables keep their blocks as long as the mapping is empty
    have hinvariant := EStateM.foldlM_run_invariant
      (I := fun ids (mapping : BlockSpaceManager.SwapMapping) (memory : Memory) =>
        mapping = ∅ →
          (∀ id, (memory.blockManager.blockTables.lookup id).getD []
              = (scheduler.memory.blockManager.blockTables.lookup id).getD [])
            ∧ ∀ id ∈ group.getSequencesIds scheduler.memory.sequences .running, id ∉ ids →
                (scheduler.memory.blockManager.blockTables.lookup id).getD [] = [])
      (by
        intro id ids mapping mapping' memory memory' hI hstep hempty
        simp only [EStateM.bind_run_eq_ok] at hstep
        rcases hstep with ⟨_, swapped, hswap, _, _, hstatus, hpure⟩
        cases hpure
        rcases onBlockManager_run_eq_ok hswap with ⟨manager, htable, rfl⟩
        rcases getD_lookup_of_swapTable htable hempty with ⟨hmapping, hnone, hsame⟩
        rcases hI hmapping with ⟨hkept, hseen⟩
        have hmanager : memory'.blockManager = manager := by
          split at hstatus
          . cases hstatus
          . cases hstatus
            rfl
        refine ⟨?_, ?_⟩
        . intro other
          rw [hmanager, hsame other]
          exact hkept other
        . intro other hother hnot
          by_cases heq : other = id
          . rw [heq, ← hkept id]
            exact hnone
          . exact hseen other hother (by simp [heq, hnot])) hfold (fun _ => ⟨fun _ => rfl, fun id hid hnot => absurd hid hnot⟩)
    intro id hid
    exact (hinvariant hmapping).2 id hid (List.not_mem_nil)

end SwapOut

section Loops

variable {enableChunking : Bool}

theorem RunningVars.addScheduled_isEmpty {outputs : SchedulerRunningOutputs} {isPrefill : Bool}
    {group : SequenceGroup} {numTokens : Nat}
    : ¬ (outputs.addScheduled isPrefill group numTokens).IsEmpty := by
  rintro ⟨hprefill, hdecode⟩
  unfold SchedulerRunningOutputs.addScheduled at hprefill hdecode
  cases isPrefill with
  | true => simp at hprefill
  | false => simp at hdecode

/--
A loop that schedules nothing and swaps nothing out preempts nothing either, unless it preempts the
last group.
-/
theorem RunningVars.queues_of_isEmpty {start vars : RunningVars}
    (h : (runningLoop enableChunking).run start = .ok vars)
    (hpreempted : start.outputs.preempted = []) (hswappedOut : start.outputs.swappedOut = [])
    (hpreempts : ∀ vars, (runningLoop enableChunking).Reaches start vars →
      vars.outputs.IsEmpty → vars.outputs.blocksToSwapOut = ∅ → ¬ vars.PreemptsLast)
    (hlacks : ∀ vars, (runningLoop enableChunking).Reaches start vars →
      vars.outputs.IsEmpty → ¬ vars.LacksTokens enableChunking)
    (hempty : vars.outputs.IsEmpty) (hout : vars.outputs.blocksToSwapOut = ∅)
    : vars.runningQueue = [] ∧ vars.outputs.preempted = [] ∧ vars.outputs.swappedOut = [] := by
  rcases (runningLoop enableChunking).exists_last_of_run_eq_ok h with ⟨last, hreach, hlast⟩
  rcases of_step_eq_inr hlast with ⟨rfl, hcurrent, hqueue⟩
  refine ⟨?_, ?_⟩
  . rcases hqueue with hqueue | ⟨group, runningQueue, hqueue, htokens⟩
    . exact hqueue
    . exact absurd ⟨group, runningQueue, hcurrent, hqueue, htokens⟩ (hlacks vars hreach hempty)
  . have hinvariant := (runningLoop enableChunking).invariant_of_reaches
      (I := fun vars => (runningLoop enableChunking).Reaches start vars
        ∧ (vars.outputs.IsEmpty → vars.outputs.blocksToSwapOut = ∅ → vars.current = none →
          vars.outputs.preempted = [] ∧ vars.outputs.swappedOut = [])) (by
      rintro vars vars' ⟨hreach, hI⟩ hstep
      refine ⟨hreach.tail hstep, ?_⟩
      cases next_of_step hstep with
      | take => exact fun _ _ hnone => (nomatch hnone)
      | preemptVictim group victim runningQueue numRunningTokens budget budget' vars'' hcurrent =>
        intro _ _ hnone
        rw [hcurrent] at hnone
        cases hnone
      | preemptSelf group numRunningTokens budget budget' vars'' hcurrent hcan _ _ hqueue hpreempt =>
        intro hempty hout _
        exfalso
        rcases preempt_eq_ok hpreempt with ⟨hone, _, -, rfl⟩ | ⟨hone, blocks, scheduler, hswap, rfl⟩
        . exact hpreempts vars hreach hempty hout
            ⟨group, numRunningTokens, hcurrent, hqueue, hcan, .inl hone⟩
        . cases hout
          rcases holdsNoBlocks_of_swapOut hswap with ⟨hbefore, hblocks⟩
          exact hpreempts vars hreach hempty hbefore
            ⟨group, numRunningTokens, hcurrent, hqueue, hcan, .inr hblocks⟩
      | schedule group numRunningTokens vars'' hcurrent hcan hschedule =>
        intro hempty
        rcases schedule_eq_ok hschedule with ⟨blocksToCopy, scheduler, -, rfl⟩
        exact absurd hempty addScheduled_isEmpty) hreach
      ⟨.refl, fun _ _ _ => ⟨hpreempted, hswappedOut⟩⟩
    exact hinvariant.2 hempty hout hcurrent

theorem SwappedVars.queue_of_isEmpty {start vars : SwappedVars}
    (h : (swappedLoop enableChunking).run start = .ok vars)
    (hdefers : ∀ vars, (swappedLoop enableChunking).Reaches start vars →
      vars.outputs.IsEmpty → ¬ vars.Defers enableChunking)
    (hempty : vars.outputs.IsEmpty)
    : vars.swappedQueue = [] ∧ (swappedLoop enableChunking).Reaches start vars := by
  rcases (swappedLoop enableChunking).exists_last_of_run_eq_ok h with ⟨last, hreach, hlast⟩
  rcases of_step_eq_inr hlast with ⟨rfl, -⟩
  refine ⟨?_, hreach⟩
  cases hqueue : vars.swappedQueue with
  | nil => rfl
  | cons group swappedQueue =>
    refine absurd ⟨group, swappedQueue, hqueue, ?_⟩ (hdefers vars hreach hempty)
    change vars.step enableChunking = _ at hlast
    unfold step at hlast
    rw [hqueue] at hlast
    dsimp only at hlast
    split at hlast
    . next hcan => exact .inl hcan
    . cases hlast
    . next hok =>
      simp only [admitNext, Except.bind_eq_ok] at hlast
      rcases hlast with ⟨numNewTokens, htokens, canSchedule, hcan, hlast⟩
      cases canSchedule with
      | false => exact .inr ⟨hok, numNewTokens, htokens, hcan⟩
      | true =>
        rcases Except.bind_eq_ok.mp hlast with ⟨_, -, hpure⟩
        cases hpure
    . next hnothing => exact absurd hnothing (canSwapIn_ne_nothing _ _)

theorem passedDelay_of_delayFactor_eq_zero (scheduler : Scheduler) (now : Nat)
    (h : scheduler.schedulerConfig.delayFactor = 0) : (scheduler.passedDelay now).1 = true := by
  unfold passedDelay
  dsimp only
  split
  . rfl
  . rw [if_neg (by simp [h])]

theorem PrefillVars.queue_of_isEmpty {now : Nat → Nat} {start vars : PrefillVars}
    (h : (prefillLoop enableChunking now).run start = .ok vars)
    (hdelay : start.scheduler.schedulerConfig.delayFactor = 0)
    (hdefers : ∀ vars, (prefillLoop enableChunking now).Reaches start vars →
      vars.outputs.sequenceGroups = [] → ¬ vars.Defers enableChunking)
    (hempty : vars.outputs.sequenceGroups = [])
    : vars.waitingQueue = [] := by
  rcases (prefillLoop enableChunking now).exists_last_of_run_eq_ok h with ⟨last, hreach, hlast⟩
  have hconfig := (prefillLoop enableChunking now).invariant_of_reaches
    (I := fun vars => vars.scheduler.schedulerConfig = start.scheduler.schedulerConfig)
    (fun hI hstep => (next_of_step hstep).schedulerConfig_eq.trans hI) hreach rfl
  have houtputs : vars.waitingQueue = last.waitingQueue ∧ vars.outputs = last.outputs := by
    rcases of_step_eq_inr hlast with rfl | rfl | rfl <;> exact ⟨rfl, rfl⟩
  rw [houtputs.2] at hempty
  rw [houtputs.1]
  cases hqueue : last.waitingQueue with
  | nil => rfl
  | cons group waitingQueue =>
    refine absurd ?_ (hdefers last hreach hempty)
    change last.step enableChunking now = _ at hlast
    unfold step at hlast
    split at hlast
    . next hnil =>
      rw [hqueue] at hnil
      cases hnil
    . next group' waitingQueue' hcons =>
      rw [hqueue] at hcons
      cases hcons
      dsimp only at hlast
      rw [if_pos (passedDelay_of_delayFactor_eq_zero _ _ (by rw [hconfig]; exact hdelay))] at hlast
      change (last.enter now).consider enableChunking group waitingQueue = _ at hlast
      simp only [consider, Except.bind_eq_ok] at hlast
      rcases hlast with ⟨numNewTokens, htokens, _, hcheck, hlast⟩
      have hsame : (last.enter now).scheduler.getNumTokens group .waiting enableChunking last.budget
          = last.scheduler.getNumTokens group .waiting enableChunking last.budget := by
        unfold getNumTokens
        rw [memory_enter]
      have hlimit : (last.enter now).scheduler.getPromptLimit = last.scheduler.getPromptLimit := by
        unfold getPromptLimit enter
        rw [schedulerConfig_passedDelay]
      split at hlast
      . cases hlast
      . next hle =>
        rw [hlimit, Nat.not_lt] at hle
        refine ⟨group, waitingQueue, numNewTokens, hqueue, hsame.symm.trans htokens, hle, ?_⟩
        split at hlast
        . next hcan =>
          rw [memory_enter] at hcan
          exact .inl hcan
        . cases hlast
        . next hok =>
          simp only [admitNext, Except.bind_eq_ok, memory_enter] at hlast hok
          rcases hlast with ⟨canSchedule, hcan, hlast⟩
          cases canSchedule with
          | false => exact .inr ⟨hok, hcan⟩
          | true =>
            rcases Except.bind_eq_ok.mp hlast with ⟨_, -, hpure⟩
            cases hpure
        . next hnothing => exact absurd hnothing (ne_nothing_of_checkSequences hcheck)

end Loops

section Schedule

variable {scheduler scheduler' : Scheduler} {instants : Instants} {before vars : PolicyVars}
variable {outputs : SchedulerOutputs}

/--
When neither of the two loops schedules a group and no branch strands one, their queues were empty,
but for the swapped groups that are dropped.
-/
theorem queues_of_scheduleRunningAndSwapped
    (h : before.scheduleRunningAndSwapped scheduler.schedulerConfig.enableChunkedPrefill instants
      = .ok vars)
    (hbefore : scheduler.beforeRunning instants = .ok before)
    (hprefills : before.prefills.sequenceGroups = []) (hstrands : ¬ scheduler.Strands instants)
    (hrunning : vars.runningScheduled.IsEmpty)
    (hout : vars.runningScheduled.blocksToSwapOut = ∅)
    (hswapped : vars.swappedIn.IsEmpty)
    : before.remainingRunning = []
        ∧ vars.remainingRunning = []
        ∧ vars.runningScheduled.preempted = []
        ∧ vars.runningScheduled.swappedOut = []
        ∧ vars.remainingSwapped = []
        ∧ ∃ swapped, scheduler.ReachesSwapped instants swapped
            ∧ swapped.outputs.IsEmpty
            ∧ swapped.swappedQueue = [] := by
  simp only [PolicyVars.scheduleRunningAndSwapped, Except.bind_eq_ok] at h
  rcases h with ⟨running, hrun, h⟩
  have houtputs : vars.runningScheduled = running.outputs
      ∧ vars.remainingRunning = running.runningQueue := by
    split at h
    . rcases Except.bind_eq_ok.mp h with ⟨swapped, -, hpure⟩
      cases hpure
      exact ⟨rfl, rfl⟩
    . cases h
      exact ⟨rfl, rfl⟩
  rw [houtputs.1] at hrunning hout ⊢
  rw [houtputs.2]
  rcases RunningVars.queues_of_isEmpty hrun rfl rfl
    (fun vars hreach hempty hout hpreempts =>
      hstrands (.preempts vars ⟨before, hbefore, hprefills, hreach⟩ hempty hout hpreempts))
    (fun vars hreach hempty hlacks =>
      hstrands (.lacksTokens vars ⟨before, hbefore, hprefills, hreach⟩ hempty hlacks))
    hrunning hout with ⟨hqueue, hpreempted, hswappedOut⟩
  have hstart : before.remainingRunning = [] := by
    rcases scheduleRunning_groups_perm hrun with ⟨hperm, hcurrent⟩
    have hgroups : running.groups = [] := by
      simp [RunningVars.groups, hqueue, hpreempted, hswappedOut, hcurrent, hrunning.1, hrunning.2]
    rw [hgroups] at hperm
    exact hperm.nil_eq.symm
  rw [if_pos (by simp [hpreempted, hswappedOut])] at h
  rcases Except.bind_eq_ok.mp h with ⟨swapped, hswap, hpure⟩
  cases hpure
  rcases SwappedVars.queue_of_isEmpty hswap
    (fun vars hreach hempty hdefers =>
      hstrands (.defersSwapped vars ⟨before, running, hbefore, hprefills, hrun, hpreempted,
        hswappedOut, hrunning, hreach⟩ hempty hdefers))
    hswapped with ⟨hswappedQueue, hreach⟩
  exact ⟨hstart, hqueue, hpreempted, hswappedOut, hswappedQueue, swapped,
    ⟨before, running, hbefore, hprefills, hrun, hpreempted, hswappedOut, hrunning, hreach⟩,
    hswapped, hswappedQueue⟩

theorem waitingQueue_of_schedulePrefills {vars' : PolicyVars} {enableChunking : Bool}
    (h : vars.schedulePrefills enableChunking instants = .ok vars')
    (hdelay : vars.scheduler.schedulerConfig.delayFactor = 0)
    (hdefers : ∀ current, (prefillLoop enableChunking instants.prefills).Reaches
        (PrefillVars.start vars.scheduler vars.remainingWaiting vars.budget) current →
      current.outputs.sequenceGroups = [] → ¬ current.Defers enableChunking)
    (hempty : vars'.prefills.sequenceGroups = [])
    : vars'.remainingWaiting = [] := by
  simp only [PolicyVars.schedulePrefills, Scheduler.schedulePrefills, Except.bind_eq_ok] at h
  rcases h with ⟨prefills, ⟨last, hrun, hlast⟩, hpure⟩
  cases hpure
  have hsame : prefills.waitingQueue = last.waitingQueue ∧ prefills.outputs = last.outputs := by
    split at hlast <;> cases hlast <;> exact ⟨rfl, rfl⟩
  dsimp only at hempty ⊢
  rw [hsame.2] at hempty
  rw [hsame.1]
  exact PrefillVars.queue_of_isEmpty hrun hdelay hdefers hempty

theorem queues_of_scheduleChunkedPrefill
    (h : scheduler.scheduleChunkedPrefill instants = .ok (outputs, scheduler'))
    (hchunked : scheduler.schedulerConfig.enableChunkedPrefill = true)
    (hdelay : scheduler.schedulerConfig.delayFactor = 0) (hstrands : ¬ scheduler.Strands instants)
    (hscheduled : outputs.scheduledSequenceGroups = []) (hout : outputs.blocksToSwapOut = ∅)
    : scheduler'.waiting = [] ∧ scheduler'.running = [] ∧ scheduler'.swapped = [] := by
  rcases scheduleChunkedPrefill_eq_ok h with ⟨vars, running, hpasses, -, rfl, rfl, rfl⟩
  simp only [PolicyVars.outputs, List.append_eq_nil_iff] at hscheduled hout
  rcases hscheduled with ⟨⟨⟨⟨hprefills, hprefill⟩, hprefill'⟩, hdecode⟩, hdecode'⟩
  simp only [chunkedPasses, Except.bind_eq_ok] at hpasses
  rcases hpasses with ⟨after, hrunning, hpasses⟩
  rcases PolicyVars.keeps_of_schedulePrefills hpasses with ⟨hkeeps, hkeeps', hremaining, hremaining'⟩
  rw [hkeeps] at hprefill hdecode hout
  rw [hkeeps'] at hprefill' hdecode'
  have hbefore : scheduler.beforeRunning instants
      = .ok (PolicyVars.start scheduler scheduler.newBudget) := by
    unfold beforeRunning
    rw [if_pos hchunked]
  have hrun := hrunning
  rw [← hchunked] at hrun
  rcases queues_of_scheduleRunningAndSwapped hrun hbefore rfl hstrands ⟨hprefill, hdecode⟩ hout
    ⟨hprefill', hdecode'⟩ with ⟨-, hqueue, hpreempted, hswappedOut, hswappedQueue, -⟩
  have hwaiting := waitingQueue_of_schedulePrefills hpasses (by
      rw [PolicyVars.schedulerConfig_of_scheduleRunningAndSwapped hrunning]
      exact hdelay) (by
      intro current hreach hnone hdefers
      refine hstrands (.defersWaiting current ?_ hnone (by rw [hchunked]; exact hdefers))
      unfold ReachesPrefills
      rw [if_pos hchunked]
      exact ⟨after, hrunning, ⟨hprefill, hdecode⟩, hout, ⟨hprefill', hdecode'⟩, hreach⟩) hprefills
  simp only [PolicyVars.writeQueues, hkeeps, hkeeps', hremaining, hremaining', hqueue, hpreempted,
    hswappedOut, hswappedQueue, hwaiting, hprefills, hdecode, hdecode', hprefill', groupsOf_nil,
    List.append_nil, and_self]

theorem queues_of_scheduleDefault
    (h : scheduler.scheduleDefault instants = .ok (outputs, scheduler'))
    (hchunked : scheduler.schedulerConfig.enableChunkedPrefill = false)
    (hdelay : scheduler.schedulerConfig.delayFactor = 0) (hstrands : ¬ scheduler.Strands instants)
    (hscheduled : outputs.scheduledSequenceGroups = []) (hout : outputs.blocksToSwapOut = ∅)
    : scheduler'.waiting = [] ∧ scheduler'.running = [] ∧ scheduler'.swapped = [] := by
  rcases scheduleDefault_eq_ok h
    with ⟨vars, running, hpasses, -, hprefill, hprefill', rfl, rfl, rfl⟩
  simp only [PolicyVars.outputs, List.append_eq_nil_iff] at hscheduled hout
  rcases hscheduled with ⟨⟨hprefills, hdecode⟩, hdecode'⟩
  rcases defaultPasses_eq_ok hpasses with ⟨before, hfirst, hrest⟩
  have hbefore : scheduler.beforeRunning instants = .ok before := by
    unfold beforeRunning
    rw [hchunked, if_neg Bool.false_ne_true]
    rcases hfirst with ⟨hnone, hfirst⟩ | ⟨hsome, rfl⟩
    . rw [if_pos hnone]
      exact hfirst
    . rw [if_neg (by simp [hsome])]
  rcases hrest with ⟨hnone, hrest⟩ | ⟨hsome, rfl⟩
  . rcases PolicyVars.keeps_of_scheduleRunningAndSwapped hrest with ⟨hkeeps, hwaitingKept⟩
    rw [hkeeps] at hprefills
    have hrun := hrest
    rw [← hchunked] at hrun
    rcases queues_of_scheduleRunningAndSwapped hrun hbefore hprefills hstrands
      ⟨hprefill, hdecode⟩ hout ⟨hprefill', hdecode'⟩
      with ⟨hstart, hqueue, hpreempted, hswappedOut, hswappedQueue, swapped, hreach, hswapped,
        hend⟩
    have hwaiting : before.remainingWaiting = [] := by
      rcases hfirst with ⟨hnoSwapped, hfirst⟩ | ⟨hsome, rfl⟩
      . have hrunning : scheduler.running = [] := by
          rw [(PolicyVars.keeps_of_schedulePrefills hfirst).2.2.1] at hstart
          exact hstart
        refine waitingQueue_of_schedulePrefills hfirst hdelay ?_ hprefills
        intro current hreach hnone hdefers
        refine hstrands (.defersWaiting current ?_ hnone (by rw [hchunked]; exact hdefers))
        unfold ReachesPrefills
        rw [hchunked, if_neg Bool.false_ne_true]
        exact ⟨List.isEmpty_iff.mp hnoSwapped, hrunning, hreach⟩
      . by_contra hne
        exact hstrands (.dropsSwapped swapped hreach hswapped hend hchunked (by
          intro hnil
          simp [hnil] at hsome) hne)
    simp only [PolicyVars.writeQueues, hkeeps, hwaitingKept, hqueue, hpreempted, hswappedOut,
      hswappedQueue, hwaiting, hprefills, hdecode, hdecode', groupsOf_nil, List.append_nil,
      and_self]
  . rw [hprefills] at hsome
    cases hsome

/--
A call with an empty batch leaves all queues empty, unless one of its branches strands a group.
-/
theorem queues_of_schedulePolicy
    (h : scheduler.schedulePolicy instants = .ok (outputs, scheduler'))
    (hdelay : scheduler.schedulerConfig.delayFactor = 0) (hstrands : ¬ scheduler.Strands instants)
    (hempty : outputs.isEmpty = true)
    : scheduler'.waiting = [] ∧ scheduler'.running = [] ∧ scheduler'.swapped = [] := by
  simp only [SchedulerOutputs.isEmpty, Bool.and_eq_true, List.isEmpty_iff] at hempty
  rcases hempty with ⟨⟨⟨hscheduled, -⟩, hout⟩, -⟩
  unfold schedulePolicy at h
  split at h
  . next hchunked =>
    exact queues_of_scheduleChunkedPrefill h hchunked hdelay hstrands hscheduled (AList.ext hout)
  . next hchunked =>
    exact queues_of_scheduleDefault h (by simpa using hchunked) hdelay hstrands hscheduled
      (AList.ext hout)

theorem queues_of_schedule {metadata : List SequenceGroupMetadata}
    (h : scheduler.schedule instants = .ok (metadata, outputs, scheduler'))
    (hdelay : scheduler.schedulerConfig.delayFactor = 0) (hstrands : ¬ scheduler.Strands instants)
    (hempty : outputs.isEmpty = true)
    : metadata = []
        ∧ scheduler'.waiting = []
        ∧ scheduler'.running = []
        ∧ scheduler'.swapped = [] := by
  rcases schedule_eq_ok h with ⟨passed, hpolicy, ⟨manager, rfl, -⟩, hmetadata⟩
  have hqueues := queues_of_schedulePolicy hpolicy hdelay hstrands hempty
  refine ⟨?_, hqueues⟩
  simp only [SchedulerOutputs.isEmpty, Bool.and_eq_true, List.isEmpty_iff] at hempty
  rw [hempty.1.1.1] at hmetadata
  exact List.forall₂_nil_left_iff.mp hmetadata

theorem schedulerConfig_of_schedule {metadata : List SequenceGroupMetadata}
    (h : scheduler.schedule instants = .ok (metadata, outputs, scheduler'))
    : scheduler'.schedulerConfig = scheduler.schedulerConfig := by
  rcases schedule_eq_ok h with ⟨passed, hpolicy, ⟨manager, rfl, -⟩, -⟩
  unfold schedulePolicy at hpolicy
  split at hpolicy
  . rcases scheduleChunkedPrefill_eq_ok hpolicy with ⟨vars, running, hpasses, -, -, rfl, -⟩
    exact schedulerConfig_of_chunkedPasses hpasses
  . rcases scheduleDefault_eq_ok hpolicy with ⟨vars, running, hpasses, -, -, -, -, rfl, -⟩
    exact schedulerConfig_of_defaultPasses hpasses

end Schedule

end Scheduler

end AtomaInfer
