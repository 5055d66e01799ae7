import AtomaInfer.Scheduler.Basic
import AtomaInfer.Util.EStateM
import AtomaInfer.Util.Loop

/-!
The scheduler (`scheduler.rs`). Its loops are `Loop`s over their local variables, among them the
scheduler itself, which is `self` in the source. The memory that holds the sequences and the blocks
is a part of the scheduler. The engine stops when a call fails, so the state after a failure is not
kept.
-/

namespace AtomaInfer

structure Scheduler where
  schedulerConfig : SchedulerConfig
  memory : Memory
  waiting : List SequenceGroup
  running : List SequenceGroup
  swapped : List SequenceGroup
  previousTime : Nat
  previousPrompt : Bool
  lastPromptLatency : ℚ
  numCumulativePreemption : Nat

/--
The instants that the calls of `Instant::now` return during one call of `schedule`; `prefills n` is
the one of the `n`-th iteration of `schedule_prefills`.
-/
structure Instants where
  running : Nat
  swapped : Nat
  prefills : Nat → Nat
  schedule : Nat

namespace Scheduler

def new (schedulerConfig : SchedulerConfig)
    (blockSize numCpuBlocks numGpuBlocks : Nat) (slidingWindow : Option Nat)
    (sequences : SequenceHeap) (now : Nat) : Scheduler where
  schedulerConfig
  memory := {
    sequences
    blockManager := BlockSpaceManager.new blockSize numCpuBlocks numGpuBlocks slidingWindow
  }
  waiting := []
  running := []
  swapped := []
  previousTime := now
  previousPrompt := false
  lastPromptLatency := 0
  numCumulativePreemption := 0

section Primitives

variable (scheduler : Scheduler) (group : SequenceGroup)

/--
Run an operation of the block manager.
-/
def onMemory {α : Type} (x : Memory.MemoryM α) : Except SchedulerError (α × Scheduler) :=
  match x.run scheduler.memory with
  | .ok a memory => .ok (a, { scheduler with memory })
  | .error e _ => .error (.blockSpaceManagerError e)

/--
Set the statuses of the sequences of a group that have the status `before`.
-/
def setStatuses (before after : SequenceStatus) : Scheduler :=
  {
    scheduler with
    memory.sequences := group.setStatusWhere scheduler.memory.sequences
      (fun seq => (scheduler.memory.sequences seq).sequenceStatus = before) after
  }

def addSequenceGroup : Scheduler :=
  { scheduler with waiting := scheduler.waiting ++ [group] }

def getNumTokens (status : SequenceStatus) (enableChunking : Bool) (budget : SchedulingBudget)
    : Except SchedulerError Nat := do
  let sequences := group.getSeqs scheduler.memory.sequences status
  let numNewTokens ← sequences.foldlM
    (fun numNewTokens seq =>
      match (scheduler.memory.sequences seq).getNumNewTokens with
      | some n => .ok (numNewTokens + n)
      | none => .error (.panic "attempt to subtract with overflow"))
    0
  if numNewTokens = 0 then
    throw .zeroNewTokensToSchedule
  if enableChunking && sequences.length = 1 then
    return min numNewTokens (← budget.remainingBudgetTokens)
  else
    return numNewTokens

def canAppendSlots : Bool :=
  scheduler.memory.blockManager.canAppendSlots group scheduler.memory.sequences

def appendSlots (blocksToCopy : BlockMapping) : Except SchedulerError (BlockMapping × Scheduler) :=
  let sequences := scheduler.memory.sequences
  (group.getSeqs sequences .running).foldlM
    (fun (blocksToCopy, scheduler) seq => do
      let (cow, scheduler) ← scheduler.onMemory <| Memory.onBlockManager <|
        BlockSpaceManager.appendSlots seq.sequenceId (sequences seq)
      match cow with
      | some (source, target) => return (blocksToCopy.insert source target, scheduler)
      | none => return (blocksToCopy, scheduler))
    (blocksToCopy, scheduler)

def freeSequence (sequenceId : Nat) : Except SchedulerError Scheduler := do
  let (_, scheduler) ← scheduler.onMemory <| Memory.onBlockManager <|
    BlockSpaceManager.free sequenceId
  return scheduler

def preemptByRecompute : Except SchedulerError Scheduler :=
  let sequences := group.getSeqs scheduler.memory.sequences .running
  if sequences.length ≠ 1 then
    .error (.invalidNumberSequencesForRecompute sequences.length)
  else
    sequences.foldlM
      (fun scheduler seq => do
        let scheduler ← freeSequence scheduler seq.sequenceId
        let sequence := (scheduler.memory.sequences seq).setSequenceStatus .waiting
        return {
          scheduler with
          memory.sequences :=
            Function.update scheduler.memory.sequences seq sequence.resetStateForRecompute
        })
      scheduler

def swapOut (blocksToSwapOut : BlockMapping) : Except SchedulerError (BlockMapping × Scheduler) := do
  if !scheduler.memory.blockManager.canSwapOut group scheduler.memory.sequences then
    throw .notEnoughBlockSpaceForSwapOut
  let (mapping, scheduler) ← scheduler.onMemory (Memory.swapOut group)
  return (mapping ∪ blocksToSwapOut, scheduler.setStatuses group .running .swapped)

def swapIn (blocksToSwapIn : BlockMapping) : Except SchedulerError (BlockMapping × Scheduler) := do
  let (mapping, scheduler) ← scheduler.onMemory (Memory.swapIn group)
  return (mapping ∪ blocksToSwapIn, scheduler.setStatuses group .swapped .running)

def preemptBySwap (blocksToSwapOut : BlockMapping)
    : Except SchedulerError (BlockMapping × Scheduler) :=
  scheduler.swapOut group blocksToSwapOut

def preempt (blocksToSwapOut : BlockMapping) (preemptionMode : Option PreemptionMode)
    : Except SchedulerError (PreemptionMode × BlockMapping × Scheduler) := do
  let preemptionMode : PreemptionMode :=
    match preemptionMode with
    | none =>
      if group.getMaxNumRunningSeqs scheduler.memory.sequences = 1 then .recomputation else .swap
    | some preemptionMode => preemptionMode
  let scheduler :=
    { scheduler with numCumulativePreemption := scheduler.numCumulativePreemption + 1 }
  match preemptionMode with
  | .recomputation =>
    let scheduler ← scheduler.preemptByRecompute group
    return (.recomputation, blocksToSwapOut, scheduler)
  | .swap =>
    let (blocksToSwapOut, scheduler) ← scheduler.preemptBySwap group blocksToSwapOut
    return (.swap, blocksToSwapOut, scheduler)

def allocateAndSetRunning : Except SchedulerError Scheduler := do
  let (_, scheduler) ← scheduler.onMemory <| Memory.onBlockManager <|
    BlockSpaceManager.allocate group scheduler.memory.sequences
  return scheduler.setStatuses group .waiting .running

def getPromptLimit : Nat :=
  if scheduler.schedulerConfig.enableChunkedPrefill then
    scheduler.schedulerConfig.maxModelLen
  else
    min scheduler.schedulerConfig.maxModelLen scheduler.schedulerConfig.maxNumBatchedTokens

/--
The earliest arrival of the non-empty queue `group :: groups`.
-/
def earliestArrivalTime (groups : List SequenceGroup) : Nat :=
  groups.foldl (fun time group => min time group.arrivalTime) group.arrivalTime

def passedDelay (now : Nat) : Bool × Scheduler :=
  let lastPromptLatency :=
    if scheduler.previousPrompt then ((now - scheduler.previousTime : Nat) : ℚ)
    else scheduler.lastPromptLatency
  let scheduler :=
    { scheduler with lastPromptLatency, previousTime := now, previousPrompt := false }
  let delayFactor := scheduler.schedulerConfig.delayFactor
  match scheduler.waiting with
  | [] => (true, scheduler)
  | group :: groups =>
    if 0 < delayFactor then
      (
        delayFactor * lastPromptLatency < ((now - earliestArrivalTime group groups : Nat) : ℚ)
          || scheduler.running.isEmpty,
        scheduler
      )
    else
      (true, scheduler)

def removeFinishedSequences : Scheduler :=
  {
    scheduler with
    running := scheduler.running.filter fun group => !group.isFinished scheduler.memory.sequences
  }

end Primitives

section ScheduleRunning

/--
The local variables of `schedule_running`. In the inner loop of the source, `current` is the group
taken from the queue and its `num_running_tokens`.
-/
structure RunningVars where
  scheduler : Scheduler
  budget : SchedulingBudget
  runningQueue : List SequenceGroup
  current : Option (SequenceGroup × Nat)
  outputs : SchedulerRunningOutputs

namespace RunningVars

variable (vars : RunningVars)

/--
Preempt `group` and put it on the list for the mode of its preemption.
-/
def preempt (group : SequenceGroup) : Except SchedulerError RunningVars := do
  let (preemptedMode, blocksToSwapOut, scheduler) ←
    vars.scheduler.preempt group vars.outputs.blocksToSwapOut none
  match preemptedMode with
  | .recomputation =>
    return {
      vars with
      scheduler
      outputs := {
        vars.outputs with blocksToSwapOut, preempted := vars.outputs.preempted ++ [group] }
    }
  | .swap =>
    return {
      vars with
      scheduler
      outputs := {
        vars.outputs with blocksToSwapOut, swappedOut := vars.outputs.swappedOut ++ [group] }
    }

/--
Append the slots of `group` and schedule it.
-/
def schedule (enableChunking : Bool) (group : SequenceGroup) (numRunningTokens : Nat)
    : Except SchedulerError RunningVars := do
  let (blocksToCopy, scheduler) ← vars.scheduler.appendSlots group vars.outputs.blocksToCopy
  let budget := vars.budget.addNumBatchedTokens group.requestId numRunningTokens
  let isPrefill := group.isPrefill scheduler.memory.sequences
  return {
    vars with
    scheduler
    budget :=
      if enableChunking then
        budget.addNumberSequences group.requestId
          (group.getMaxNumRunningSeqs scheduler.memory.sequences)
      else
        budget
    outputs := { vars.outputs.addScheduled isPrefill group numRunningTokens with blocksToCopy }
  }

/--
One iteration of the outer loop up to the inner loop, or one iteration of the inner loop.
-/
def step (enableChunking : Bool) : Except SchedulerError (RunningVars ⊕ RunningVars) :=
  match vars.current with
  | none =>
    match vars.runningQueue with
    | [] => .ok (.inr vars)
    | group :: runningQueue =>
      match vars.scheduler.getNumTokens group .running enableChunking vars.budget with
      | .error e => .error e
      | .ok numRunningTokens =>
        if numRunningTokens = 0 then
          .ok (.inr vars)
        else
          .ok (.inl { vars with runningQueue, current := some (group, numRunningTokens) })
  | some (group, numRunningTokens) =>
    if !vars.scheduler.canAppendSlots group then do
      let budget ← vars.budget.subtractNumBatchedTokens group.requestId numRunningTokens
      let budget ← budget.subtractsNumberSequences group.requestId
        (group.getMaxNumRunningSeqs vars.scheduler.memory.sequences)
      match vars.runningQueue.getLast? with
      | some victim =>
        let vars' ← preempt { vars with budget } victim
        return .inl { vars' with runningQueue := vars.runningQueue.dropLast, current := vars.current }
      | none =>
        let vars' ← preempt { vars with budget } group
        return .inl { vars' with runningQueue := vars.runningQueue, current := none }
    else do
      let vars' ← vars.schedule enableChunking group numRunningTokens
      return .inl { vars' with runningQueue := vars.runningQueue, current := none }

def measure : Nat :=
  2 * vars.runningQueue.length + if vars.current.isSome then 1 else 0

theorem step_decreasing {enableChunking : Bool} {vars vars' : RunningVars}
    (h : vars.step enableChunking = .ok (.inl vars')) : vars'.measure < vars.measure := by
  unfold step at h
  split at h
  . next hcurrent =>
    split at h
    . cases h
    . next group runningQueue hqueue =>
      split at h
      . cases h
      . split at h
        . cases h
        . cases h
          simp [measure, hcurrent, hqueue]
          omega
  . next group numRunningTokens hcurrent =>
    split at h
    . simp only [Except.bind_eq_ok] at h
      rcases h with ⟨budget, -, budget', -, h⟩
      split at h
      . next victim hvictim =>
        rcases Except.bind_eq_ok.mp h with ⟨vars'', -, h⟩
        cases h
        have : vars.runningQueue ≠ [] := by
          intro hnil
          simp [hnil] at hvictim
        have := List.length_pos_of_ne_nil this
        simp only [measure, List.length_dropLast]
        omega
      . rcases Except.bind_eq_ok.mp h with ⟨vars'', -, h⟩
        cases h
        simp [measure, hcurrent]
    . rcases Except.bind_eq_ok.mp h with ⟨vars'', -, h⟩
      cases h
      simp [measure, hcurrent]

end RunningVars

def runningLoop (enableChunking : Bool) : Loop SchedulerError RunningVars RunningVars where
  step vars := vars.step enableChunking
  measure := RunningVars.measure
  decreasing := RunningVars.step_decreasing

def RunningVars.start (scheduler : Scheduler) (runningQueue : List SequenceGroup)
    (budget : SchedulingBudget) (now : Nat) : RunningVars where
  scheduler
  budget
  runningQueue := FcfsPolicy.sortByPriority now runningQueue
  current := none
  outputs := SchedulerRunningOutputs.createEmpty

/--
The results are the remaining queue, the outputs, and the budget and the scheduler after the call.
-/
def scheduleRunning (scheduler : Scheduler) (runningQueue : List SequenceGroup)
    (budget : SchedulingBudget) (enableChunking : Bool) (now : Nat)
    : Except SchedulerError RunningVars :=
  (runningLoop enableChunking).run (RunningVars.start scheduler runningQueue budget now)

end ScheduleRunning

section ScheduleSwapped

structure SwappedVars where
  scheduler : Scheduler
  budget : SchedulingBudget
  swappedQueue : List SequenceGroup
  outputs : SchedulerSwappedInOutputs

namespace SwappedVars

variable (vars : SwappedVars)

/--
Swap `group` in, append its slots and schedule it.
-/
def schedule (group : SequenceGroup) (numNewTokens numNewSequences : Nat)
    : Except SchedulerError SwappedVars := do
  let (blocksToSwapIn, scheduler) ← vars.scheduler.swapIn group vars.outputs.blocksToSwapIn
  let (blocksToCopy, scheduler) ← scheduler.appendSlots group vars.outputs.blocksToCopy
  let budget := vars.budget.addNumBatchedTokens group.requestId numNewTokens
  let budget := budget.addNumberSequences group.requestId numNewSequences
  let isPrefill := group.isPrefill scheduler.memory.sequences
  return {
    vars with
    scheduler
    budget
    outputs := {
      vars.outputs.addScheduled isPrefill group numNewTokens with blocksToSwapIn, blocksToCopy }
  }

/--
`group` can never be swapped in.
-/
def ignore (group : SequenceGroup) : SwappedVars :=
  {
    vars with
    scheduler.memory.sequences :=
      group.setStatusWhere vars.scheduler.memory.sequences (fun _ => true) .finishedIgnored
    outputs.infeasibleSeqGroups := vars.outputs.infeasibleSeqGroups ++ [group]
  }

def canSchedule (numNewTokens numNewSequences : Nat) : Except SchedulerError Bool :=
  if numNewTokens = 0 then .ok false else vars.budget.canSchedule numNewTokens numNewSequences

/--
Schedule `group`, the first one of the queue, unless the budget does not allow it.
-/
def admitNext (enableChunking : Bool) (group : SequenceGroup) (swappedQueue : List SequenceGroup)
    : Except SchedulerError (SwappedVars ⊕ SwappedVars) := do
  let numNewSequences := group.getMaxNumRunningSeqs vars.scheduler.memory.sequences
  let numNewTokens ← vars.scheduler.getNumTokens group .swapped enableChunking vars.budget
  let canSchedule ← vars.canSchedule numNewTokens numNewSequences
  if canSchedule then
    let vars ← vars.schedule group numNewTokens numNewSequences
    return .inl { vars with swappedQueue }
  else
    return .inr vars

def step (enableChunking : Bool) : Except SchedulerError (SwappedVars ⊕ SwappedVars) :=
  match vars.swappedQueue with
  | [] => .ok (.inr vars)
  | group :: swappedQueue =>
    match vars.scheduler.memory.blockManager.canSwapIn group vars.scheduler.memory.sequences with
    | .later => .ok (.inr vars)
    | .never => .ok (.inl { vars.ignore group with swappedQueue })
    | .ok | .nothing => vars.admitNext enableChunking group swappedQueue

theorem admitNext_eq_inl {enableChunking : Bool} {group : SequenceGroup}
    {swappedQueue : List SequenceGroup} {vars vars' : SwappedVars}
    (h : vars.admitNext enableChunking group swappedQueue = .ok (.inl vars'))
    : ∃ numNewTokens vars'',
        vars.scheduler.getNumTokens group .swapped enableChunking vars.budget = .ok numNewTokens
          ∧ vars.canSchedule numNewTokens
              (group.getMaxNumRunningSeqs vars.scheduler.memory.sequences) = .ok true
          ∧ vars.schedule group numNewTokens
              (group.getMaxNumRunningSeqs vars.scheduler.memory.sequences) = .ok vars''
          ∧ vars' = { vars'' with swappedQueue } := by
  simp only [admitNext, Except.bind_eq_ok] at h
  rcases h with ⟨numNewTokens, htokens, canSchedule, hcan, h⟩
  cases canSchedule with
  | false => cases h
  | true =>
    rcases Except.bind_eq_ok.mp h with ⟨vars'', hschedule, h⟩
    cases h
    exact ⟨numNewTokens, vars'', htokens, hcan, hschedule, rfl⟩

theorem step_decreasing {enableChunking : Bool} {vars vars' : SwappedVars}
    (h : vars.step enableChunking = .ok (.inl vars'))
    : vars'.swappedQueue.length < vars.swappedQueue.length := by
  unfold step at h
  split at h
  . cases h
  . next group swappedQueue hqueue =>
    split at h
    . cases h
    . cases h
      simp [hqueue]
    all_goals
      rcases admitNext_eq_inl h with ⟨numNewTokens, vars'', -, -, -, rfl⟩
      simp [hqueue]

end SwappedVars

def swappedLoop (enableChunking : Bool) : Loop SchedulerError SwappedVars SwappedVars where
  step vars := vars.step enableChunking
  measure vars := vars.swappedQueue.length
  decreasing := SwappedVars.step_decreasing

def SwappedVars.start (scheduler : Scheduler) (swappedQueue : List SequenceGroup)
    (budget : SchedulingBudget) (now : Nat) : SwappedVars where
  scheduler
  budget
  swappedQueue := FcfsPolicy.sortByPriority now swappedQueue
  outputs := SchedulerSwappedInOutputs.createEmpty

def scheduleSwapped (scheduler : Scheduler) (swappedQueue : List SequenceGroup)
    (budget : SchedulingBudget) (enableChunking : Bool) (now : Nat)
    : Except SchedulerError SwappedVars :=
  (swappedLoop enableChunking).run (SwappedVars.start scheduler swappedQueue budget now)

end ScheduleSwapped

section SchedulePrefills

/--
`iteration` counts the iterations, to tell the instants at which they start.
-/
structure PrefillVars where
  scheduler : Scheduler
  budget : SchedulingBudget
  waitingQueue : List SequenceGroup
  iteration : Nat
  outputs : SchedulerPrefillOutputs

namespace PrefillVars

variable (vars : PrefillVars) (enableChunking : Bool) (group : SequenceGroup)

/--
Ignore `group`: its sequences for which `p` holds finish.
-/
def ignore (p : SequenceRef → Bool) : PrefillVars :=
  {
    vars with
    scheduler.memory.sequences :=
      group.setStatusWhere vars.scheduler.memory.sequences p .finishedIgnored
    outputs.ignoredSequenceGroups := vars.outputs.ignoredSequenceGroups ++ [group]
  }

def checkSequences (numNewTokens : Nat) : Except SchedulerError Unit :=
  match group.getSeqs vars.scheduler.memory.sequences .waiting with
  | [waitingSequence] =>
    let numPromptTokens := (vars.scheduler.memory.sequences waitingSequence).length
    if !enableChunking ∧ numPromptTokens ≠ numNewTokens then
      .error (.invalidNumberOfNewTokens numPromptTokens numNewTokens)
    else
      .ok ()
  | waitingSequences =>
    .error (.invalidNumberWaitingSequence group.requestId waitingSequences.length)

def canSchedule (numNewTokens numNewSequences : Nat) : Except SchedulerError Bool :=
  if numNewSequences = 0 then .ok false else vars.budget.canSchedule numNewTokens numNewSequences

def schedule (numNewTokens numNewSequences : Nat) : Except SchedulerError PrefillVars := do
  let scheduler ← vars.scheduler.allocateAndSetRunning group
  let budget := vars.budget.addNumBatchedTokens group.requestId numNewTokens
  let budget := budget.addNumberSequences group.requestId numNewSequences
  return {
    vars with
    scheduler
    budget
    outputs.sequenceGroups := vars.outputs.sequenceGroups
      ++ [{ scheduledGroup := group, tokenChunkSize := numNewTokens }]
  }

/--
Schedule `group`, the first one of the queue, unless the budget does not allow it.
-/
def admitNext (waitingQueue : List SequenceGroup) (numNewTokens : Nat)
    : Except SchedulerError (PrefillVars ⊕ PrefillVars) := do
  let numNewSequences := group.getMaxNumRunningSeqs vars.scheduler.memory.sequences
  let canSchedule ← vars.canSchedule numNewTokens numNewSequences
  if canSchedule then
    let vars ← vars.schedule group numNewTokens numNewSequences
    return .inl { vars with waitingQueue }
  else
    return .inr vars

/--
The body of the loop for `group`, the first one of the queue.
-/
def consider (waitingQueue : List SequenceGroup)
    : Except SchedulerError (PrefillVars ⊕ PrefillVars) := do
  let numNewTokens ← vars.scheduler.getNumTokens group .waiting enableChunking vars.budget
  vars.checkSequences enableChunking group numNewTokens
  if vars.scheduler.getPromptLimit < numNewTokens then
    return .inl { vars.ignore group (fun _ => true) with waitingQueue }
  else
    match vars.scheduler.memory.blockManager.canAllocate group vars.scheduler.memory.sequences with
    | .later => return .inr vars
    | .never =>
      let isWaiting := fun seq =>
        decide ((vars.scheduler.memory.sequences seq).sequenceStatus = .waiting)
      return .inl { vars.ignore group isWaiting with waitingQueue }
    | .ok | .nothing => vars.admitNext group waitingQueue numNewTokens

def step (now : Nat → Nat) : Except SchedulerError (PrefillVars ⊕ PrefillVars) :=
  match vars.waitingQueue with
  | [] => .ok (.inr vars)
  | group :: waitingQueue =>
    let (passedDelay, scheduler) := vars.scheduler.passedDelay (now vars.iteration)
    if passedDelay then
      consider { vars with scheduler, iteration := vars.iteration + 1 } enableChunking group
        waitingQueue
    else
      .ok (.inr { vars with scheduler })

variable {vars enableChunking group}

theorem admitNext_eq_inl {waitingQueue : List SequenceGroup} {numNewTokens : Nat} {vars' : PrefillVars}
    (h : vars.admitNext group waitingQueue numNewTokens = .ok (.inl vars'))
    : ∃ vars'',
        vars.canSchedule numNewTokens (group.getMaxNumRunningSeqs vars.scheduler.memory.sequences)
            = .ok true
          ∧ vars.schedule group numNewTokens
              (group.getMaxNumRunningSeqs vars.scheduler.memory.sequences) = .ok vars''
          ∧ vars' = { vars'' with waitingQueue } := by
  simp only [admitNext, Except.bind_eq_ok] at h
  rcases h with ⟨canSchedule, hcan, h⟩
  cases canSchedule with
  | false => cases h
  | true =>
    rcases Except.bind_eq_ok.mp h with ⟨vars'', hschedule, h⟩
    cases h
    exact ⟨vars'', hcan, hschedule, rfl⟩

theorem waitingQueue_of_consider {waitingQueue : List SequenceGroup} {vars' : PrefillVars}
    (h : vars.consider enableChunking group waitingQueue = .ok (.inl vars'))
    : vars'.waitingQueue = waitingQueue := by
  simp only [consider, Except.bind_eq_ok] at h
  rcases h with ⟨numNewTokens, -, _, -, h⟩
  split at h
  . cases h
    rfl
  . split at h
    . cases h
    . cases h
      rfl
    all_goals
      rcases admitNext_eq_inl h with ⟨vars'', -, -, rfl⟩
      rfl

theorem step_decreasing {now : Nat → Nat} {vars' : PrefillVars}
    (h : vars.step enableChunking now = .ok (.inl vars'))
    : vars'.waitingQueue.length < vars.waitingQueue.length := by
  unfold step at h
  split at h
  . cases h
  . next group waitingQueue hqueue =>
    dsimp only at h
    split at h
    . rw [waitingQueue_of_consider h, hqueue]
      simp
    . cases h

end PrefillVars

def prefillLoop (enableChunking : Bool) (now : Nat → Nat)
    : Loop SchedulerError PrefillVars PrefillVars where
  step vars := vars.step enableChunking now
  measure vars := vars.waitingQueue.length
  decreasing := PrefillVars.step_decreasing

def PrefillVars.start (scheduler : Scheduler) (waitingQueue : List SequenceGroup)
    (budget : SchedulingBudget) : PrefillVars where
  scheduler
  budget
  waitingQueue
  iteration := 0
  outputs := SchedulerPrefillOutputs.createEmpty

def schedulePrefills (scheduler : Scheduler) (waitingQueue : List SequenceGroup)
    (budget : SchedulingBudget) (enableChunking : Bool) (now : Nat → Nat)
    : Except SchedulerError PrefillVars := do
  let vars ← (prefillLoop enableChunking now).run (PrefillVars.start scheduler waitingQueue budget)
  if vars.outputs.sequenceGroups.isEmpty then
    return vars
  else
    return { vars with scheduler.previousPrompt := true }

end SchedulePrefills

section Schedule

variable (scheduler : Scheduler)

/--
Both policies check the budget before they write the queues.
-/
def checkBudget (budget : SchedulingBudget) : Except SchedulerError Unit :=
  if scheduler.schedulerConfig.maxNumBatchedTokens < budget.numBatchedTokens then
    .error <| .invalidNumberBudgetTokens
      "Number of budget batched tokens exceeds the configured number of max batched tokens"
  else if scheduler.schedulerConfig.maxNumSequences < budget.numCurrSeqs then
    .error <| .invalidNumberBudgetSequences
      "Number of budget sequences exceed the configured number of max number of sequences"
  else
    .ok ()

/--
Make sure that the running groups are a part of the budget.
-/
def includeRunning (budget : SchedulingBudget) : SchedulingBudget :=
  scheduler.running.foldl
    (fun budget group => budget.addNumberSequences group.requestId
      (group.getMaxNumRunningSeqs scheduler.memory.sequences))
    budget

/--
The local variables of a policy after its calls of `schedule_prefills`, `schedule_running` and
`schedule_swapped`.
-/
structure PolicyVars where
  scheduler : Scheduler
  budget : SchedulingBudget
  remainingWaiting : List SequenceGroup
  remainingRunning : List SequenceGroup
  remainingSwapped : List SequenceGroup
  prefills : SchedulerPrefillOutputs
  runningScheduled : SchedulerRunningOutputs
  swappedIn : SchedulerSwappedInOutputs

/--
The calls of `schedule_running`, and of `schedule_swapped` when nothing is preempted.
-/
def PolicyVars.scheduleRunningAndSwapped (vars : PolicyVars) (enableChunking : Bool)
    (instants : Instants) : Except SchedulerError PolicyVars := do
  let running ← scheduleRunning vars.scheduler vars.remainingRunning vars.budget enableChunking
    instants.running
  let vars := {
    vars with
    scheduler := running.scheduler
    budget := running.budget
    remainingRunning := running.runningQueue
    runningScheduled := running.outputs
  }
  if running.outputs.preempted.length + running.outputs.swappedOut.length = 0 then
    let swapped ← scheduleSwapped vars.scheduler vars.remainingSwapped vars.budget enableChunking
      instants.swapped
    return {
      vars with
      scheduler := swapped.scheduler
      budget := swapped.budget
      remainingSwapped := swapped.swappedQueue
      swappedIn := swapped.outputs
    }
  else
    return vars

def PolicyVars.schedulePrefills (vars : PolicyVars) (enableChunking : Bool) (instants : Instants)
    : Except SchedulerError PolicyVars := do
  let prefills ← Scheduler.schedulePrefills vars.scheduler vars.remainingWaiting vars.budget
    enableChunking instants.prefills
  return {
    vars with
    scheduler := prefills.scheduler
    budget := prefills.budget
    remainingWaiting := prefills.waitingQueue
    prefills := prefills.outputs
  }

/--
The local variables at the start of a policy.
-/
def PolicyVars.start (budget : SchedulingBudget) : PolicyVars where
  scheduler
  budget
  remainingWaiting := scheduler.waiting
  remainingRunning := scheduler.running
  remainingSwapped := scheduler.swapped
  prefills := SchedulerPrefillOutputs.createEmpty
  runningScheduled := SchedulerRunningOutputs.createEmpty
  swappedIn := SchedulerSwappedInOutputs.createEmpty

def newBudget : SchedulingBudget :=
  SchedulingBudget.new scheduler.schedulerConfig.maxNumBatchedTokens
    scheduler.schedulerConfig.maxNumSequences

def defaultPasses (instants : Instants) : Except SchedulerError PolicyVars := do
  let vars := PolicyVars.start scheduler (scheduler.includeRunning scheduler.newBudget)
  let vars ←
    if scheduler.swapped.isEmpty then vars.schedulePrefills false instants else pure vars
  if vars.prefills.sequenceGroups.isEmpty then
    vars.scheduleRunningAndSwapped false instants
  else
    return vars

def chunkedPasses (instants : Instants) : Except SchedulerError PolicyVars := do
  let vars := PolicyVars.start scheduler scheduler.newBudget
  let vars ← vars.scheduleRunningAndSwapped true instants
  vars.schedulePrefills true instants

def groupsOf (scheduled : List ScheduledSequenceGroup) : List SequenceGroup :=
  scheduled.map (·.scheduledGroup)

/--
The scheduler with the queues after a pass.
-/
def PolicyVars.writeQueues (vars : PolicyVars) (running : List SequenceGroup) : Scheduler :=
  {
    vars.scheduler with
    waiting := vars.runningScheduled.preempted ++ vars.remainingWaiting
    running
    swapped := vars.remainingSwapped ++ vars.runningScheduled.swappedOut
  }

def PolicyVars.outputs (vars : PolicyVars) (scheduledSequenceGroups : List ScheduledSequenceGroup)
    (numberPrefillGroups : Nat) (ignoredSeqGroups running : List SequenceGroup)
    : SchedulerOutputs where
  scheduledSequenceGroups
  numberPrefillGroups
  numBatchedTokens := vars.budget.numBatchedTokens
  blocksToSwapIn := vars.swappedIn.blocksToSwapIn
  blocksToSwapOut := vars.runningScheduled.blocksToSwapOut
  blocksToCopy := vars.swappedIn.blocksToCopy ∪ vars.runningScheduled.blocksToCopy
  ignoredSeqGroups
  runningQueueSize := running.length
  preempted := vars.runningScheduled.preempted.length + vars.runningScheduled.swappedOut.length

def scheduleDefault (instants : Instants) : Except SchedulerError (SchedulerOutputs × Scheduler) := do
  let vars ← scheduler.defaultPasses instants
  scheduler.checkBudget vars.budget
  let running := vars.remainingRunning
    ++ groupsOf vars.prefills.sequenceGroups
    ++ groupsOf vars.runningScheduled.decodeSeqGroups
    ++ groupsOf vars.swappedIn.decodeSeqGroups
  let scheduler := vars.writeQueues running
  if !vars.runningScheduled.prefillSeqGroups.isEmpty then
    let length := vars.runningScheduled.prefillSeqGroups.length
    throw <| .chunkedPrefillsNotAllowed
      s!"Chunked prefills are not allowed for running schedules, there should be none but we received {length}"
  if !vars.swappedIn.prefillSeqGroups.isEmpty then
    let length := vars.swappedIn.prefillSeqGroups.length
    throw <| .chunkedPrefillsNotAllowed
      s!"Chunked prefills are not allowed for swapped in schedules, there should be none but we received {length}"
  let outputs := vars.outputs
    (vars.prefills.sequenceGroups
      ++ vars.runningScheduled.decodeSeqGroups
      ++ vars.swappedIn.decodeSeqGroups)
    vars.prefills.sequenceGroups.length
    (vars.prefills.ignoredSequenceGroups ++ vars.swappedIn.infeasibleSeqGroups)
    running
  return (outputs, scheduler)

def scheduleChunkedPrefill (instants : Instants)
    : Except SchedulerError (SchedulerOutputs × Scheduler) := do
  let vars ← scheduler.chunkedPasses instants
  scheduler.checkBudget vars.budget
  let running := vars.remainingRunning
    ++ groupsOf vars.prefills.sequenceGroups
    ++ groupsOf vars.runningScheduled.decodeSeqGroups
    ++ groupsOf vars.swappedIn.decodeSeqGroups
    ++ groupsOf vars.swappedIn.prefillSeqGroups
  let outputs := vars.outputs
    (vars.prefills.sequenceGroups
      ++ vars.runningScheduled.prefillSeqGroups
      ++ vars.swappedIn.prefillSeqGroups
      ++ vars.runningScheduled.decodeSeqGroups
      ++ vars.swappedIn.decodeSeqGroups)
    (vars.prefills.sequenceGroups.length
      + vars.swappedIn.prefillSeqGroups.length
      + vars.runningScheduled.prefillSeqGroups.length)
    vars.prefills.ignoredSequenceGroups
    running
  return (outputs, vars.writeQueues running)

/--
`schedule_` of the source.
-/
def schedulePolicy (instants : Instants) : Except SchedulerError (SchedulerOutputs × Scheduler) :=
  if scheduler.schedulerConfig.enableChunkedPrefill then
    scheduler.scheduleChunkedPrefill instants
  else
    scheduler.scheduleDefault instants

/--
Whether the batch leaves no token of the group uncomputed.
-/
def doSample (group : SequenceGroup) (tokenChunkSize : Nat) : Except SchedulerError Bool :=
  if group.isPrefill scheduler.memory.sequences then
    match group.sequences with
    | [seq] =>
      let data := (scheduler.memory.sequences seq).sequenceData
      .ok (!(tokenChunkSize + data.numComputedTokens < data.length))
    | _ => .error (.invalidPrefillSequences "Prefill mode has only one sequence")
  else
    .ok true

/--
The data and the block tables of the running sequences of a group. Their blocks are accessed.
-/
def collectSequences (now : Nat) (group : SequenceGroup)
    : AList (fun _ : Nat => SequenceData) × AList (fun _ : Nat => List Nat) × Scheduler :=
  (group.getSeqs scheduler.memory.sequences .running).foldl
    (fun (sequenceData, blockTables, scheduler) seq =>
      let sequenceData :=
        sequenceData.insert seq.sequenceId (scheduler.memory.sequences seq).sequenceData
      match scheduler.memory.blockManager.getBlockTableIds seq.sequenceId with
      | none => (sequenceData, blockTables, scheduler)
      | some blockTableIds =>
        (
          sequenceData,
          blockTables.insert seq.sequenceId blockTableIds,
          {
            scheduler with
            memory.blockManager :=
              scheduler.memory.blockManager.accessAllBlocksInSequence seq.sequenceId now
          }
        ))
    (∅, ∅, scheduler)

def groupMetadata (now : Nat) (scheduled : ScheduledSequenceGroup)
    : Except SchedulerError (SequenceGroupMetadata × Scheduler) := do
  let group := scheduled.scheduledGroup
  let (sequenceData, blockTables, scheduler) := scheduler.collectSequences now group
  let doSample ← scheduler.doSample group scheduled.tokenChunkSize
  return (
    {
      requestId := group.requestId
      isPrompt := group.isPrefill scheduler.memory.sequences
      nextTokenChooserParams := group.nextTokenChooserParams
      stoppingCriteriaParams := group.stoppingCriteria
      blockTables
      doSample
      tokenChunkSize := scheduled.tokenChunkSize
      sequenceData
      logitsProcessor := group.logitsProcessor
    },
    scheduler
  )

def groupsMetadata (now : Nat) (scheduled : List ScheduledSequenceGroup)
    : Except SchedulerError (List SequenceGroupMetadata × Scheduler) :=
  scheduled.foldlM
    (fun (metadata, scheduler) scheduled => do
      let (groupMetadata, scheduler) ← groupMetadata scheduler now scheduled
      return (metadata ++ [groupMetadata], scheduler))
    ([], scheduler)

def schedule (instants : Instants)
    : Except SchedulerError (List SequenceGroupMetadata × SchedulerOutputs × Scheduler) := do
  let (schedulerOutputs, scheduler) ← scheduler.schedulePolicy instants
  let (metadata, scheduler) ←
    scheduler.groupsMetadata instants.schedule schedulerOutputs.scheduledSequenceGroups
  return (metadata, schedulerOutputs, scheduler)

end Schedule

end Scheduler

end AtomaInfer
