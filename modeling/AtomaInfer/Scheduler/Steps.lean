import AtomaInfer.Scheduler.Impl
import AtomaInfer.Sequence.Lemmas

/-!
What one iteration of a scheduling loop can do. Every fact about a loop is proved by cases on these
relations; the bodies of the loops are not unfolded again.
-/

namespace AtomaInfer

namespace Scheduler

/--
The scheduler with one more preemption on record.
-/
def countPreemption (scheduler : Scheduler) : Scheduler :=
  { scheduler with numCumulativePreemption := scheduler.numCumulativePreemption + 1 }

section Primitives

variable {scheduler scheduler' : Scheduler} {group : SequenceGroup}

theorem onMemory_eq_ok {α : Type} {x : Memory.MemoryM α} {a : α}
    (h : scheduler.onMemory x = .ok (a, scheduler'))
    : ∃ memory, x.run scheduler.memory = .ok a memory ∧ scheduler' = { scheduler with memory } := by
  unfold onMemory at h
  split at h
  . next a' memory hrun =>
    cases h
    exact ⟨memory, hrun, rfl⟩
  . cases h

theorem onBlockManager_run_eq_ok {α : Type} {x : BlockSpaceM α} {a : α} {memory memory' : Memory}
    (h : (Memory.onBlockManager x).run memory = .ok a memory')
    : ∃ manager,
        x.run memory.blockManager = .ok a manager
          ∧ memory' = { memory with blockManager := manager } := by
  unfold Memory.onBlockManager at h
  simp only [EStateM.run] at h
  split at h
  . next hrun =>
    cases h
    exact ⟨_, hrun, rfl⟩
  . cases h

theorem onBlockManager_eq_ok {α : Type} {x : BlockSpaceM α} {a : α}
    (h : scheduler.onMemory (Memory.onBlockManager x) = .ok (a, scheduler'))
    : ∃ blockManager,
        x.run scheduler.memory.blockManager = .ok a blockManager
          ∧ scheduler' = { scheduler with memory.blockManager := blockManager } := by
  rcases onMemory_eq_ok h with ⟨memory, hrun, rfl⟩
  rcases onBlockManager_run_eq_ok hrun with ⟨blockManager, hrun', rfl⟩
  exact ⟨blockManager, hrun', rfl⟩

theorem appendSlots_eq_ok {blocksToCopy blocksToCopy' : BlockMapping}
    (h : scheduler.appendSlots group blocksToCopy = .ok (blocksToCopy', scheduler'))
    : ∃ blockManager, scheduler' = { scheduler with memory.blockManager := blockManager } := by
  refine Except.foldlM_invariant
    (I := fun acc : BlockMapping × Scheduler =>
      ∃ blockManager, acc.2 = { scheduler with memory.blockManager := blockManager })
    ?_ h ⟨scheduler.memory.blockManager, rfl⟩
  rintro ⟨copies, current⟩ ⟨copies', current'⟩ seq - ⟨blockManager, rfl⟩ hseq
  rcases Except.bind_eq_ok.mp hseq with ⟨⟨cow, next⟩, happend, hseq⟩
  rcases onBlockManager_eq_ok happend with ⟨blockManager', -, rfl⟩
  refine ⟨blockManager', ?_⟩
  dsimp only at hseq
  split at hseq <;> cases hseq <;> rfl

/--
The one running sequence of the group is freed and starts again.
-/
theorem preemptByRecompute_eq_ok (h : scheduler.preemptByRecompute group = .ok scheduler')
    : ∃ seq blockManager,
        group.getSeqs scheduler.memory.sequences .running = [seq]
          ∧ (BlockSpaceManager.free seq.sequenceId).run scheduler.memory.blockManager
              = .ok () blockManager
          ∧ scheduler' = {
              scheduler with
              memory := {
                sequences := Function.update scheduler.memory.sequences seq
                  ((scheduler.memory.sequences seq).setSequenceStatus .waiting).resetStateForRecompute
                blockManager } } := by
  unfold preemptByRecompute at h
  dsimp only at h
  split at h
  . cases h
  . next hone =>
    rcases List.length_eq_one_iff.mp (not_not.mp hone) with ⟨seq, hseqs⟩
    rw [hseqs, List.foldlM_cons] at h
    rcases Except.bind_eq_ok.mp h with ⟨last, hlast, hpure⟩
    cases hpure
    rcases Except.bind_eq_ok.mp hlast with ⟨freed, hfree, hpure⟩
    rcases Except.bind_eq_ok.mp hfree with ⟨⟨_, freed'⟩, honMemory, hpure'⟩
    rcases onBlockManager_eq_ok honMemory with ⟨blockManager, hrun, rfl⟩
    cases hpure'
    cases hpure
    exact ⟨seq, blockManager, hseqs, hrun, rfl⟩

theorem schedulerConfig_of_preemptByRecompute (h : scheduler.preemptByRecompute group = .ok scheduler')
    : scheduler'.schedulerConfig = scheduler.schedulerConfig := by
  rcases preemptByRecompute_eq_ok h with ⟨_, _, -, -, rfl⟩
  rfl

theorem schedulerConfig_of_swapOut {blocks blocks' : BlockMapping}
    (h : scheduler.swapOut group blocks = .ok (blocks', scheduler'))
    : scheduler'.schedulerConfig = scheduler.schedulerConfig := by
  simp only [swapOut] at h
  split at h
  . cases h
  . rcases Except.bind_eq_ok.mp h with ⟨⟨mapping, next⟩, honMemory, hpure⟩
    rcases onMemory_eq_ok honMemory with ⟨memory, -, rfl⟩
    cases hpure
    rfl

theorem schedulerConfig_of_swapIn {blocks blocks' : BlockMapping}
    (h : scheduler.swapIn group blocks = .ok (blocks', scheduler'))
    : scheduler'.schedulerConfig = scheduler.schedulerConfig := by
  rcases Except.bind_eq_ok.mp h with ⟨⟨mapping, next⟩, honMemory, hpure⟩
  rcases onMemory_eq_ok honMemory with ⟨memory, -, rfl⟩
  cases hpure
  rfl

theorem schedulerConfig_of_allocateAndSetRunning
    (h : scheduler.allocateAndSetRunning group = .ok scheduler')
    : scheduler'.schedulerConfig = scheduler.schedulerConfig := by
  rcases Except.bind_eq_ok.mp h with ⟨⟨_, next⟩, honMemory, hpure⟩
  rcases onMemory_eq_ok honMemory with ⟨memory, -, rfl⟩
  cases hpure
  rfl

theorem schedulerConfig_passedDelay (scheduler : Scheduler) (now : Nat)
    : (scheduler.passedDelay now).2.schedulerConfig = scheduler.schedulerConfig := by
  unfold passedDelay
  dsimp only
  split
  . rfl
  . split <;> rfl

end Primitives

namespace RunningVars

variable {enableChunking : Bool} {vars vars' : RunningVars} {group : SequenceGroup}

theorem preempt_eq_ok (h : vars.preempt group = .ok vars')
    : (group.getMaxNumRunningSeqs vars.scheduler.memory.sequences = 1
        ∧ ∃ scheduler,
            vars.scheduler.countPreemption.preemptByRecompute group = .ok scheduler
              ∧ vars' = {
                  vars with
                  scheduler
                  outputs.preempted := vars.outputs.preempted ++ [group] })
      ∨ (group.getMaxNumRunningSeqs vars.scheduler.memory.sequences ≠ 1
        ∧ ∃ blocksToSwapOut scheduler,
            vars.scheduler.countPreemption.swapOut group vars.outputs.blocksToSwapOut
                = .ok (blocksToSwapOut, scheduler)
              ∧ vars' = {
                  vars with
                  scheduler
                  outputs := {
                    vars.outputs with
                    blocksToSwapOut
                    swappedOut := vars.outputs.swappedOut ++ [group] } }) := by
  simp only [preempt, Scheduler.preempt, Except.bind_eq_ok] at h
  rcases h with ⟨⟨mode, blocksToSwapOut, scheduler⟩, hpreempt, h⟩
  split at hpreempt
  . next hmode =>
    split at hmode
    . next hone =>
      rcases Except.bind_eq_ok.mp hpreempt with ⟨scheduler', hrecompute, hpure⟩
      cases hpure
      cases h
      exact .inl ⟨hone, _, hrecompute, rfl⟩
    . cases hmode
  . next hmode =>
    split at hmode
    . cases hmode
    . next hone =>
      rcases Except.bind_eq_ok.mp hpreempt with ⟨⟨blocks, scheduler'⟩, hswap, hpure⟩
      cases hpure
      cases h
      exact .inr ⟨hone, _, _, hswap, rfl⟩

theorem schedule_eq_ok {numRunningTokens : Nat}
    (h : vars.schedule enableChunking group numRunningTokens = .ok vars')
    : ∃ blocksToCopy scheduler,
        vars.scheduler.appendSlots group vars.outputs.blocksToCopy = .ok (blocksToCopy, scheduler)
          ∧ vars' = {
              vars with
              scheduler
              budget :=
                let budget := vars.budget.addNumBatchedTokens group.requestId numRunningTokens
                if enableChunking then
                  budget.addNumberSequences group.requestId
                    (group.getMaxNumRunningSeqs scheduler.memory.sequences)
                else
                  budget
              outputs := {
                vars.outputs.addScheduled (group.isPrefill scheduler.memory.sequences) group
                  numRunningTokens with
                blocksToCopy } } := by
  simp only [schedule, Except.bind_eq_ok] at h
  rcases h with ⟨⟨blocksToCopy, scheduler⟩, happend, h⟩
  refine ⟨blocksToCopy, scheduler, happend, ?_⟩
  cases h
  rfl

inductive Next (enableChunking : Bool) (vars : RunningVars) : RunningVars → Prop where
  | take (group : SequenceGroup) (runningQueue : List SequenceGroup) (numRunningTokens : Nat)
      (hcurrent : vars.current = none) (hqueue : vars.runningQueue = group :: runningQueue)
      (htokens : vars.scheduler.getNumTokens group .running enableChunking vars.budget
        = .ok numRunningTokens)
      (hpos : numRunningTokens ≠ 0)
    : Next enableChunking vars { vars with runningQueue, current := some (group, numRunningTokens) }
  | preemptVictim (group victim : SequenceGroup) (runningQueue : List SequenceGroup)
      (numRunningTokens : Nat) (budget budget' : SchedulingBudget) (vars' : RunningVars)
      (hcurrent : vars.current = some (group, numRunningTokens))
      (hcan : vars.scheduler.canAppendSlots group = false)
      (hbudget : vars.budget.subtractNumBatchedTokens group.requestId numRunningTokens = .ok budget)
      (hbudget' : budget.subtractsNumberSequences group.requestId
        (group.getMaxNumRunningSeqs vars.scheduler.memory.sequences) = .ok budget')
      (hqueue : vars.runningQueue = runningQueue ++ [victim])
      (hpreempt : preempt { vars with budget := budget' } victim = .ok vars')
    : Next enableChunking vars { vars' with runningQueue, current := vars.current }
  | preemptSelf (group : SequenceGroup) (numRunningTokens : Nat)
      (budget budget' : SchedulingBudget) (vars' : RunningVars)
      (hcurrent : vars.current = some (group, numRunningTokens))
      (hcan : vars.scheduler.canAppendSlots group = false)
      (hbudget : vars.budget.subtractNumBatchedTokens group.requestId numRunningTokens = .ok budget)
      (hbudget' : budget.subtractsNumberSequences group.requestId
        (group.getMaxNumRunningSeqs vars.scheduler.memory.sequences) = .ok budget')
      (hqueue : vars.runningQueue = [])
      (hpreempt : preempt { vars with budget := budget' } group = .ok vars')
    : Next enableChunking vars { vars' with runningQueue := [], current := none }
  | schedule (group : SequenceGroup) (numRunningTokens : Nat) (vars' : RunningVars)
      (hcurrent : vars.current = some (group, numRunningTokens))
      (hcan : vars.scheduler.canAppendSlots group = true)
      (hschedule : vars.schedule enableChunking group numRunningTokens = .ok vars')
    : Next enableChunking vars { vars' with runningQueue := vars.runningQueue, current := none }

theorem next_of_step (h : vars.step enableChunking = .ok (.inl vars'))
    : Next enableChunking vars vars' := by
  unfold step at h
  split at h
  . next hcurrent =>
    split at h
    . cases h
    . next group runningQueue hqueue =>
      split at h
      . cases h
      . next numRunningTokens htokens =>
        split at h
        . cases h
        . next hpos =>
          cases h
          exact .take group runningQueue numRunningTokens hcurrent hqueue htokens hpos
  . next group numRunningTokens hcurrent =>
    split at h
    . next hcan =>
      have hcan : vars.scheduler.canAppendSlots group = false := by simpa using hcan
      simp only [Except.bind_eq_ok] at h
      rcases h with ⟨budget, hbudget, budget', hbudget', h⟩
      split at h
      . next victim hvictim =>
        rcases Except.bind_eq_ok.mp h with ⟨vars'', hpreempt, h⟩
        cases h
        have hqueue : vars.runningQueue = vars.runningQueue.dropLast ++ [victim] :=
          (List.dropLast_append_getLast? victim hvictim).symm
        exact .preemptVictim group victim _ numRunningTokens budget budget' vars'' hcurrent hcan
          hbudget hbudget' hqueue hpreempt
      . next hnone =>
        rcases Except.bind_eq_ok.mp h with ⟨vars'', hpreempt, h⟩
        cases h
        have hqueue : vars.runningQueue = [] := List.getLast?_eq_none_iff.mp hnone
        rw [hqueue]
        exact .preemptSelf group numRunningTokens budget budget' vars'' hcurrent hcan hbudget
          hbudget' hqueue hpreempt
    . next hcan =>
      rcases Except.bind_eq_ok.mp h with ⟨vars'', hschedule, h⟩
      cases h
      exact .schedule group numRunningTokens vars'' hcurrent (by simpa using hcan) hschedule

theorem of_step_eq_inr (h : vars.step enableChunking = .ok (.inr vars'))
    : vars' = vars
        ∧ vars.current = none
        ∧ (vars.runningQueue = []
            ∨ ∃ group runningQueue,
                vars.runningQueue = group :: runningQueue
                  ∧ vars.scheduler.getNumTokens group .running enableChunking vars.budget
                      = .ok 0) := by
  unfold step at h
  split at h
  . next hcurrent =>
    split at h
    . next hqueue =>
      cases h
      exact ⟨rfl, hcurrent, .inl hqueue⟩
    . next group runningQueue hqueue =>
      split at h
      . cases h
      . next numRunningTokens htokens =>
        split at h
        . next hzero =>
          cases h
          exact ⟨rfl, hcurrent, .inr ⟨group, runningQueue, hqueue, hzero ▸ htokens⟩⟩
        . cases h
  . split at h
    . simp only [Except.bind_eq_ok] at h
      rcases h with ⟨budget, -, budget', -, h⟩
      split at h
      . rcases Except.bind_eq_ok.mp h with ⟨vars'', -, h⟩
        cases h
      . rcases Except.bind_eq_ok.mp h with ⟨vars'', -, h⟩
        cases h
    . rcases Except.bind_eq_ok.mp h with ⟨vars'', -, h⟩
      cases h

theorem schedulerConfig_preempt (h : vars.preempt group = .ok vars')
    : vars'.scheduler.schedulerConfig = vars.scheduler.schedulerConfig := by
  rcases preempt_eq_ok h with ⟨-, scheduler, hrecompute, rfl⟩ | ⟨-, blocks, scheduler, hswap, rfl⟩
  . have hconfig := schedulerConfig_of_preemptByRecompute hrecompute
    exact hconfig
  . have hconfig := schedulerConfig_of_swapOut hswap
    exact hconfig

theorem Next.schedulerConfig_eq (h : Next enableChunking vars vars')
    : vars'.scheduler.schedulerConfig = vars.scheduler.schedulerConfig := by
  cases h with
  | take => rfl
  | preemptVictim _ _ _ _ _ _ _ _ _ _ _ _ hpreempt =>
    have hconfig := schedulerConfig_preempt hpreempt
    exact hconfig
  | preemptSelf _ _ _ _ _ _ _ _ _ _ hpreempt =>
    have hconfig := schedulerConfig_preempt hpreempt
    exact hconfig
  | schedule _ _ _ _ _ hschedule =>
    rcases schedule_eq_ok hschedule with ⟨_, scheduler, happend, rfl⟩
    rcases appendSlots_eq_ok happend with ⟨blockManager, rfl⟩
    rfl

end RunningVars

theorem schedulerConfig_of_scheduleRunning {scheduler : Scheduler} {runningQueue : List SequenceGroup}
    {budget : SchedulingBudget} {enableChunking : Bool} {now : Nat} {vars : RunningVars}
    (h : scheduler.scheduleRunning runningQueue budget enableChunking now = .ok vars)
    : vars.scheduler.schedulerConfig = scheduler.schedulerConfig := by
  refine (runningLoop enableChunking).run_invariant
    (I := fun vars => vars.scheduler.schedulerConfig = scheduler.schedulerConfig)
    (Q := fun vars => vars.scheduler.schedulerConfig = scheduler.schedulerConfig) ?_ ?_ rfl h
  . intro vars vars' hvars hstep
    exact (RunningVars.next_of_step hstep).schedulerConfig_eq.trans hvars
  . intro vars vars' hvars hstep
    rwa [(RunningVars.of_step_eq_inr hstep).1]

namespace SwappedVars

variable {enableChunking : Bool} {vars vars' : SwappedVars} {group : SequenceGroup}

theorem schedule_eq_ok {numNewTokens numNewSequences : Nat}
    (h : vars.schedule group numNewTokens numNewSequences = .ok vars')
    : ∃ blocksToSwapIn blocksToCopy scheduler scheduler',
        vars.scheduler.swapIn group vars.outputs.blocksToSwapIn = .ok (blocksToSwapIn, scheduler)
          ∧ scheduler.appendSlots group vars.outputs.blocksToCopy = .ok (blocksToCopy, scheduler')
          ∧ vars' = {
              vars with
              scheduler := scheduler'
              budget := (vars.budget.addNumBatchedTokens group.requestId numNewTokens
                ).addNumberSequences group.requestId numNewSequences
              outputs := {
                vars.outputs.addScheduled (group.isPrefill scheduler'.memory.sequences) group
                  numNewTokens with
                blocksToSwapIn
                blocksToCopy } } := by
  simp only [schedule, Except.bind_eq_ok] at h
  rcases h with ⟨⟨blocksToSwapIn, scheduler⟩, hswap, ⟨blocksToCopy, scheduler'⟩, happend, h⟩
  refine ⟨blocksToSwapIn, blocksToCopy, scheduler, scheduler', hswap, happend, ?_⟩
  cases h
  rfl

inductive Next (enableChunking : Bool) (vars : SwappedVars) : SwappedVars → Prop where
  | ignore (group : SequenceGroup) (swappedQueue : List SequenceGroup)
      (hqueue : vars.swappedQueue = group :: swappedQueue)
      (hcan : vars.scheduler.memory.blockManager.canSwapIn group vars.scheduler.memory.sequences
        = .never)
    : Next enableChunking vars { vars.ignore group with swappedQueue }
  | schedule (group : SequenceGroup) (swappedQueue : List SequenceGroup) (numNewTokens : Nat)
      (vars' : SwappedVars)
      (hqueue : vars.swappedQueue = group :: swappedQueue)
      (hcan : vars.scheduler.memory.blockManager.canSwapIn group vars.scheduler.memory.sequences
        = .ok)
      (htokens : vars.scheduler.getNumTokens group .swapped enableChunking vars.budget
        = .ok numNewTokens)
      (hbudget : vars.canSchedule numNewTokens
        (group.getMaxNumRunningSeqs vars.scheduler.memory.sequences) = .ok true)
      (hschedule : vars.schedule group numNewTokens
        (group.getMaxNumRunningSeqs vars.scheduler.memory.sequences) = .ok vars')
    : Next enableChunking vars { vars' with swappedQueue }

theorem canSwapIn_ne_nothing (manager : BlockSpaceManager) (heap : SequenceHeap)
    : manager.canSwapIn group heap ≠ .nothing := by
  unfold BlockSpaceManager.canSwapIn
  dsimp only
  split
  . simp
  . split <;> simp

theorem next_of_step (h : vars.step enableChunking = .ok (.inl vars'))
    : Next enableChunking vars vars' := by
  unfold step at h
  split at h
  . cases h
  . next group swappedQueue hqueue =>
    split at h
    . cases h
    . next hcan =>
      cases h
      exact .ignore group swappedQueue hqueue hcan
    . next hcan =>
      rcases admitNext_eq_inl h with ⟨numNewTokens, vars'', htokens, hbudget, hschedule, rfl⟩
      exact .schedule group swappedQueue numNewTokens vars'' hqueue hcan htokens hbudget hschedule
    . next hcan => exact absurd hcan (canSwapIn_ne_nothing _ _)

theorem of_step_eq_inr (h : vars.step enableChunking = .ok (.inr vars'))
    : vars' = vars
        ∧ ∀ group swappedQueue,
            vars.swappedQueue = group :: swappedQueue
              → vars.scheduler.memory.blockManager.canSwapIn group vars.scheduler.memory.sequences
                  ≠ .never := by
  unfold step at h
  split at h
  . next hqueue =>
    cases h
    simp [hqueue]
  . next group swappedQueue hqueue =>
    have hvars : vars' = vars
        ∧ vars.scheduler.memory.blockManager.canSwapIn group vars.scheduler.memory.sequences
            ≠ .never := by
      split at h
      . next hcan =>
        cases h
        simp [hcan]
      . cases h
      all_goals
        next hcan =>
        simp only [admitNext, Except.bind_eq_ok] at h
        rcases h with ⟨numNewTokens, -, canSchedule, -, h⟩
        cases canSchedule with
        | false =>
          cases h
          simp [hcan]
        | true =>
          rcases Except.bind_eq_ok.mp h with ⟨vars'', -, h⟩
          cases h
    refine ⟨hvars.1, ?_⟩
    intro group' swappedQueue' hqueue'
    rw [hqueue] at hqueue'
    cases hqueue'
    exact hvars.2

theorem Next.schedulerConfig_eq (h : Next enableChunking vars vars')
    : vars'.scheduler.schedulerConfig = vars.scheduler.schedulerConfig := by
  cases h with
  | ignore => rfl
  | schedule _ _ _ _ _ _ _ _ hschedule =>
    rcases schedule_eq_ok hschedule with ⟨_, _, scheduler, scheduler', hswap, happend, rfl⟩
    rcases appendSlots_eq_ok happend with ⟨blockManager, rfl⟩
    have hconfig := schedulerConfig_of_swapIn hswap
    exact hconfig

end SwappedVars

theorem schedulerConfig_of_scheduleSwapped {scheduler : Scheduler} {swappedQueue : List SequenceGroup}
    {budget : SchedulingBudget} {enableChunking : Bool} {now : Nat} {vars : SwappedVars}
    (h : scheduler.scheduleSwapped swappedQueue budget enableChunking now = .ok vars)
    : vars.scheduler.schedulerConfig = scheduler.schedulerConfig := by
  refine (swappedLoop enableChunking).run_invariant
    (I := fun vars => vars.scheduler.schedulerConfig = scheduler.schedulerConfig)
    (Q := fun vars => vars.scheduler.schedulerConfig = scheduler.schedulerConfig) ?_ ?_ rfl h
  . intro vars vars' hvars hstep
    exact (SwappedVars.next_of_step hstep).schedulerConfig_eq.trans hvars
  . intro vars vars' hvars hstep
    rwa [(SwappedVars.of_step_eq_inr hstep).1]

namespace PrefillVars

variable {enableChunking : Bool} {vars vars' : PrefillVars} {group : SequenceGroup}

theorem schedule_eq_ok {numNewTokens numNewSequences : Nat}
    (h : vars.schedule group numNewTokens numNewSequences = .ok vars')
    : ∃ scheduler,
        vars.scheduler.allocateAndSetRunning group = .ok scheduler
          ∧ vars' = {
              vars with
              scheduler
              budget := (vars.budget.addNumBatchedTokens group.requestId numNewTokens
                ).addNumberSequences group.requestId numNewSequences
              outputs.sequenceGroups := vars.outputs.sequenceGroups ++ [⟨group, numNewTokens⟩] } := by
  simp only [schedule, Except.bind_eq_ok] at h
  rcases h with ⟨scheduler, hallocate, h⟩
  cases h
  exact ⟨scheduler, hallocate, rfl⟩

/--
The variables when the body of the loop is entered.
-/
def enter (now : Nat → Nat) (vars : PrefillVars) : PrefillVars :=
  {
    vars with
    scheduler := (vars.scheduler.passedDelay (now vars.iteration)).2
    iteration := vars.iteration + 1
  }

inductive Next (enableChunking : Bool) (now : Nat → Nat) (vars : PrefillVars) : PrefillVars → Prop where
  | ignoreTooLong (group : SequenceGroup) (waitingQueue : List SequenceGroup) (numNewTokens : Nat)
      (hqueue : vars.waitingQueue = group :: waitingQueue)
      (htokens : (vars.enter now).scheduler.getNumTokens group .waiting enableChunking vars.budget
        = .ok numNewTokens)
      (hcheck : (vars.enter now).checkSequences enableChunking group numNewTokens = .ok ())
      (hlimit : (vars.enter now).scheduler.getPromptLimit < numNewTokens)
    : Next enableChunking now vars { (vars.enter now).ignore group (fun _ => true) with waitingQueue }
  | ignoreNever (group : SequenceGroup) (waitingQueue : List SequenceGroup) (numNewTokens : Nat)
      (hqueue : vars.waitingQueue = group :: waitingQueue)
      (htokens : (vars.enter now).scheduler.getNumTokens group .waiting enableChunking vars.budget
        = .ok numNewTokens)
      (hcheck : (vars.enter now).checkSequences enableChunking group numNewTokens = .ok ())
      (hlimit : numNewTokens ≤ (vars.enter now).scheduler.getPromptLimit)
      (hcan : (vars.enter now).scheduler.memory.blockManager.canAllocate group
        (vars.enter now).scheduler.memory.sequences = .never)
    : Next enableChunking now vars {
        (vars.enter now).ignore group
          (fun seq => (vars.scheduler.memory.sequences seq).sequenceStatus = .waiting) with
        waitingQueue }
  | schedule (group : SequenceGroup) (waitingQueue : List SequenceGroup) (numNewTokens : Nat)
      (vars' : PrefillVars)
      (hqueue : vars.waitingQueue = group :: waitingQueue)
      (htokens : (vars.enter now).scheduler.getNumTokens group .waiting enableChunking vars.budget
        = .ok numNewTokens)
      (hcheck : (vars.enter now).checkSequences enableChunking group numNewTokens = .ok ())
      (hlimit : numNewTokens ≤ (vars.enter now).scheduler.getPromptLimit)
      (hcan : (vars.enter now).scheduler.memory.blockManager.canAllocate group
        (vars.enter now).scheduler.memory.sequences = .ok)
      (hbudget : (vars.enter now).canSchedule numNewTokens
        (group.getMaxNumRunningSeqs (vars.enter now).scheduler.memory.sequences) = .ok true)
      (hschedule : (vars.enter now).schedule group numNewTokens
        (group.getMaxNumRunningSeqs (vars.enter now).scheduler.memory.sequences) = .ok vars')
    : Next enableChunking now vars { vars' with waitingQueue }

theorem memory_enter (now : Nat → Nat) : (vars.enter now).scheduler.memory = vars.scheduler.memory := by
  unfold enter passedDelay
  dsimp only
  split
  . rfl
  . split <;> rfl

theorem ne_nothing_of_checkSequences {numNewTokens : Nat} {manager : BlockSpaceManager}
    (h : vars.checkSequences enableChunking group numNewTokens = .ok ())
    : manager.canAllocate group vars.scheduler.memory.sequences ≠ .nothing := by
  unfold checkSequences at h
  split at h
  . next waitingSequence hwaiting =>
    have hmem : waitingSequence ∈ group.getSeqs vars.scheduler.memory.sequences .waiting := by
      rw [hwaiting]
      exact List.mem_singleton_self _
    rw [SequenceGroup.mem_getSeqs] at hmem
    cases hfirst : group.getFirstSequence vars.scheduler.memory.sequences .waiting with
    | none =>
      unfold SequenceGroup.getFirstSequence at hfirst
      rw [List.find?_eq_none] at hfirst
      exact absurd hmem.2 (by simpa using hfirst waitingSequence hmem.1)
    | some seq =>
      unfold BlockSpaceManager.canAllocate SequenceGroup.getNumTotalLogicalTokenBlocks
      simp only [hfirst, Option.map_some]
      cases manager.blockSlidingWindow with
      | none =>
        dsimp only
        split
        . simp
        . split <;> simp
      | some blockSlidingWindow =>
        dsimp only
        split
        . simp
        . split <;> simp
  . cases h

theorem next_of_step {now : Nat → Nat} (h : vars.step enableChunking now = .ok (.inl vars'))
    : Next enableChunking now vars vars' := by
  unfold step at h
  split at h
  . cases h
  . next group waitingQueue hqueue =>
    dsimp only at h
    split at h
    . change (vars.enter now).consider enableChunking group waitingQueue = _ at h
      simp only [consider, Except.bind_eq_ok] at h
      rcases h with ⟨numNewTokens, htokens, _, hcheck, h⟩
      split at h
      . next hlimit =>
        cases h
        exact .ignoreTooLong group waitingQueue numNewTokens hqueue htokens hcheck hlimit
      . next hlimit =>
        split at h
        . cases h
        . next hcan =>
          cases h
          have := Next.ignoreNever group waitingQueue numNewTokens hqueue htokens hcheck (by omega) hcan
          rwa [← memory_enter now] at this
        . next hcan =>
          rcases admitNext_eq_inl h with ⟨vars'', hbudget, hschedule, rfl⟩
          exact .schedule group waitingQueue numNewTokens vars'' hqueue htokens hcheck (by omega) hcan
            hbudget hschedule
        . next hcan => exact absurd hcan (ne_nothing_of_checkSequences hcheck)
    . cases h

theorem of_step_eq_inr {now : Nat → Nat} (h : vars.step enableChunking now = .ok (.inr vars'))
    : vars' = vars
        ∨ vars' = vars.enter now
        ∨ vars' = { vars with scheduler := (vars.scheduler.passedDelay (now vars.iteration)).2 } := by
  unfold step at h
  split at h
  . cases h
    exact .inl rfl
  . dsimp only at h
    split at h
    . right
      left
      simp only [consider, Except.bind_eq_ok] at h
      rcases h with ⟨numNewTokens, -, _, -, h⟩
      split at h
      . cases h
      . split at h
        . cases h
          rfl
        . cases h
        all_goals
          simp only [admitNext, Except.bind_eq_ok] at h
          rcases h with ⟨canSchedule, -, h⟩
          cases canSchedule with
          | false =>
            cases h
            rfl
          | true =>
            rcases Except.bind_eq_ok.mp h with ⟨vars'', -, h⟩
            cases h
    . cases h
      exact .inr (.inr rfl)

theorem Next.schedulerConfig_eq {now : Nat → Nat} (h : Next enableChunking now vars vars')
    : vars'.scheduler.schedulerConfig = vars.scheduler.schedulerConfig := by
  have henter : (vars.enter now).scheduler.schedulerConfig = vars.scheduler.schedulerConfig :=
    schedulerConfig_passedDelay _ _
  cases h with
  | ignoreTooLong => exact henter
  | ignoreNever => exact henter
  | schedule _ _ _ _ _ _ _ _ _ _ hschedule =>
    rcases schedule_eq_ok hschedule with ⟨scheduler, hallocate, rfl⟩
    exact (schedulerConfig_of_allocateAndSetRunning hallocate).trans henter

end PrefillVars

theorem schedulerConfig_of_schedulePrefills {scheduler : Scheduler} {waitingQueue : List SequenceGroup}
    {budget : SchedulingBudget} {enableChunking : Bool} {now : Nat → Nat} {vars : PrefillVars}
    (h : scheduler.schedulePrefills waitingQueue budget enableChunking now = .ok vars)
    : vars.scheduler.schedulerConfig = scheduler.schedulerConfig := by
  simp only [schedulePrefills, Except.bind_eq_ok] at h
  rcases h with ⟨last, hrun, h⟩
  have hlast : last.scheduler.schedulerConfig = scheduler.schedulerConfig := by
    refine (prefillLoop enableChunking now).run_invariant
      (I := fun vars => vars.scheduler.schedulerConfig = scheduler.schedulerConfig)
      (Q := fun vars => vars.scheduler.schedulerConfig = scheduler.schedulerConfig) ?_ ?_ rfl hrun
    . intro vars vars' hvars hstep
      exact (PrefillVars.next_of_step hstep).schedulerConfig_eq.trans hvars
    . intro vars vars' hvars hstep
      rcases PrefillVars.of_step_eq_inr hstep with rfl | rfl | rfl
      . exact hvars
      . exact (schedulerConfig_passedDelay _ _).trans hvars
      . exact (schedulerConfig_passedDelay _ _).trans hvars
  split at h <;> cases h <;> exact hlast

end Scheduler

end AtomaInfer
