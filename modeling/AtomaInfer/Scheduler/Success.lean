import AtomaInfer.BlockManager.Guards
import AtomaInfer.Scheduler.Budget

/-!
When a pass over groups with one sequence does not fail. Without a sliding window the guards suffice
for the operations that they protect, so a loop stops with an error at few places only. The three
loops are considered one by one, each with the invariant that rules out the other errors.
-/

namespace AtomaInfer

namespace Scheduler

open Config

theorem Config.held_of_running {c : Config} {group : SequenceGroup}
    {running : Multiset SequenceGroup} (hrunning : c.running = group ::ₘ running)
    : ∃ rest, c.held = group ::ₘ rest ∧ c.scheduled.map (·.scheduledGroup) ≤ rest := by
  refine ⟨c.waiting + running + c.swapped + c.scheduled.map (·.scheduledGroup) + c.ignored
    + c.infeasible, ?_, ?_⟩
  . simp only [held, hrunning, Multiset.add_cons, Multiset.cons_add]
  . calc
      _ ≤ c.scheduled.map (·.scheduledGroup)
          + (c.waiting + running + c.swapped + c.ignored + c.infeasible) :=
        Multiset.le_add_right _ _
      _ = _ := by abel

section Tokens

variable {scheduler : Scheduler} {group : SequenceGroup} {seq : SequenceRef} {refs : List SequenceRef}
variable {budget : SchedulingBudget} {enableChunking : Bool} {blockTable : BlockTable}
variable {status : SequenceStatus}

/--
The tokens of a group with one sequence: all that are left to compute, or those for which there is
room in the budget.
-/
def numTokensOf (enableChunking : Bool) (budget : SchedulingBudget) (numNewTokens : Nat) : Nat :=
  if enableChunking then min numNewTokens (budget.tokenBudget - budget.numBatchedTokens)
  else numNewTokens

theorem getNumTokens_eq_ok {numNewTokens : Nat} (hgroup : group.sequences = [seq])
    (hstatus : (scheduler.memory.sequences seq).sequenceStatus = status)
    (hnew : (scheduler.memory.sequences seq).getNumNewTokens = some numNewTokens)
    (hpos : 1 ≤ numNewTokens)
    (hbudget : enableChunking = true → budget.numBatchedTokens ≤ budget.tokenBudget)
    : scheduler.getNumTokens group status enableChunking budget
        = .ok (numTokensOf enableChunking budget numNewTokens) := by
  rw [getNumTokens_eq hgroup hstatus hnew hpos]
  unfold numTokensOf
  cases enableChunking with
  | false => rfl
  | true =>
    simp only [if_true, SchedulingBudget.remainingBudgetTokens, hbudget rfl]
    rfl

end Tokens

namespace RunningVars

variable {enableChunking : Bool} {refs : List SequenceRef} {base : Config}
variable {limits : SchedulerConfig} {vars vars' : RunningVars} {group : SequenceGroup}
variable {numTokens : Nat}

/--
The group that is to be preempted is swapped out, for which there is no room on the CPU.
-/
def CannotSwapOut (vars : RunningVars) : Prop :=
  ∃ group numRunningTokens,
    vars.current = some (group, numRunningTokens)
      ∧ vars.scheduler.canAppendSlots group = false
      ∧ let victim := vars.runningQueue.getLast?.getD group
        victim.getMaxNumRunningSeqs vars.scheduler.memory.sequences ≠ 1
          ∧ vars.scheduler.memory.blockManager.canSwapOut victim vars.scheduler.memory.sequences
              = false

/--
The groups whose sequences the budget has counted. With chunked prefills these are the scheduled
ones, otherwise all the groups that ran when the pass began, until one is preempted.
-/
def Tracks (enableChunking : Bool) (base : Config) (limits : SchedulerConfig) (vars : RunningVars)
    (counted : Multiset SequenceGroup) : Prop :=
  let scheduled := (vars.config base).scheduled.map (·.scheduledGroup)
  if enableChunking then
    counted = scheduled
  else
    (counted.map SequenceGroup.width).sum ≤ limits.maxNumSequences
      ∧ (vars.outputs.preempted = [] → vars.outputs.swappedOut = [] →
          counted = (vars.config base).running + scheduled)

/--
The invariant of the running loop that makes it go on: the groups that run and those that are
scheduled fit into the budget.
-/
structure Counted (enableChunking : Bool) (refs : List SequenceRef) (base : Config)
    (limits : SchedulerConfig) (vars : RunningVars) : Prop where
  inv : vars.Inv enableChunking refs base
  unwindowed : vars.scheduler.memory.Unwindowed
  simple : (vars.config base).Simple
  budgeted : ∃ counted,
    (vars.config base).Budgeted limits vars.budget counted
      ∧ Tracks enableChunking base limits vars counted
  width_le : (((vars.config base).running
    + (vars.config base).scheduled.map (·.scheduledGroup)).map SequenceGroup.width).sum
      ≤ limits.maxNumSequences
  chunked : enableChunking = true →
    vars.budget.numBatchedTokens ≤ limits.maxNumBatchedTokens
      ∧ ∀ group numTokens, vars.current = some (group, numTokens) →
          vars.budget.numBatchedTokens + numTokens ≤ limits.maxNumBatchedTokens
  decodes : enableChunking = false →
    vars.outputs.prefillSeqGroups = []
      ∧ ∀ scheduled ∈ (vars.config base).scheduled, scheduled.tokenChunkSize = 1

theorem Counted.exists_of_running (h : vars.Counted enableChunking refs base limits)
    (hgroup : group ∈ (vars.config base).running)
    : ∃ seq,
        group.sequences = [seq]
          ∧ seq ∈ refs
          ∧ (vars.scheduler.memory.sequences seq).sequenceStatus = .running := by
  rcases h.inv.ok.running group hgroup with ⟨seq, hsingle, hstatus⟩
  have hheld : group ∈ (vars.config base).held := by
    simp only [held, Multiset.mem_add]
    tauto
  exact ⟨seq, hsingle, h.inv.ok.mem_refs group hheld seq (by simp [hsingle]), hstatus⟩

theorem Counted.getNumTokens_eq_ok (h : vars.Counted enableChunking refs base limits)
    (hgroup : group ∈ (vars.config base).running)
    : ∃ numNewTokens,
        1 ≤ numNewTokens
          ∧ vars.scheduler.getNumTokens group .running enableChunking vars.budget
              = .ok (numTokensOf enableChunking vars.budget numNewTokens) := by
  rcases h.exists_of_running hgroup with ⟨seq, hsingle, hseq, hstatus⟩
  rcases h.inv.ok.sound.onDevice_of_running hseq hstatus with ⟨blockTable, -, -, hfits⟩
  have hlt := hfits.1
  change _ < (vars.scheduler.memory.sequences seq).length at hlt
  have hnew := hfits.getNumNewTokens_eq
  change (vars.scheduler.memory.sequences seq).sequenceData.numComputedTokens < _ at hlt
  refine ⟨_, ?_, Scheduler.getNumTokens_eq_ok hsingle hstatus hnew ?_ ?_⟩
  . change 1 ≤ (vars.scheduler.memory.sequences seq).length
      - (vars.scheduler.memory.sequences seq).sequenceData.numComputedTokens
    omega
  . change 1 ≤ (vars.scheduler.memory.sequences seq).length
      - (vars.scheduler.memory.sequences seq).sequenceData.numComputedTokens
    omega
  . intro hchunked
    rcases h.budgeted with ⟨counted, hbudgeted, -⟩
    rw [hbudgeted.tokenBudget_eq]
    exact (h.chunked hchunked).1

/--
A group with one sequence that decodes has one token to compute.
-/
theorem Counted.eq_one_of_decode (h : vars.Counted enableChunking refs base limits)
    (hcurrent : vars.current = some (group, numTokens))
    (hdecode : group.isPrefill vars.scheduler.memory.sequences = false) : numTokens = 1 := by
  have hgroup : group ∈ (vars.config base).running := by simp [config, hcurrent]
  rcases h.exists_of_running hgroup with ⟨seq, hsingle, hseq, hstatus⟩
  have hchunk := h.inv.current group numTokens seq hcurrent hsingle
  have hone : IsChunk vars.scheduler.memory false seq 1 :=
    isChunk_one h.inv.ok.sound hsingle hseq hstatus hdecode
  have hfull := hone.2.2 rfl
  have hpos := hchunk.1
  have hle := hchunk.2.1
  omega

theorem Counted.exists_preempt (h : vars.Counted enableChunking refs base limits)
    (hgroup : group ∈ (vars.config base).running)
    (hcan : group.getMaxNumRunningSeqs vars.scheduler.memory.sequences ≠ 1 →
      vars.scheduler.memory.blockManager.canSwapOut group vars.scheduler.memory.sequences = true)
    (budget : SchedulingBudget) : ∃ vars', preempt { vars with budget } group = .ok vars' := by
  rcases h.exists_of_running hgroup with ⟨seq, hsingle, hseq, hstatus⟩
  unfold preempt Scheduler.preempt
  dsimp only
  by_cases hone : group.getMaxNumRunningSeqs vars.scheduler.memory.sequences = 1
  . rcases preemptByRecompute_spec vars.scheduler.countPreemption h.inv.ok.sound hsingle
      h.unwindowed hstatus with ⟨memory, hok, -⟩
    unfold countPreemption at hok
    rw [if_pos hone]
    dsimp only
    rw [hok]
    exact ⟨_, rfl⟩
  . rcases swapOut_spec vars.scheduler.countPreemption h.inv.ok.sound hsingle hseq h.unwindowed
      hstatus (hcan hone) vars.outputs.blocksToSwapOut with ⟨numbers, memory, hok, -⟩
    unfold countPreemption at hok
    rw [if_neg hone]
    dsimp only [preemptBySwap]
    rw [hok]
    exact ⟨_, rfl⟩

theorem Counted.exists_schedule (h : vars.Counted enableChunking refs base limits)
    (hgroup : group ∈ (vars.config base).running)
    (hcan : vars.scheduler.canAppendSlots group = true)
    : ∃ vars', vars.schedule enableChunking group numTokens = .ok vars' := by
  rcases h.exists_of_running hgroup with ⟨seq, hsingle, hseq, hstatus⟩
  have hfree := one_le_of_canAppendSlots vars.scheduler hsingle hstatus hcan
  rcases appendSlots_spec vars.scheduler h.inv.ok.sound hsingle hseq h.unwindowed hstatus
    (fun _ _ _ => hfree) vars.outputs.blocksToCopy with ⟨memory, hok, -⟩
  unfold schedule
  rw [hok]
  exact ⟨_, rfl⟩

/--
A running group is not scheduled, and its identifier is not in the budget.
-/
theorem Counted.notMem_batched (h : vars.Counted enableChunking refs base limits)
    {counted : Multiset SequenceGroup}
    (hbudgeted : (vars.config base).Budgeted limits vars.budget counted)
    {running : Multiset SequenceGroup} (hrunning : (vars.config base).running = group ::ₘ running)
    : group.requestId ∉ vars.budget.requestIdsNumBatchedTokens
        ∧ ∀ other ∈ (vars.config base).scheduled.map (·.scheduledGroup),
            other.requestId ≠ group.requestId := by
  rcases held_of_running hrunning with ⟨rest, hheld, hle⟩
  refine ⟨hbudgeted.notMem_batched h.simple hheld hle, ?_⟩
  intro other hmem
  exact h.simple.requestId_ne hheld (Multiset.mem_of_le hle hmem)

/--
The subtractions for the group at hand succeed.
-/
theorem Counted.exists_subtract (h : vars.Counted enableChunking refs base limits)
    (hcurrent : vars.current = some (group, numTokens))
    : ∃ budget' counted',
        vars.budget.subtractNumBatchedTokens group.requestId numTokens = .ok vars.budget
          ∧ vars.budget.subtractsNumberSequences group.requestId
              (group.getMaxNumRunningSeqs vars.scheduler.memory.sequences) = .ok budget'
          ∧ (vars.config base).Budgeted limits budget' counted'
          ∧ budget'.numBatchedTokens = vars.budget.numBatchedTokens
          ∧ if enableChunking then
              counted' = (vars.config base).scheduled.map (·.scheduledGroup)
            else
              (counted'.map SequenceGroup.width).sum ≤ limits.maxNumSequences := by
  have hrunning : (vars.config base).running = group ::ₘ (vars.runningQueue : Multiset _) := by
    simp only [config, hcurrent, Option.map_some, Option.toList_some, Multiset.coe_singleton]
    rw [coe_add_singleton]
  have hgroup : group ∈ (vars.config base).running := by simp [hrunning]
  have hheld : group ∈ (vars.config base).held := by
    simp only [held, Multiset.mem_add]
    tauto
  have hwidth := h.inv.ok.getMaxNumRunningSeqs_of_running hgroup
  rcases h.budgeted with ⟨counted, hbudgeted, htracks⟩
  rcases h.notMem_batched hbudgeted hrunning with ⟨hnotMem, hne⟩
  rcases hbudgeted.exists_subtract h.simple hheld hnotMem numTokens
    with ⟨budget', counted', hfirst, hsecond, hbudgeted', hle, hkeeps, htokens⟩
  refine ⟨budget', counted', hfirst, ?_, hbudgeted', htokens, ?_⟩
  . change group.getMaxNumRunningSeqs vars.scheduler.memory.sequences = _ at hwidth
    rwa [hwidth]
  . cases enableChunking with
    | true =>
      have htracks : counted = _ := htracks
      simp only [if_true]
      rw [← htracks]
      apply hkeeps
      rw [htracks]
      exact fun hmem => hne group hmem rfl
    | false =>
      have htracks := htracks.1
      simp only [Bool.false_eq_true, if_false]
      exact (SequenceGroup.sum_width_le hle).trans htracks

/--
The body of the running loop does not fail unless a group cannot be swapped out.
-/
theorem Counted.exists_step (h : vars.Counted enableChunking refs base limits)
    (hroom : ¬ vars.CannotSwapOut) : ∃ result, vars.step enableChunking = .ok result := by
  unfold step
  split
  . next hcurrent =>
    split
    . exact ⟨_, rfl⟩
    . next group runningQueue hqueue =>
      have hgroup : group ∈ (vars.config base).running := by simp [config, hqueue]
      rcases h.getNumTokens_eq_ok hgroup with ⟨numNewTokens, -, htokens⟩
      rw [htokens]
      dsimp only
      split <;> exact ⟨_, rfl⟩
  . next group numRunningTokens hcurrent =>
    have hgroup : group ∈ (vars.config base).running := by simp [config, hcurrent]
    split
    . next hcan =>
      have hcan : vars.scheduler.canAppendSlots group = false := by simpa using hcan
      rcases h.exists_subtract hcurrent with ⟨budget', counted', hfirst, hsecond, -⟩
      have hswap (victim : SequenceGroup) (hvictim : vars.runningQueue.getLast?.getD group = victim)
          (hne : victim.getMaxNumRunningSeqs vars.scheduler.memory.sequences ≠ 1)
          : vars.scheduler.memory.blockManager.canSwapOut victim vars.scheduler.memory.sequences
            = true := by
        by_contra hnot
        apply hroom
        refine ⟨group, numRunningTokens, hcurrent, hcan, ?_⟩
        rw [hvictim]
        exact ⟨hne, by simpa using hnot⟩
      simp only [hfirst, hsecond, bind, Except.bind]
      split
      . next victim hvictim =>
        have hmem : victim ∈ (vars.config base).running := by
          simp [config, List.mem_of_getLast? hvictim]
        rcases h.exists_preempt hmem (hswap victim (by rw [hvictim]; rfl)) budget'
          with ⟨vars', hpreempt⟩
        rw [hpreempt]
        exact ⟨_, rfl⟩
      . next hnone =>
        rcases h.exists_preempt hgroup (hswap group (by rw [hnone]; rfl)) budget'
          with ⟨vars', hpreempt⟩
        rw [hpreempt]
        exact ⟨_, rfl⟩
    . next hcan =>
      rcases h.exists_schedule hgroup (by simpa using hcan) with ⟨vars', hschedule⟩
      rw [hschedule]
      exact ⟨_, rfl⟩

theorem config_running_of_current {group : SequenceGroup} {numTokens : Nat}
    (base : Config) (hcurrent : vars.current = some (group, numTokens))
    : (vars.config base).running = group ::ₘ (vars.runningQueue : Multiset SequenceGroup) := by
  simp only [config, hcurrent, Option.map_some, Option.toList_some, Multiset.coe_singleton]
  rw [coe_add_singleton]

theorem scheduled_of_preempt {after : RunningVars} (h : vars.preempt group = .ok vars')
    (houtputs : after.outputs = vars'.outputs)
    : (after.config base).scheduled = (vars.config base).scheduled
        ∧ after.outputs.prefillSeqGroups = vars.outputs.prefillSeqGroups
        ∧ (after.outputs.preempted ≠ [] ∨ after.outputs.swappedOut ≠ []) := by
  rcases preempt_eq_ok h with ⟨-, scheduler, -, rfl⟩ | ⟨-, blocks, scheduler, -, rfl⟩
  . simp [config, houtputs]
  . simp [config, houtputs]

theorem budget_of_preempt (h : vars.preempt group = .ok vars') : vars'.budget = vars.budget := by
  rcases preempt_eq_ok h with ⟨-, scheduler, -, rfl⟩ | ⟨-, blocks, scheduler, -, rfl⟩ <;> rfl

/--
The invariant after a preemption, which is for what is left of the groups that run.
-/
theorem Counted.preempt (h : vars.Counted enableChunking refs base limits)
    (hcurrent : vars.current = some (group, numTokens)) {budget budget' : SchedulingBudget}
    {victim : SequenceGroup} {after : RunningVars}
    (hbudget : vars.budget.subtractNumBatchedTokens group.requestId numTokens = .ok budget)
    (hbudget' : budget.subtractsNumberSequences group.requestId
      (group.getMaxNumRunningSeqs vars.scheduler.memory.sequences) = .ok budget')
    (hpreempt : RunningVars.preempt { vars with budget := budget' } victim = .ok vars')
    (hinv : after.Inv enableChunking refs base)
    (hmove : Move enableChunking (vars.config base) (after.config base))
    (houtputs : after.outputs = vars'.outputs) (hafter : after.budget = budget')
    (hkeeps : after.current = vars.current ∨ after.current = none)
    (hrunning : (vars.config base).running = victim ::ₘ (after.config base).running)
    : after.Counted enableChunking refs base limits := by
  rcases h.exists_subtract hcurrent
    with ⟨budget₁, counted', hfirst, hsecond, hbudgeted, htokens, htracks⟩
  cases hfirst.symm.trans hbudget
  cases hsecond.symm.trans hbudget'
  rcases scheduled_of_preempt hpreempt houtputs with ⟨hscheduled, hprefills, hpreempted⟩
  have hscheduled : (after.config base).scheduled = (vars.config base).scheduled := hscheduled
  have hprefills : after.outputs.prefillSeqGroups = vars.outputs.prefillSeqGroups := hprefills
  refine ⟨hinv, hmove.unwindowed_iff.mpr h.unwindowed, hmove.simple h.simple,
    ⟨counted', ?_, ?_⟩, ?_, ?_, ?_⟩
  . rw [hafter]
    exact hbudgeted.of_eq hmove.held_eq hscheduled
  . unfold Tracks
    cases enableChunking with
    | true =>
      simp only [if_true] at htracks ⊢
      rw [hscheduled]
      exact htracks
    | false =>
      simp only [Bool.false_eq_true, if_false] at htracks ⊢
      refine ⟨htracks, fun hnone hnone' => ?_⟩
      rcases hpreempted with hpreempted | hpreempted
      . exact absurd hnone hpreempted
      . exact absurd hnone' hpreempted
  . refine le_trans (SequenceGroup.sum_width_le ?_) h.width_le
    rw [hscheduled, hrunning, Multiset.cons_add]
    exact Multiset.le_cons_self _ _
  . intro hchunked
    rw [hafter, htokens]
    refine ⟨(h.chunked hchunked).1, ?_⟩
    intro group' numTokens' hsome
    rcases hkeeps with hkeeps | hkeeps
    . exact (h.chunked hchunked).2 group' numTokens' (hkeeps ▸ hsome)
    . rw [hkeeps] at hsome
      cases hsome
  . intro hdefault
    rw [hprefills, hscheduled]
    exact h.decodes hdefault

/--
The invariant after a group has been scheduled.
-/
theorem Counted.schedule (h : vars.Counted enableChunking refs base limits)
    (hcurrent : vars.current = some (group, numTokens)) {after : RunningVars}
    (hcan : vars.scheduler.canAppendSlots group = true)
    (hstage : enableChunking = false → ¬ vars.SchedulesPrefill)
    (hschedule : vars.schedule enableChunking group numTokens = .ok vars')
    (hafter : after = { vars' with runningQueue := vars.runningQueue, current := none })
    (hinv : after.Inv enableChunking refs base)
    (hmove : Move enableChunking (vars.config base) (after.config base))
    : after.Counted enableChunking refs base limits := by
  rcases schedule_eq_ok hschedule with ⟨blocksToCopy, scheduler, happend, rfl⟩
  have hrunning := config_running_of_current base hcurrent
  have hheap : scheduler.memory.sequences = vars.scheduler.memory.sequences := by
    rcases appendSlots_eq_ok happend with ⟨blockManager, rfl⟩
    rfl
  have hgroup : group ∈ (vars.config base).running := by simp [hrunning]
  rcases h.budgeted with ⟨counted, hbudgeted, htracks⟩
  rcases h.notMem_batched hbudgeted hrunning with ⟨hnotMem, hne⟩
  -- the number of tokens that is counted is the one that is scheduled
  have hchunk : (if group.isPrefill vars.scheduler.memory.sequences then numTokens else 1)
      = numTokens := by
    split
    . rfl
    . next hdecode => exact (h.eq_one_of_decode hcurrent (by simpa using hdecode)).symm
  have hscheduled : (after.config base).scheduled
      = ⟨group, numTokens⟩ ::ₘ (vars.config base).scheduled := by
    subst hafter
    simp only [config, coe_addScheduled, Multiset.add_cons, hheap, hchunk]
  have hrunning' : (after.config base).running = (vars.runningQueue : Multiset SequenceGroup) := by
    subst hafter
    simp [config]
  have hbatched := hbudgeted.schedule hnotMem hmove.held_eq hscheduled
  have hwidth : group.getMaxNumRunningSeqs scheduler.memory.sequences = group.width := by
    rw [hheap]
    exact h.inv.ok.getMaxNumRunningSeqs_of_running hgroup
  refine ⟨hinv, hmove.unwindowed_iff.mpr h.unwindowed, hmove.simple h.simple, ?_, ?_, ?_, ?_⟩
  . cases enableChunking with
    | true =>
      have htracks : counted = _ := htracks
      refine ⟨group ::ₘ counted, ?_, ?_⟩
      . subst hafter
        simp only [if_true, hwidth]
        refine hbatched.count ?_ ?_
        . rw [hmove.held_eq]
          simp only [held, Multiset.mem_add]
          tauto
        . rw [htracks]
          exact hne
      . change _ = _
        rw [hscheduled, Multiset.map_cons, htracks]
    | false =>
      refine ⟨counted, ?_, ?_⟩
      . subst hafter
        exact hbatched
      . refine ⟨htracks.1, fun hnone hnone' => ?_⟩
        subst hafter
        rw [hrunning', hscheduled, Multiset.map_cons, Multiset.add_cons, ← Multiset.cons_add,
          ← hrunning]
        apply htracks.2
        . rwa [← (preempted_addScheduled _ _ _ _).1]
        . rwa [← (preempted_addScheduled _ _ _ _).2]
  . rw [hscheduled, hrunning', Multiset.map_cons, Multiset.add_cons, ← Multiset.cons_add,
      ← hrunning]
    exact h.width_le
  . intro hchunked
    subst hafter
    rw [SchedulingBudget.addNumBatchedTokens_of_notMem hnotMem]
    rcases SchedulingBudget.addNumberSequences_keeps {
        vars.budget with
        requestIdsNumBatchedTokens :=
          insert group.requestId vars.budget.requestIdsNumBatchedTokens
        numBatchedTokens := vars.budget.numBatchedTokens + numTokens }
      group.requestId (group.getMaxNumRunningSeqs scheduler.memory.sequences) with ⟨_, _, heq⟩
    refine ⟨?_, fun _ _ hsome => (by cases hsome)⟩
    simp only [hchunked, if_true, heq]
    exact (h.chunked hchunked).2 group numTokens hcurrent
  . intro hdefault
    have hdecode : group.isPrefill vars.scheduler.memory.sequences = false := by
      rw [Bool.eq_false_iff]
      exact fun hprefill => hstage hdefault ⟨group, numTokens, hcurrent, hcan, hprefill⟩
    rw [hscheduled]
    subst hafter
    rw [hheap, hdecode]
    refine ⟨(h.decodes hdefault).1, ?_⟩
    intro scheduled hmem
    rcases Multiset.mem_cons.mp hmem with rfl | hmem
    . exact h.eq_one_of_decode hcurrent hdecode
    . exact (h.decodes hdefault).2 scheduled hmem

theorem Counted.next (h : vars.Counted enableChunking refs base limits)
    (hin : base.blocksToSwapIn = ∅) (hstage : enableChunking = false → ¬ vars.SchedulesPrefill)
    (hnext : Next enableChunking vars vars') : vars'.Counted enableChunking refs base limits := by
  have hinv := h.inv.next hnext hin
  cases hnext with
  | take group runningQueue numRunningTokens hcurrent hqueue htokens hpos =>
    have hsame : config base { vars with runningQueue, current := some (group, numRunningTokens) }
        = vars.config base := by
      simp only [config, hcurrent, hqueue, Option.map_some, Option.map_none, Option.toList_some,
        Option.toList_none, Multiset.coe_nil, add_zero, Multiset.coe_singleton]
      rw [coe_add_singleton, Multiset.cons_coe]
    have hgroup : group ∈ (vars.config base).running := by simp [config, hqueue]
    rcases h.budgeted with ⟨counted, hbudgeted, htracks⟩
    refine ⟨hinv, h.unwindowed, hsame ▸ h.simple, ⟨counted, hsame ▸ hbudgeted, ?_⟩,
      hsame ▸ h.width_le, ?_, ?_⟩
    . unfold Tracks
      rw [hsame]
      exact htracks
    . intro hchunked
      refine ⟨(h.chunked hchunked).1, ?_⟩
      intro group' numTokens hsome
      cases hsome
      rcases h.getNumTokens_eq_ok hgroup with ⟨numNewTokens, -, hok⟩
      rw [hok, hchunked] at htokens
      have hle := (h.chunked hchunked).1
      have hbudget := hbudgeted.tokenBudget_eq
      simp only [numTokensOf, if_true, Except.ok.injEq] at htokens
      dsimp only
      omega
    . rw [hsame]
      exact h.decodes
  | preemptVictim group victim runningQueue numRunningTokens budget budget' vars'' hcurrent hcan
      hbudget hbudget' hqueue hpreempt =>
    have hrunning : (vars.config base).running = victim ::ₘ (config base
        { vars'' with runningQueue, current := vars.current }).running := by
      simp [config, hqueue]
    refine h.preempt hcurrent hbudget hbudget' hpreempt hinv ?_ rfl ?_ (.inl rfl) hrunning
    . change Move enableChunking (config base { vars with budget := budget' }) _
      exact preempt_move base hpreempt h.inv.ok hin rfl rfl hrunning
    . exact budget_of_preempt hpreempt
  | preemptSelf group numRunningTokens budget budget' vars'' hcurrent hcan hbudget hbudget' hqueue
      hpreempt =>
    have hrunning : (vars.config base).running = group ::ₘ (config base
        { vars'' with runningQueue := [], current := none }).running := by
      simp [config, hqueue, hcurrent]
    refine h.preempt hcurrent hbudget hbudget' hpreempt hinv ?_ rfl ?_ (.inr rfl) hrunning
    . change Move enableChunking (config base { vars with budget := budget' }) _
      exact preempt_move base hpreempt h.inv.ok hin rfl rfl hrunning
    . exact budget_of_preempt hpreempt
  | schedule group numRunningTokens vars'' hcurrent hcan hschedule =>
    refine h.schedule hcurrent hcan hstage hschedule rfl hinv ?_
    refine schedule_move base hschedule h.inv.ok rfl rfl ?_ ?_
    . rw [config_running_of_current base hcurrent]
      simp [config]
    . intro seq hgroup
      exact h.inv.current group numRunningTokens seq hcurrent hgroup

/--
The loop stops before the end of the queue only when the budget is spent.
-/
theorem Counted.of_step_eq_inr (h : vars.Counted enableChunking refs base limits)
    (hdone : vars.step enableChunking = .ok (.inr vars'))
    : vars' = vars
        ∧ vars.current = none
        ∧ (vars.runningQueue = []
            ∨ enableChunking = true
              ∧ limits.maxNumBatchedTokens ≤ vars.budget.numBatchedTokens) := by
  rcases RunningVars.of_step_eq_inr hdone with ⟨hsame, hcurrent, hqueue | hzero⟩
  . exact ⟨hsame, hcurrent, .inl hqueue⟩
  . rcases hzero with ⟨group, runningQueue, hqueue, hzero⟩
    have hgroup : group ∈ (vars.config base).running := by simp [config, hqueue]
    rcases h.getNumTokens_eq_ok hgroup with ⟨numNewTokens, hpos, htokens⟩
    rcases h.budgeted with ⟨counted, hbudgeted, -⟩
    have hbudget := hbudgeted.tokenBudget_eq
    rw [htokens, Except.ok.injEq] at hzero
    unfold numTokensOf at hzero
    refine ⟨hsame, hcurrent, .inr ?_⟩
    cases enableChunking with
    | false =>
      simp only [Bool.false_eq_true, if_false] at hzero
      omega
    | true =>
      simp only [if_true] at hzero
      exact ⟨rfl, by omega⟩

/--
The loop over the running groups returns, unless a group cannot be swapped out or, under the default
policy, a group in its prefill phase is scheduled.
-/
theorem Counted.exists_run (h : vars.Counted enableChunking refs base limits)
    (hin : base.blocksToSwapIn = ∅)
    (hroom : ∀ vars', (runningLoop enableChunking).Reaches vars vars' → ¬ vars'.CannotSwapOut)
    (hstage : enableChunking = false →
      ∀ vars', (runningLoop enableChunking).Reaches vars vars' → ¬ vars'.SchedulesPrefill)
    : ∃ final,
        (runningLoop enableChunking).run vars = .ok final
          ∧ final.Counted enableChunking refs base limits
          ∧ final.current = none
          ∧ (final.runningQueue = []
              ∨ enableChunking = true
                ∧ limits.maxNumBatchedTokens ≤ final.budget.numBatchedTokens) := by
  refine (runningLoop enableChunking).run_total
    (I := fun current => current.Counted enableChunking refs base limits
      ∧ (runningLoop enableChunking).Reaches vars current) ?_ ⟨h, .refl⟩
  rintro current ⟨hcounted, hreach⟩
  rcases hcounted.exists_step (hroom current hreach) with ⟨result, hstep⟩
  cases result with
  | inl next =>
    refine .inl ⟨next, hstep, ?_, hreach.tail hstep⟩
    exact hcounted.next hin (fun hdefault => hstage hdefault current hreach) (next_of_step hstep)
  | inr final =>
    rcases hcounted.of_step_eq_inr hstep with ⟨rfl, hcurrent, hqueue⟩
    exact .inr ⟨final, hstep, hcounted, hcurrent, hqueue⟩

end RunningVars

end Scheduler

end AtomaInfer
