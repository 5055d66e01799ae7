import AtomaInfer.Scheduler.Success

/-!
When the passes over the swapped and over the waiting groups do not fail. They admit groups under
the budget, which then is not exceeded.
-/

namespace AtomaInfer

namespace Scheduler

open Config

section SwapIn

variable {scheduler scheduler' : Scheduler} {group : SequenceGroup} {seq : SequenceRef}
variable {refs : List SequenceRef} {blocks blocks' : BlockMapping}

/--
The guard of `swap_in` leaves a free block for the token that is computed next.
-/
theorem one_le_of_swapIn (hsound : scheduler.memory.Sound refs) (hgroup : group.sequences = [seq])
    (hseq : seq ∈ refs) (hnone : scheduler.memory.Unwindowed)
    (hstatus : (scheduler.memory.sequences seq).sequenceStatus = .swapped)
    (hcan : scheduler.memory.blockManager.canSwapIn group scheduler.memory.sequences = .ok)
    (h : scheduler.swapIn group blocks = .ok (blocks', scheduler'))
    : 1 ≤ scheduler'.memory.blockManager.getNumFreeBlocks .gpu := by
  have hdevice := hsound.onDevice_of_swapped hseq hstatus
  have hids := SequenceGroup.getSequencesIds_eq_singleton hgroup hstatus
  rcases Except.bind_eq_ok.mp h with ⟨⟨numbers, between⟩, hswap, hpure⟩
  rcases onMemory_eq_ok hswap with ⟨memory, hrun, rfl⟩
  cases hpure
  change 1 ≤ memory.blockManager.getNumFreeBlocks .gpu
  rcases Memory.swapIn_yields (hsound.accounted hnone) (by simp [hgroup])
    (by simpa [hids] using hdevice.device_eq hnone) hcan
    with ⟨numbers', memory', hrun', mapping, hswapped, -⟩
  rw [hrun] at hrun'
  cases hrun'
  have htook := BlockSpaceManager.getNumFreeBlocks_le_of_swapped hswapped (hsound.accounted hnone)
  have hcard := BlockSpaceManager.card_tableNumbers_le scheduler.memory.blockManager group
    scheduler.memory.sequences (show SequenceStatus.isFinished .swapped = false from rfl)
  have hroom := BlockSpaceManager.le_getNumFreeBlocks_of_canSwapIn hcan
  have hone : group.getNumSequences scheduler.memory.sequences .swapped = 1 := by
    unfold SequenceGroup.getNumSequences
    rw [SequenceGroup.getSeqs_eq_singleton hgroup hstatus]
    rfl
  omega

end SwapIn

namespace Config

variable {c c' : Config} {limits : SchedulerConfig} {budget : SchedulingBudget}
variable {extra rest : Multiset SequenceGroup} {group : SequenceGroup} {numTokens : Nat}

/--
What holds of a pass that admits groups. The budget has counted the groups that are scheduled, and
those in `extra`. When groups are left that run and are not counted, then the tokens are spent.
-/
structure WithinBudget (c : Config) (limits : SchedulerConfig) (budget : SchedulingBudget)
    (extra : Multiset SequenceGroup) : Prop where
  simple : c.Simple
  budgeted : c.Budgeted limits budget (extra + c.scheduled.map (·.scheduledGroup))
  extra_le : extra ≤ c.running
  numBatchedTokens_le : budget.numBatchedTokens ≤ limits.maxNumBatchedTokens
  width_le : ((c.running + c.scheduled.map (·.scheduledGroup)).map SequenceGroup.width).sum
    ≤ limits.maxNumSequences
  spent : c.running = extra ∨ limits.maxNumBatchedTokens ≤ budget.numBatchedTokens

theorem WithinBudget.numCurrSeqs_le (h : c.WithinBudget limits budget extra)
    : budget.numCurrSeqs ≤ limits.maxNumSequences := by
  rw [h.budgeted.counts.numCurrSeqs_eq]
  refine le_trans (SequenceGroup.sum_width_le ?_) h.width_le
  exact Multiset.add_le_add_right h.extra_le

theorem WithinBudget.of_eq (h : c.WithinBudget limits budget extra) (hsimple : c'.Simple)
    (hheld : c'.held = c.held) (hrunning : c'.running = c.running)
    (hscheduled : c'.scheduled = c.scheduled) : c'.WithinBudget limits budget extra := by
  refine ⟨hsimple, ?_, ?_, h.numBatchedTokens_le, ?_, ?_⟩
  . rw [hscheduled]
    exact h.budgeted.of_eq hheld hscheduled
  . rw [hrunning]
    exact h.extra_le
  . rw [hrunning, hscheduled]
    exact h.width_le
  . rw [hrunning]
    exact h.spent

/--
The budget does not fail for a group with tokens to compute.
-/
theorem WithinBudget.canSchedule_eq_ok (hpos : 1 ≤ numTokens) (group : SequenceGroup)
    (h : c.WithinBudget limits budget extra)
    : budget.canSchedule numTokens group.width
        = .ok (budget.numBatchedTokens + numTokens ≤ limits.maxNumBatchedTokens
            && budget.numCurrSeqs + group.width ≤ limits.maxNumSequences) := by
  have hwidth := group.one_le_width
  unfold SchedulingBudget.canSchedule
  rw [if_neg (by omega), h.budgeted.tokenBudget_eq, h.budgeted.maxNumSequences_eq]

/--
A group that the budget allows for is scheduled.
-/
theorem WithinBudget.schedule (h : c.WithinBudget limits budget extra)
    (hheld : c.held = group ::ₘ rest)
    (hrest : c.running + c.scheduled.map (·.scheduledGroup) ≤ rest) (hsimple : c'.Simple)
    (hheld' : c'.held = c.held) (hrunning : c'.running = c.running)
    (hscheduled : c'.scheduled = ⟨group, numTokens⟩ ::ₘ c.scheduled)
    (hcan : budget.canSchedule numTokens group.width = .ok true)
    : c'.WithinBudget limits
        ((budget.addNumBatchedTokens group.requestId numTokens).addNumberSequences
          group.requestId group.width) extra := by
  have hpos : 1 ≤ numTokens := by
    by_contra hzero
    unfold SchedulingBudget.canSchedule at hcan
    rw [if_pos (by omega)] at hcan
    cases hcan
  rw [h.canSchedule_eq_ok hpos] at hcan
  simp only [Except.ok.injEq, Bool.and_eq_true, decide_eq_true_eq] at hcan
  rcases hcan with ⟨htokens, hsequences⟩
  have hnotMem := h.budgeted.notMem_batched h.simple hheld
    ((Multiset.le_add_left _ _).trans hrest)
  have hcounted : extra + c.scheduled.map (·.scheduledGroup) ≤ rest :=
    (Multiset.add_le_add_right h.extra_le).trans hrest
  have hgroup : group ∈ c'.held := by
    rw [hheld', hheld]
    exact Multiset.mem_cons_self _ _
  have hbudgeted := (h.budgeted.schedule hnotMem hheld' hscheduled).count hgroup
    (fun other hother => h.simple.requestId_ne hheld (Multiset.mem_of_le hcounted hother))
  -- only the batched tokens depend on the first operation
  have hbatched : ((budget.addNumBatchedTokens group.requestId numTokens).addNumberSequences
      group.requestId group.width).numBatchedTokens = budget.numBatchedTokens + numTokens := by
    rcases SchedulingBudget.addNumberSequences_keeps
      (budget.addNumBatchedTokens group.requestId numTokens) group.requestId group.width
      with ⟨_, _, heq⟩
    rw [heq]
    exact congrArg SchedulingBudget.numBatchedTokens
      (SchedulingBudget.addNumBatchedTokens_of_notMem hnotMem)
  -- tokens are left, so all the groups that run are counted
  have hextra : c.running = extra := by
    rcases h.spent with hextra | hspent
    . exact hextra
    . omega
  refine ⟨hsimple, ?_, ?_, ?_, ?_, ?_⟩
  . rw [hscheduled, Multiset.map_cons, Multiset.add_cons]
    exact hbudgeted
  . rw [hrunning]
    exact h.extra_le
  . rw [hbatched]
    exact htokens
  . have hcount := h.budgeted.counts.numCurrSeqs_eq
    rw [hrunning, hscheduled, hextra, Multiset.map_cons, Multiset.add_cons, Multiset.map_cons,
      Multiset.sum_cons, ← hcount, Nat.add_comm]
    exact hsequences
  . rw [hrunning]
    exact .inl hextra

theorem Move.isPrefill_eq {enableChunking : Bool} {seq : SequenceRef} (h : Move enableChunking c c')
    (hsame : c'.recomputed = c.recomputed) (hgroup : group.sequences = [seq])
    : group.isPrefill c'.memory.sequences = group.isPrefill c.memory.sequences := by
  simp only [SequenceGroup.isPrefill, hgroup, List.head?_cons, Sequence.isPrefill,
    h.sequenceData_eq_of_recomputed hsame seq]

theorem held_of_swapped {swapped : Multiset SequenceGroup} (hswapped : c.swapped = group ::ₘ swapped)
    : ∃ rest,
        c.held = group ::ₘ rest ∧ c.running + c.scheduled.map (·.scheduledGroup) ≤ rest := by
  refine ⟨c.waiting + c.running + swapped + c.scheduled.map (·.scheduledGroup) + c.ignored
    + c.infeasible, ?_, ?_⟩
  . simp only [held, hswapped, Multiset.add_cons, Multiset.cons_add]
  . calc
      _ ≤ c.running + c.scheduled.map (·.scheduledGroup)
          + (c.waiting + swapped + c.ignored + c.infeasible) := Multiset.le_add_right _ _
      _ = _ := by abel

theorem held_of_waiting {waiting : Multiset SequenceGroup} (hwaiting : c.waiting = group ::ₘ waiting)
    : ∃ rest,
        c.held = group ::ₘ rest ∧ c.running + c.scheduled.map (·.scheduledGroup) ≤ rest := by
  refine ⟨waiting + c.running + c.swapped + c.scheduled.map (·.scheduledGroup) + c.ignored
    + c.infeasible, ?_, ?_⟩
  . simp only [held, hwaiting, Multiset.cons_add]
  . calc
      _ ≤ c.running + c.scheduled.map (·.scheduledGroup)
          + (waiting + c.swapped + c.ignored + c.infeasible) := Multiset.le_add_right _ _
      _ = _ := by abel

end Config

namespace SwappedVars

variable {enableChunking : Bool} {refs : List SequenceRef} {base : Config}
variable {limits : SchedulerConfig} {vars vars' : SwappedVars} {group : SequenceGroup}
variable {swappedQueue : List SequenceGroup} {numNewTokens : Nat}

/--
The first group of the queue is in its prefill phase, and is about to be scheduled.
-/
def SchedulesPrefill (enableChunking : Bool) (vars : SwappedVars) : Prop :=
  ∃ group swappedQueue numNewTokens,
    vars.swappedQueue = group :: swappedQueue
      ∧ vars.scheduler.memory.blockManager.canSwapIn group vars.scheduler.memory.sequences = .ok
      ∧ vars.scheduler.getNumTokens group .swapped enableChunking vars.budget = .ok numNewTokens
      ∧ vars.canSchedule numNewTokens
          (group.getMaxNumRunningSeqs vars.scheduler.memory.sequences) = .ok true
      ∧ group.isPrefill vars.scheduler.memory.sequences = true

/--
The invariant of the loop over the swapped groups that makes it go on.
-/
structure Counted (enableChunking : Bool) (refs : List SequenceRef) (base : Config)
    (limits : SchedulerConfig) (vars : SwappedVars) : Prop where
  ok : (vars.config base).OK enableChunking refs
  unwindowed : vars.scheduler.memory.Unwindowed
  within : (vars.config base).WithinBudget limits vars.budget 0

theorem config_swapped_of_queue (base : Config) (hqueue : vars.swappedQueue = group :: swappedQueue)
    : (vars.config base).swapped = group ::ₘ (swappedQueue : Multiset SequenceGroup) := by
  simp [config, hqueue]

theorem Counted.exists_of_front (h : vars.Counted enableChunking refs base limits)
    (hqueue : vars.swappedQueue = group :: swappedQueue)
    : ∃ seq,
        group.sequences = [seq]
          ∧ seq ∈ refs
          ∧ (vars.scheduler.memory.sequences seq).sequenceStatus = .swapped
          ∧ group.getMaxNumRunningSeqs vars.scheduler.memory.sequences = group.width := by
  have hgroup : group ∈ (vars.config base).swapped := by simp [config, hqueue]
  rcases h.ok.swapped group hgroup with ⟨seq, hsingle, hstatus⟩
  have hheld : group ∈ (vars.config base).held := by
    simp only [held, Multiset.mem_add]
    tauto
  exact ⟨seq, hsingle, h.ok.mem_refs group hheld seq (by simp [hsingle]), hstatus,
    h.ok.getMaxNumRunningSeqs_of_swapped hgroup⟩

theorem Counted.exists_getNumTokens (h : vars.Counted enableChunking refs base limits)
    (hqueue : vars.swappedQueue = group :: swappedQueue)
    : ∃ numNewTokens,
        vars.scheduler.getNumTokens group .swapped enableChunking vars.budget
          = .ok numNewTokens := by
  rcases h.exists_of_front hqueue with ⟨seq, hsingle, hseq, hstatus, -⟩
  rcases h.ok.sound.onDevice_of_swapped hseq hstatus with ⟨blockTable, -, -, hfits⟩
  have hlt := hfits.1
  change _ < (vars.scheduler.memory.sequences seq).length at hlt
  refine ⟨_, Scheduler.getNumTokens_eq_ok hsingle hstatus hfits.getNumNewTokens_eq ?_ ?_⟩
  . change (vars.scheduler.memory.sequences seq).sequenceData.numComputedTokens < _ at hlt
    change 1 ≤ (vars.scheduler.memory.sequences seq).length
      - (vars.scheduler.memory.sequences seq).sequenceData.numComputedTokens
    omega
  . intro _
    rw [h.within.budgeted.tokenBudget_eq]
    exact h.within.numBatchedTokens_le

theorem Counted.exists_schedule (h : vars.Counted enableChunking refs base limits)
    (hqueue : vars.swappedQueue = group :: swappedQueue)
    (hcan : vars.scheduler.memory.blockManager.canSwapIn group vars.scheduler.memory.sequences = .ok)
    (numNewTokens numNewSequences : Nat)
    : ∃ vars', vars.schedule group numNewTokens numNewSequences = .ok vars' := by
  rcases h.exists_of_front hqueue with ⟨seq, hsingle, hseq, hstatus, -⟩
  have hsound : vars.scheduler.memory.Sound refs := h.ok.sound
  rcases swapIn_spec vars.scheduler hsound hsingle hseq h.unwindowed hstatus hcan
    vars.outputs.blocksToSwapIn with ⟨numbers, memory, hswap, hswaps⟩
  have hfree := one_le_of_swapIn hsound hsingle hseq h.unwindowed hstatus hcan hswap
  have hstatus' : (memory.sequences seq).sequenceStatus = .running := by
    rw [hswaps.sequence_eq]
    rfl
  rcases appendSlots_spec { vars.scheduler with memory } (hswaps.sound_in hsound hseq rfl hstatus)
    hsingle hseq (hswaps.unwindowed_iff.mpr h.unwindowed) hstatus' (fun _ _ _ => hfree)
    vars.outputs.blocksToCopy with ⟨memory', happend, -⟩
  unfold schedule
  rw [hswap]
  simp only [bind, Except.bind]
  rw [happend]
  exact ⟨_, rfl⟩

/--
The body of the loop over the swapped groups does not fail.
-/
theorem Counted.exists_step (h : vars.Counted enableChunking refs base limits)
    : ∃ result, vars.step enableChunking = .ok result := by
  unfold step
  split
  . exact ⟨_, rfl⟩
  . next group swappedQueue hqueue =>
    split
    . exact ⟨_, rfl⟩
    . exact ⟨_, rfl⟩
    . next hcan =>
      rcases h.exists_of_front hqueue with ⟨seq, hsingle, hseq, hstatus, hwidth⟩
      rcases h.exists_getNumTokens hqueue with ⟨numNewTokens, htokens⟩
      rcases h.exists_schedule hqueue hcan numNewTokens
        (group.getMaxNumRunningSeqs vars.scheduler.memory.sequences) with ⟨vars', hschedule⟩
      have hbudget : ∃ canSchedule, vars.canSchedule numNewTokens
          (group.getMaxNumRunningSeqs vars.scheduler.memory.sequences) = .ok canSchedule := by
        unfold canSchedule
        split
        . exact ⟨false, rfl⟩
        . next hne =>
          rw [hwidth]
          exact ⟨_, h.within.canSchedule_eq_ok (by omega) group⟩
      rcases hbudget with ⟨canSchedule, hbudget⟩
      unfold admitNext
      simp only [htokens, hbudget, bind, Except.bind]
      cases canSchedule with
      | false => exact ⟨_, rfl⟩
      | true =>
        rw [if_pos rfl, hschedule]
        exact ⟨_, rfl⟩
    . next hcan => exact absurd hcan (canSwapIn_ne_nothing _ _)

/--
A group that decodes has one token to compute.
-/
theorem Counted.eq_one_of_decode (h : vars.Counted enableChunking refs base limits)
    (hqueue : vars.swappedQueue = group :: swappedQueue)
    (htokens : vars.scheduler.getNumTokens group .swapped enableChunking vars.budget
      = .ok numNewTokens)
    (hne : numNewTokens ≠ 0) (hdecode : group.isPrefill vars.scheduler.memory.sequences = false)
    : numNewTokens = 1 := by
  rcases h.exists_of_front hqueue with ⟨seq, hsingle, hseq, hstatus, -⟩
  rcases h.ok.sound.onDevice_of_swapped hseq hstatus with ⟨blockTable, -, -, hfits⟩
  have hchunk := isChunk_of_getNumTokens hsingle hstatus hfits.getNumNewTokens_eq hfits.1 htokens hne
  have hstage : (vars.scheduler.memory.sequences seq).sequenceData.stage = .decode := by
    simp only [SequenceGroup.isPrefill, hsingle, List.head?_cons, Sequence.isPrefill,
      decide_eq_false_iff_not] at hdecode
    cases hstage : (vars.scheduler.memory.sequences seq).sequenceData.stage with
    | prefill => exact absurd hstage hdecode
    | decode => rfl
  have hlength : (vars.scheduler.memory.sequences seq).sequenceData.numComputedTokens + 1
      = (vars.scheduler.memory.sequences seq).sequenceData.length := hfits.2.2.2.1 hstage
  have hle := hchunk.2.1
  omega

theorem Counted.isPrefill_eq (h : vars.Counted enableChunking refs base limits)
    (hout : base.blocksToSwapOut = ∅) (hnext : Next enableChunking vars vars')
    (hqueue : vars.swappedQueue = group :: swappedQueue)
    : group.isPrefill vars'.scheduler.memory.sequences
        = group.isPrefill vars.scheduler.memory.sequences := by
  rcases h.exists_of_front hqueue with ⟨seq, hsingle, -⟩
  refine (hnext.move h.ok hout).isPrefill_eq ?_ hsingle
  cases hnext <;> rfl

theorem Counted.next (h : vars.Counted enableChunking refs base limits)
    (hout : base.blocksToSwapOut = ∅) (hnext : Next enableChunking vars vars')
    : vars'.Counted enableChunking refs base limits := by
  have hmove := hnext.move h.ok hout
  refine ⟨hmove.ok h.ok, hmove.unwindowed_iff.mpr h.unwindowed, ?_⟩
  have hstage := fun {group swappedQueue} (hqueue : vars.swappedQueue = group :: swappedQueue) =>
    h.isPrefill_eq hout hnext hqueue
  cases hnext with
  | ignore group swappedQueue hqueue hcan =>
    exact h.within.of_eq (hmove.simple h.within.simple) hmove.held_eq rfl rfl
  | schedule group swappedQueue numNewTokens vars'' hqueue hcan htokens hbudget hschedule =>
    have hne : numNewTokens ≠ 0 := by
      intro hzero
      simp [canSchedule, hzero] at hbudget
    rcases h.exists_of_front hqueue with ⟨seq, hsingle, -, -, hwidth⟩
    rcases schedule_eq_ok hschedule with ⟨_, _, _, scheduler, -, -, rfl⟩
    have hprefill : group.isPrefill scheduler.memory.sequences
        = group.isPrefill vars.scheduler.memory.sequences := hstage hqueue
    -- the number of tokens that is counted is the one that is scheduled
    have hchunk : (if group.isPrefill scheduler.memory.sequences then numNewTokens else 1)
        = numNewTokens := by
      split
      . rfl
      . next hdecode =>
        rw [hprefill] at hdecode
        exact (h.eq_one_of_decode hqueue htokens hne (by simpa using hdecode)).symm
    rcases held_of_swapped (config_swapped_of_queue base hqueue) with ⟨rest, hheld, hrest⟩
    rw [hwidth]
    refine h.within.schedule hheld hrest (hmove.simple h.within.simple) hmove.held_eq rfl ?_ ?_
    . simp only [config, coe_addScheduled, Multiset.add_cons, hchunk]
    . unfold canSchedule at hbudget
      rwa [if_neg hne, hwidth] at hbudget

/--
The loop over the swapped groups returns.
-/
theorem Counted.exists_run (h : vars.Counted enableChunking refs base limits)
    (hout : base.blocksToSwapOut = ∅)
    : ∃ final,
        (swappedLoop enableChunking).run vars = .ok final
          ∧ final.Counted enableChunking refs base limits := by
  refine (swappedLoop enableChunking).run_total
    (I := fun current => current.Counted enableChunking refs base limits) ?_ h
  intro current hcounted
  rcases hcounted.exists_step with ⟨result, hstep⟩
  cases result with
  | inl next => exact .inl ⟨next, hstep, hcounted.next hout (next_of_step hstep)⟩
  | inr final =>
    cases (of_step_eq_inr hstep).1
    exact .inr ⟨current, hstep, hcounted⟩

theorem Counted.prefillSeqGroups_ne_nil (h : vars.Counted enableChunking refs base limits)
    (hout : base.blocksToSwapOut = ∅) (hnext : Next enableChunking vars vars')
    : vars'.outputs.prefillSeqGroups ≠ []
        ↔ vars.outputs.prefillSeqGroups ≠ [] ∨ vars.SchedulesPrefill enableChunking := by
  have hstage := fun {group swappedQueue} (hqueue : vars.swappedQueue = group :: swappedQueue) =>
    h.isPrefill_eq hout hnext hqueue
  cases hnext with
  | ignore group swappedQueue hqueue hcan => simp [SchedulesPrefill, ignore, hqueue, hcan]
  | schedule group swappedQueue numNewTokens vars'' hqueue hcan htokens hbudget hschedule =>
    rcases schedule_eq_ok hschedule with ⟨_, _, _, scheduler, -, -, rfl⟩
    have hprefill : group.isPrefill scheduler.memory.sequences
        = group.isPrefill vars.scheduler.memory.sequences := hstage hqueue
    unfold SchedulerSwappedInOutputs.addScheduled
    rw [hprefill]
    cases hcase : group.isPrefill vars.scheduler.memory.sequences with
    | false => simp [SchedulesPrefill, hqueue, hcase]
    | true => simp [SchedulesPrefill, hqueue, hcan, htokens, hbudget, hcase]

/--
The groups in their prefill phase that are swapped in are those that the loop comes to.
-/
theorem Counted.run_prefillSeqGroups {final : SwappedVars}
    (h : vars.Counted enableChunking refs base limits) (hout : base.blocksToSwapOut = ∅)
    (hrun : (swappedLoop enableChunking).run vars = .ok final)
    : final.outputs.prefillSeqGroups ≠ []
        ↔ vars.outputs.prefillSeqGroups ≠ []
          ∨ ∃ vars',
              (swappedLoop enableChunking).Reaches vars vars'
                ∧ vars'.SchedulesPrefill enableChunking := by
  refine (swappedLoop enableChunking).run_flag_of_invariant
    (I := fun current => current.Counted enableChunking refs base limits)
    (F := fun current => current.outputs.prefillSeqGroups ≠ [])
    (G := fun current => current.outputs.prefillSeqGroups ≠ []) ?_ ?_ ?_ h hrun
  . exact fun hcounted hstep => hcounted.next hout (next_of_step hstep)
  . exact fun hcounted hstep => hcounted.prefillSeqGroups_ne_nil hout (next_of_step hstep)
  . intro current final hcounted hstep
    rw [(of_step_eq_inr hstep).1]
    have hnone : ¬ current.SchedulesPrefill enableChunking := by
      rintro ⟨group, swappedQueue, numNewTokens, hqueue, hcan, htokens, hbudget, -⟩
      rcases hcounted.exists_schedule hqueue hcan numNewTokens
        (group.getMaxNumRunningSeqs current.scheduler.memory.sequences) with ⟨next, hschedule⟩
      change step current enableChunking = _ at hstep
      unfold step at hstep
      simp only [hqueue, hcan, admitNext, htokens, hbudget, hschedule, bind, Except.bind,
        if_true] at hstep
      cases hstep
    simp [hnone]

end SwappedVars

namespace PrefillVars

variable {enableChunking : Bool} {refs : List SequenceRef} {base : Config}
variable {limits : SchedulerConfig} {extra : Multiset SequenceGroup} {vars vars' : PrefillVars}
variable {group : SequenceGroup} {waitingQueue : List SequenceGroup} {now : Nat → Nat}

/--
The loop considers a group for which there are blocks when the budget has no tokens left.
-/
def Exhausted (now : Nat → Nat) (vars : PrefillVars) : Prop :=
  ∃ group waitingQueue,
    vars.waitingQueue = group :: waitingQueue
      ∧ (vars.scheduler.passedDelay (now vars.iteration)).1 = true
      ∧ vars.scheduler.memory.blockManager.canAllocate group vars.scheduler.memory.sequences = .ok
      ∧ vars.budget.tokenBudget ≤ vars.budget.numBatchedTokens

/--
The invariant of the loop over the waiting groups that makes it go on.
-/
structure Counted (enableChunking : Bool) (refs : List SequenceRef) (base : Config)
    (limits : SchedulerConfig) (extra : Multiset SequenceGroup) (vars : PrefillVars) : Prop where
  ok : (vars.config base).OK enableChunking refs
  unwindowed : vars.scheduler.memory.Unwindowed
  within : (vars.config base).WithinBudget limits vars.budget extra

theorem Counted.exists_of_front (h : vars.Counted enableChunking refs base limits extra)
    (hqueue : vars.waitingQueue = group :: waitingQueue)
    : ∃ seq,
        group.sequences = [seq]
          ∧ seq ∈ refs
          ∧ (vars.scheduler.memory.sequences seq).sequenceStatus = .waiting
          ∧ 1 ≤ (vars.scheduler.memory.sequences seq).length
          ∧ group.getMaxNumRunningSeqs vars.scheduler.memory.sequences = group.width := by
  have hgroup : group ∈ (vars.config base).waiting := by simp [waiting_config base hqueue]
  have hheld : group ∈ (vars.config base).held := by
    simp only [held, Multiset.mem_add]
    tauto
  rcases h.within.simple.single group hheld with ⟨seq, hsingle, hlength⟩
  exact ⟨seq, hsingle, h.ok.mem_refs group hheld seq (by simp [hsingle]),
    h.ok.waiting group hgroup seq (by simp [hsingle]), hlength,
    h.ok.getMaxNumRunningSeqs_of_waiting h.within.simple hgroup⟩

variable (now) in
/--
All the tokens of a waiting group are new.
-/
theorem Counted.getNumTokens_eq_ok (h : vars.Counted enableChunking refs base limits extra)
    (hqueue : vars.waitingQueue = group :: waitingQueue) {seq : SequenceRef}
    (hsingle : group.sequences = [seq])
    : (vars.enter now).scheduler.getNumTokens group .waiting enableChunking (vars.enter now).budget
        = .ok (numTokensOf enableChunking vars.budget
            (vars.scheduler.memory.sequences seq).length) := by
  rcases h.exists_of_front hqueue with ⟨seq', hsingle', hseq, hstatus, hlength, -⟩
  cases hsingle.symm.trans hsingle'
  have hsound : vars.scheduler.memory.Sound refs := h.ok.sound
  have hnew := getNumNewTokens_of_waiting hsound hseq hstatus
  rw [← memory_enter now] at hstatus hnew hlength ⊢
  refine Scheduler.getNumTokens_eq_ok hsingle hstatus hnew hlength fun _ => ?_
  change vars.budget.numBatchedTokens ≤ vars.budget.tokenBudget
  rw [h.within.budgeted.tokenBudget_eq]
  exact h.within.numBatchedTokens_le

variable (now) in
theorem Counted.checkSequences_eq_ok (h : vars.Counted enableChunking refs base limits extra)
    (hqueue : vars.waitingQueue = group :: waitingQueue) {seq : SequenceRef}
    (hsingle : group.sequences = [seq])
    : (vars.enter now).checkSequences enableChunking group
        (numTokensOf enableChunking vars.budget (vars.scheduler.memory.sequences seq).length)
          = .ok () := by
  rcases h.exists_of_front hqueue with ⟨seq', hsingle', hseq, hstatus, -⟩
  cases hsingle.symm.trans hsingle'
  unfold checkSequences numTokensOf
  rw [memory_enter, SequenceGroup.getSeqs_eq_singleton hsingle hstatus]
  cases enableChunking with
  | true => rfl
  | false => simp

variable (now) in
theorem Counted.exists_schedule (h : vars.Counted enableChunking refs base limits extra)
    (hqueue : vars.waitingQueue = group :: waitingQueue)
    (hcan : vars.scheduler.memory.blockManager.canAllocate group vars.scheduler.memory.sequences
      = .ok)
    (numNewTokens numNewSequences : Nat)
    : ∃ vars', (vars.enter now).schedule group numNewTokens numNewSequences = .ok vars' := by
  rcases h.exists_of_front hqueue with ⟨seq, hsingle, hseq, hstatus, -⟩
  have hsound : vars.scheduler.memory.Sound refs := h.ok.sound
  have htable := (hsound.of_waiting hseq hstatus).1
  have hnone := h.unwindowed
  rw [← memory_enter now] at hsound hstatus hcan htable hnone
  rcases allocateAndSetRunning_spec (vars.enter now).scheduler hsound hsingle hnone htable hstatus
    hcan with ⟨memory, hallocate, -⟩
  unfold schedule
  rw [hallocate]
  exact ⟨_, rfl⟩

/--
The body of the loop over the waiting groups does not fail while there are tokens left.
-/
theorem Counted.exists_step (h : vars.Counted enableChunking refs base limits extra)
    (hroom : enableChunking = true → ¬ vars.Exhausted now)
    : ∃ result, vars.step enableChunking now = .ok result := by
  unfold step
  split
  . exact ⟨_, rfl⟩
  . next group waitingQueue hqueue =>
    dsimp only
    split
    . next hdelay =>
      change ∃ result, (vars.enter now).consider enableChunking group waitingQueue = .ok result
      rcases h.exists_of_front hqueue with ⟨seq, hsingle, -, -, hlength, hwidth⟩
      have htokens := h.getNumTokens_eq_ok now hqueue hsingle
      have hcheck := h.checkSequences_eq_ok now hqueue hsingle
      generalize hnumNewTokens : numTokensOf enableChunking vars.budget
        (vars.scheduler.memory.sequences seq).length = numNewTokens at htokens hcheck
      unfold consider
      simp only [htokens, hcheck, bind, Except.bind]
      split
      . exact ⟨_, rfl⟩
      . split
        . exact ⟨_, rfl⟩
        . exact ⟨_, rfl⟩
        . next hcan =>
          rw [memory_enter] at hcan
          have hne : numNewTokens ≠ 0 := by
            intro hzero
            rw [hzero] at hnumNewTokens
            unfold numTokensOf at hnumNewTokens
            split at hnumNewTokens
            . next hchunked =>
              exact hroom hchunked ⟨group, waitingQueue, hqueue, hdelay, hcan, by omega⟩
            . omega
          have hwidth' := group.one_le_width
          rcases h.exists_schedule now hqueue hcan numNewTokens group.width with ⟨vars', hschedule⟩
          have hbudget : (vars.enter now).budget.canSchedule numNewTokens group.width = .ok _ :=
            h.within.canSchedule_eq_ok (by omega) group
          unfold admitNext canSchedule
          simp only [memory_enter, hwidth, if_neg (show ¬ group.width = 0 by omega), hbudget, bind,
            Except.bind]
          split
          . rw [hschedule]
            exact ⟨_, rfl⟩
          . exact ⟨_, rfl⟩
        . next hcan => exact absurd hcan (ne_nothing_of_checkSequences hcheck)
    . exact ⟨_, rfl⟩

theorem Counted.next (h : vars.Counted enableChunking refs base limits extra)
    (hnext : Next enableChunking now vars vars')
    : vars'.Counted enableChunking refs base limits extra := by
  have hmove := hnext.move h.ok
  refine ⟨hmove.ok h.ok, hmove.unwindowed_iff.mpr h.unwindowed, ?_⟩
  cases hnext with
  | ignoreTooLong => exact h.within.of_eq (hmove.simple h.within.simple) hmove.held_eq rfl rfl
  | ignoreNever => exact h.within.of_eq (hmove.simple h.within.simple) hmove.held_eq rfl rfl
  | schedule group waitingQueue numNewTokens vars'' hqueue htokens hcheck hlimit hcan hbudget
      hschedule =>
    rcases h.exists_of_front hqueue with ⟨-, -, -, -, -, hwidth⟩
    rcases held_of_waiting (waiting_config base hqueue) with ⟨rest, hheld, hrest⟩
    rcases schedule_eq_ok hschedule with ⟨scheduler, -, rfl⟩
    rw [memory_enter, hwidth] at hbudget hmove ⊢
    refine h.within.schedule hheld hrest (hmove.simple h.within.simple) hmove.held_eq rfl ?_ ?_
    . exact add_coe_concat _ _ _
    . have hne := group.one_le_width
      unfold canSchedule at hbudget
      rw [if_neg (by omega)] at hbudget
      exact hbudget

/--
The loop over the waiting groups returns while there are tokens left.
-/
theorem Counted.exists_run (h : vars.Counted enableChunking refs base limits extra)
    (hroom : enableChunking = true →
      ∀ vars', (prefillLoop enableChunking now).Reaches vars vars' → ¬ vars'.Exhausted now)
    : ∃ final,
        (prefillLoop enableChunking now).run vars = .ok final
          ∧ final.Counted enableChunking refs base limits extra := by
  refine (prefillLoop enableChunking now).run_total
    (I := fun current => current.Counted enableChunking refs base limits extra
      ∧ (prefillLoop enableChunking now).Reaches vars current) ?_ ⟨h, .refl⟩
  rintro current ⟨hcounted, hreach⟩
  rcases hcounted.exists_step (fun hchunked => hroom hchunked current hreach) with ⟨result, hstep⟩
  cases result with
  | inl next => exact .inl ⟨next, hstep, hcounted.next (next_of_step hstep), hreach.tail hstep⟩
  | inr final =>
    refine .inr ⟨final, hstep, ?_⟩
    have hmemory : (current.enter now).scheduler.memory = current.scheduler.memory :=
      memory_enter now
    have hsame : final.scheduler.memory = current.scheduler.memory
        ∧ final.budget = current.budget
        ∧ final.config base = current.config base := by
      rcases of_step_eq_inr hstep with rfl | rfl | rfl
      . exact ⟨rfl, rfl, rfl⟩
      . refine ⟨hmemory, rfl, ?_⟩
        unfold config
        rw [hmemory]
        rfl
      . refine ⟨hmemory, rfl, ?_⟩
        unfold config
        rw [← hmemory]
        rfl
    constructor
    . rw [hsame.2.2]
      exact hcounted.ok
    . rw [hsame.1]
      exact hcounted.unwindowed
    . rw [hsame.2.1, hsame.2.2]
      exact hcounted.within

end PrefillVars

end Scheduler

end AtomaInfer
