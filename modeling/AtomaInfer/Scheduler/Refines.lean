import AtomaInfer.Scheduler.Move

/-!
The loops of the scheduler make moves, and so do its two policies.
-/

namespace AtomaInfer

namespace Memory

variable {memory : Memory} {seq : SequenceRef} {blockTable : BlockTable}

theorem Fits.getNumNewTokens_eq (h : memory.Fits seq blockTable)
    : (memory.sequences seq).getNumNewTokens
        = some ((memory.sequences seq).length
            - (memory.sequences seq).sequenceData.numComputedTokens) := by
  rcases h with ⟨hlt, -, -, hdecode, -⟩
  unfold Sequence.getNumNewTokens Sequence.length
  split
  . next hstage =>
    have := hdecode hstage
    congr 1
    omega
  . unfold SequenceData.getNumUncomputedTokens
    rw [if_pos (Nat.le_of_lt hlt)]

end Memory

namespace Scheduler

open Config

section Tokens

variable {scheduler : Scheduler} {group : SequenceGroup} {seq : SequenceRef}
variable {status : SequenceStatus} {budget : SchedulingBudget} {enableChunking : Bool}
variable {numTokens numNewTokens : Nat}

theorem getNumTokens_eq (hgroup : group.sequences = [seq])
    (hstatus : (scheduler.memory.sequences seq).sequenceStatus = status)
    (hnew : (scheduler.memory.sequences seq).getNumNewTokens = some numNewTokens)
    (hpos : 1 ≤ numNewTokens)
    : scheduler.getNumTokens group status enableChunking budget
        =
      if enableChunking then budget.remainingBudgetTokens.map (min numNewTokens)
      else .ok numNewTokens := by
  have hne : numNewTokens ≠ 0 := by omega
  unfold getNumTokens
  simp only [SequenceGroup.getSeqs_eq_singleton hgroup hstatus, List.foldlM_cons, hnew,
    List.foldlM_nil, Nat.zero_add]
  cases enableChunking with
  | false =>
    simp only [Bool.false_and, Bool.false_eq_true, if_false]
    exact if_neg hne
  | true =>
    cases hremaining : budget.remainingBudgetTokens with
    | error e =>
      simp only [Bool.true_and, List.length_singleton, decide_true, if_true]
      exact if_neg hne
    | ok remaining =>
      simp only [Bool.true_and, List.length_singleton, decide_true, if_true]
      exact if_neg hne

theorem isChunk_of_getNumTokens (hgroup : group.sequences = [seq])
    (hstatus : (scheduler.memory.sequences seq).sequenceStatus = status)
    (hnew : (scheduler.memory.sequences seq).getNumNewTokens
      = some ((scheduler.memory.sequences seq).length
          - (scheduler.memory.sequences seq).sequenceData.numComputedTokens))
    (hlt : (scheduler.memory.sequences seq).sequenceData.numComputedTokens
      < (scheduler.memory.sequences seq).length)
    (h : scheduler.getNumTokens group status enableChunking budget = .ok numTokens)
    (hne : numTokens ≠ 0) : IsChunk scheduler.memory enableChunking seq numTokens := by
  rw [getNumTokens_eq hgroup hstatus hnew (by omega)] at h
  change _ < (scheduler.memory.sequences seq).sequenceData.length at hlt
  change _ = some ((scheduler.memory.sequences seq).sequenceData.length - _) at hnew
  unfold IsChunk
  dsimp only
  cases enableChunking with
  | false =>
    simp only [Bool.false_eq_true, if_false] at h
    cases h
    change 1 ≤ (scheduler.memory.sequences seq).sequenceData.length - _
      ∧ _ + ((scheduler.memory.sequences seq).sequenceData.length - _) ≤ _
      ∧ (_ → _ + ((scheduler.memory.sequences seq).sequenceData.length - _) = _)
    omega
  | true =>
    simp only [if_true] at h
    cases hremaining : budget.remainingBudgetTokens with
    | error e =>
      rw [hremaining] at h
      cases h
    | ok remaining =>
      rw [hremaining] at h
      cases h
      change min ((scheduler.memory.sequences seq).sequenceData.length - _) _ ≠ 0 at hne
      change 1 ≤ min ((scheduler.memory.sequences seq).sequenceData.length - _) _
        ∧ _ + min ((scheduler.memory.sequences seq).sequenceData.length - _) _ ≤ _ ∧ _
      refine ⟨by omega, by omega, fun h => (nomatch h)⟩

theorem exists_getNumNewTokens (hgroup : group.sequences = [seq])
    (hstatus : (scheduler.memory.sequences seq).sequenceStatus = status)
    (h : scheduler.getNumTokens group status enableChunking budget = .ok numTokens)
    : ∃ numNewTokens,
        (scheduler.memory.sequences seq).getNumNewTokens = some numNewTokens
          ∧ 1 ≤ numNewTokens := by
  unfold getNumTokens at h
  rw [SequenceGroup.getSeqs_eq_singleton hgroup hstatus] at h
  dsimp only at h
  rcases Except.bind_eq_ok.mp h with ⟨numNewTokens, hnew, h⟩
  rw [List.foldlM_cons] at hnew
  rcases Except.bind_eq_ok.mp hnew with ⟨total, htotal, hnil⟩
  cases hnil
  split at htotal
  . next n hn =>
    cases htotal
    refine ⟨n, hn, ?_⟩
    by_contra hzero
    have hzero : 0 + n = 0 := by omega
    rw [hzero] at h
    cases h
  . cases htotal

theorem getNumNewTokens_of_waiting {memory : Memory} {refs : List SequenceRef}
    (hsound : memory.Sound refs) (hseq : seq ∈ refs)
    (hstatus : (memory.sequences seq).sequenceStatus = .waiting)
    : (memory.sequences seq).getNumNewTokens = some (memory.sequences seq).length := by
  rcases hsound.of_waiting hseq hstatus with ⟨-, hcomputed, hstage⟩
  simp [Sequence.getNumNewTokens, hstage, SequenceData.getNumUncomputedTokens, hcomputed,
    Sequence.length]

/--
A waiting group is computed from its first token.
-/
theorem isChunk_of_waiting {refs : List SequenceRef} (hsound : scheduler.memory.Sound refs)
    (hgroup : group.sequences = [seq]) (hseq : seq ∈ refs)
    (hstatus : (scheduler.memory.sequences seq).sequenceStatus = .waiting)
    (h : scheduler.getNumTokens group .waiting enableChunking budget = .ok numTokens)
    (hne : numTokens ≠ 0) : IsChunk scheduler.memory enableChunking seq numTokens := by
  have hcomputed := (hsound.of_waiting hseq hstatus).2.1
  rcases exists_getNumNewTokens hgroup hstatus h with ⟨numNewTokens, hnew, hpos⟩
  have hlength := getNumNewTokens_of_waiting hsound hseq hstatus
  rw [hlength] at hnew
  cases hnew
  apply isChunk_of_getNumTokens hgroup hstatus _ _ h hne
  . rw [hcomputed, hlength, Nat.sub_zero]
  . rw [hcomputed]
    exact hpos

/--
A running group that is not in its prefill phase has one token to compute.
-/
theorem isChunk_one {memory : Memory} {refs : List SequenceRef} (hsound : memory.Sound refs)
    (hgroup : group.sequences = [seq]) (hseq : seq ∈ refs)
    (hstatus : (memory.sequences seq).sequenceStatus = .running)
    (hprefill : group.isPrefill memory.sequences = false)
    : IsChunk memory enableChunking seq 1 := by
  rcases hsound.onDevice_of_running hseq hstatus with ⟨blockTable, -, -, -, -, -, hdecode, -⟩
  have hstage : (memory.sequences seq).sequenceData.stage = .decode := by
    simp only [SequenceGroup.isPrefill, hgroup, List.head?_cons, Sequence.isPrefill,
      decide_eq_false_iff_not] at hprefill
    cases hstage : (memory.sequences seq).sequenceData.stage with
    | prefill => exact absurd hstage hprefill
    | decode => rfl
  have hlength := hdecode hstage
  exact ⟨le_rfl, hlength.le, fun _ => hlength⟩

end Tokens

theorem add_coe_concat {α : Type} (s : Multiset α) (l : List α) (a : α)
    : s + (l ++ [a] : List α) = a ::ₘ (s + l) := by
  rw [← Multiset.coe_add, Multiset.coe_singleton, ← Multiset.singleton_add, ← add_assoc, add_comm]

theorem coe_add_singleton {α : Type} (l : List α) (a : α)
    : (l : Multiset α) + {a} = a ::ₘ (l : Multiset α) := by
  rw [add_comm, Multiset.singleton_add]

/--
The groups in `prefills` are in their prefill phase, and those in `decodes` are not.
-/
structure Staged (heap : SequenceHeap) (prefills decodes : List ScheduledSequenceGroup) : Prop where
  prefills : ∀ scheduled ∈ prefills, scheduled.scheduledGroup.isPrefill heap = true
  decodes : ∀ scheduled ∈ decodes, scheduled.scheduledGroup.isPrefill heap = false

namespace Staged

variable {heap heap' : SequenceHeap} {prefills prefills' decodes decodes' : List ScheduledSequenceGroup}

theorem nil (heap : SequenceHeap) : Staged heap [] [] := by
  constructor <;> simp

theorem append (h : Staged heap prefills decodes) (h' : Staged heap prefills' decodes')
    : Staged heap (prefills ++ prefills') (decodes ++ decodes') := by
  constructor
  . intro scheduled hscheduled
    rcases List.mem_append.mp hscheduled with hscheduled | hscheduled
    . exact h.prefills scheduled hscheduled
    . exact h'.prefills scheduled hscheduled
  . intro scheduled hscheduled
    rcases List.mem_append.mp hscheduled with hscheduled | hscheduled
    . exact h.decodes scheduled hscheduled
    . exact h'.decodes scheduled hscheduled

/--
A group that is scheduled goes to the list of its phase.
-/
theorem schedule (h : Staged heap prefills decodes) (group : SequenceGroup) (numTokens : Nat)
    : Staged heap
        (if group.isPrefill heap then prefills ++ [⟨group, numTokens⟩] else prefills)
        (if group.isPrefill heap then decodes else decodes ++ [⟨group, 1⟩]) := by
  cases hprefill : group.isPrefill heap with
  | true =>
    simp only [if_true]
    have hgroup : Staged heap [⟨group, numTokens⟩] [] := ⟨by simpa using hprefill, by simp⟩
    simpa using h.append hgroup
  | false =>
    simp only [Bool.false_eq_true, if_false]
    have hgroup : Staged heap [] [⟨group, 1⟩] := ⟨by simp, by simpa using hprefill⟩
    simpa using h.append hgroup

theorem isPrefill_congr {group : SequenceGroup}
    (h : ∀ seq ∈ group.sequences, heap' seq = heap seq)
    : group.isPrefill heap' = group.isPrefill heap := by
  unfold SequenceGroup.isPrefill
  split
  . next seq hhead => rw [h seq (List.mem_of_head? hhead)]
  . rfl

theorem of_moves {c c' : Config} {enableChunking : Bool} {refs : List SequenceRef}
    (h : Staged c.memory.sequences prefills decodes) (hmoves : Moves enableChunking c c')
    (hok : c.OK enableChunking refs)
    (hmem : ∀ scheduled ∈ prefills ++ decodes, scheduled ∈ c.scheduled)
    : Staged c'.memory.sequences prefills decodes := by
  have hsame (scheduled : ScheduledSequenceGroup) (hscheduled : scheduled ∈ prefills ++ decodes)
      : scheduled.scheduledGroup.isPrefill c'.memory.sequences
          = scheduled.scheduledGroup.isPrefill c.memory.sequences :=
    isPrefill_congr (hmoves.sequences_of_scheduled hok (hmem scheduled hscheduled)).2
  constructor
  . intro scheduled hscheduled
    rw [hsame scheduled (List.mem_append_left _ hscheduled)]
    exact h.prefills scheduled hscheduled
  . intro scheduled hscheduled
    rw [hsame scheduled (List.mem_append_right _ hscheduled)]
    exact h.decodes scheduled hscheduled

end Staged

namespace RunningVars

variable {base : Config} {vars vars' : RunningVars} {enableChunking : Bool}
variable {refs : List SequenceRef} {group : SequenceGroup} {seq : SequenceRef}

/--
The groups of the running loop, and those of `base`, which it does not touch.
-/
def config (base : Config) (vars : RunningVars) : Config :=
  {
    base with
    memory := vars.scheduler.memory
    waiting := base.waiting + vars.outputs.preempted
    running := (vars.runningQueue + (vars.current.map (·.1)).toList : Multiset SequenceGroup)
    swapped := base.swapped + vars.outputs.swappedOut
    scheduled := base.scheduled
      + (vars.outputs.decodeSeqGroups + vars.outputs.prefillSeqGroups
          : Multiset ScheduledSequenceGroup)
    recomputed := base.recomputed + vars.outputs.preempted
    blocksToSwapOut := vars.outputs.blocksToSwapOut
    blocksToCopy := vars.outputs.blocksToCopy
  }

/--
The invariant of the running loop: the tokens counted for the group at hand are still to be
computed.
-/
structure Inv (enableChunking : Bool) (refs : List SequenceRef) (base : Config)
    (vars : RunningVars) : Prop where
  ok : (vars.config base).OK enableChunking refs
  current : ∀ group numTokens seq, vars.current = some (group, numTokens)
    → group.sequences = [seq]
    → IsChunk vars.scheduler.memory enableChunking seq numTokens
  schedulesOut : vars.outputs.swappedOut = [] → vars.outputs.blocksToSwapOut = base.blocksToSwapOut
  staged : Staged vars.scheduler.memory.sequences vars.outputs.prefillSeqGroups
    vars.outputs.decodeSeqGroups

/--
A preempted group is recomputed or swapped out.
-/
theorem preempt_effect (h : vars.preempt group = .ok vars')
    (hsound : vars.scheduler.memory.Sound refs) (hgroup : group.sequences = [seq])
    (hseq : seq ∈ refs)
    (hstatus : (vars.scheduler.memory.sequences seq).sequenceStatus = .running)
    : (Memory.Recomputes seq vars.scheduler.memory vars'.scheduler.memory
        ∧ vars'.outputs = { vars.outputs with preempted := vars.outputs.preempted ++ [group] })
      ∨ (∃ numbers, Memory.Swaps .cpu .swapped numbers seq vars.scheduler.memory
            vars'.scheduler.memory
          ∧ vars'.outputs = {
              vars.outputs with
              blocksToSwapOut := numbers ∪ vars.outputs.blocksToSwapOut
              swappedOut := vars.outputs.swappedOut ++ [group] }) := by
  rcases preempt_eq_ok h with ⟨-, scheduler, hrecompute, rfl⟩ | ⟨-, blocks, scheduler, hswap, rfl⟩
  . rcases preemptByRecompute_effect vars.scheduler.countPreemption hsound hgroup hrecompute
      hstatus with ⟨memory, rfl, heffect⟩
    exact .inl ⟨heffect, rfl⟩
  . rcases swapOut_effect vars.scheduler.countPreemption hsound hgroup hseq hswap
      hstatus with ⟨numbers, memory, rfl, rfl, heffect⟩
    exact .inr ⟨numbers, heffect, rfl⟩

/--
What is left of the queue is in `after`, which otherwise is what the preemption returns.
-/
theorem preempt_move (base : Config) {after : RunningVars} (h : vars.preempt group = .ok vars')
    (hok : (vars.config base).OK enableChunking refs) (hin : base.blocksToSwapIn = ∅)
    (hmemory : after.scheduler.memory = vars'.scheduler.memory)
    (houtputs : after.outputs = vars'.outputs)
    (hrunning : (vars.config base).running = group ::ₘ (after.config base).running)
    : Move enableChunking (vars.config base) (after.config base) := by
  rcases hok.running group (by simp [hrunning]) with ⟨seq, hgroup, hstatus⟩
  have hseq : seq ∈ refs :=
    hok.mem_refs group (by simp [held, hrunning]) seq (by simp [hgroup])
  rcases preempt_effect h hok.sound hgroup hseq hstatus
    with ⟨heffect, hout⟩ | ⟨numbers, heffect, hout⟩
  . rw [← hmemory] at heffect
    rw [← houtputs] at hout
    have hafter : after.config base = {
        vars.config base with
        memory := after.scheduler.memory
        running := (after.config base).running
        waiting := group ::ₘ (vars.config base).waiting
        recomputed := group ::ₘ (vars.config base).recomputed } := by
      simp [config, hout, add_coe_concat]
    rw [hafter]
    exact .recompute group seq _ _ hrunning hgroup heffect
  . rw [← hmemory] at heffect
    rw [← houtputs] at hout
    have hafter : after.config base = {
        vars.config base with
        memory := after.scheduler.memory
        running := (after.config base).running
        swapped := group ::ₘ (vars.config base).swapped
        blocksToSwapOut := numbers ∪ (vars.config base).blocksToSwapOut } := by
      simp [config, hout, add_coe_concat]
    rw [hafter]
    exact .swapOut group seq _ numbers _ hrunning hgroup heffect hin

theorem coe_addScheduled (outputs : SchedulerRunningOutputs) (isPrefill : Bool)
    (group : SequenceGroup) (numTokens : Nat)
    : ((outputs.addScheduled isPrefill group numTokens).decodeSeqGroups
          + (outputs.addScheduled isPrefill group numTokens).prefillSeqGroups
        : Multiset ScheduledSequenceGroup)
      = ⟨group, if isPrefill then numTokens else 1⟩
          ::ₘ (outputs.decodeSeqGroups + outputs.prefillSeqGroups
            : Multiset ScheduledSequenceGroup) := by
  unfold SchedulerRunningOutputs.addScheduled
  cases isPrefill with
  | true =>
    simp only [if_true]
    rw [add_coe_concat]
  | false =>
    simp only [Bool.false_eq_true, if_false]
    rw [add_comm, add_coe_concat, add_comm]

theorem blocksToSwapOut_addScheduled (outputs : SchedulerRunningOutputs) (isPrefill : Bool)
    (group : SequenceGroup) (numTokens : Nat)
    : (outputs.addScheduled isPrefill group numTokens).blocksToSwapOut
        = outputs.blocksToSwapOut := by
  unfold SchedulerRunningOutputs.addScheduled
  cases isPrefill <;> rfl

theorem schedule_move (base : Config) {after : RunningVars} {numRunningTokens : Nat}
    (h : vars.schedule enableChunking group numRunningTokens = .ok vars')
    (hok : (vars.config base).OK enableChunking refs)
    (hmemory : after.scheduler.memory = vars'.scheduler.memory)
    (houtputs : after.outputs = vars'.outputs)
    (hrunning : (vars.config base).running = group ::ₘ (after.config base).running)
    (hchunk : ∀ seq, group.sequences = [seq] →
      IsChunk vars.scheduler.memory enableChunking seq numRunningTokens)
    : Move enableChunking (vars.config base) (after.config base) := by
  rcases hok.running group (by simp [hrunning]) with ⟨seq, hgroup, hstatus⟩
  have hseq : seq ∈ refs :=
    hok.mem_refs group (by simp [held, hrunning]) seq (by simp [hgroup])
  change (vars.scheduler.memory.sequences seq).sequenceStatus = .running at hstatus
  rcases schedule_eq_ok h with ⟨blocksToCopy, scheduler, happend, rfl⟩
  rcases appendSlots_effect vars.scheduler hok.sound hgroup hseq happend hstatus
    with ⟨memory, rfl, hcopies, heffect⟩
  have hchunk := hchunk seq hgroup
  let numTokens := if group.isPrefill memory.sequences then numRunningTokens else 1
  have hchunk' : IsChunk vars.scheduler.memory enableChunking seq numTokens := by
    cases hprefill : group.isPrefill memory.sequences with
    | true => simpa only [numTokens, hprefill, if_true] using hchunk
    | false =>
      simp only [numTokens, hprefill, Bool.false_eq_true, if_false]
      rw [heffect.sequences_eq] at hprefill
      exact isChunk_one hok.sound hgroup hseq hstatus hprefill
  have hpreempted := preempted_addScheduled vars.outputs (group.isPrefill memory.sequences) group
    numRunningTokens
  have hafter : after.config base = {
      vars.config base with
      memory
      running := (after.config base).running
      scheduled := ⟨group, numTokens⟩ ::ₘ (vars.config base).scheduled
      blocksToCopy } := by
    simp only [config, hmemory, houtputs, hpreempted, coe_addScheduled, Multiset.add_cons,
      blocksToSwapOut_addScheduled, numTokens]
  rw [hafter]
  exact .append group seq _ numTokens blocksToCopy memory hrunning hgroup hchunk' heffect hcopies

theorem Next.config (h : Next enableChunking vars vars') (hinv : vars.Inv enableChunking refs base)
    (hin : base.blocksToSwapIn = ∅)
    : vars'.config base = vars.config base
        ∨ Move enableChunking (vars.config base) (vars'.config base) := by
  cases h with
  | take group runningQueue numRunningTokens hcurrent hqueue =>
    left
    simp only [RunningVars.config, hcurrent, hqueue, Option.map_some, Option.map_none,
      Option.toList_some, Option.toList_none, Multiset.coe_nil, add_zero, Multiset.coe_singleton]
    rw [coe_add_singleton, Multiset.cons_coe]
  | preemptVictim group victim runningQueue numRunningTokens budget budget' vars'' hcurrent hcan _ _
      hqueue hpreempt =>
    right
    change Move enableChunking (RunningVars.config base { vars with budget := budget' }) _
    refine preempt_move base hpreempt hinv.ok hin rfl rfl ?_
    simp [RunningVars.config, hqueue]
  | preemptSelf group numRunningTokens budget budget' vars'' hcurrent hcan _ _ hqueue hpreempt =>
    right
    change Move enableChunking (RunningVars.config base { vars with budget := budget' }) _
    refine preempt_move base hpreempt hinv.ok hin rfl rfl ?_
    simp [RunningVars.config, hqueue, hcurrent]
  | schedule group numRunningTokens vars'' hcurrent hcan hschedule =>
    right
    refine schedule_move base hschedule hinv.ok rfl rfl ?_ ?_
    . simp only [RunningVars.config, hcurrent, Option.map_some, Option.map_none,
        Option.toList_some, Option.toList_none, Multiset.coe_nil, add_zero, Multiset.coe_singleton]
      rw [coe_add_singleton]
    . intro seq hgroup
      exact hinv.current group numRunningTokens seq hcurrent hgroup

theorem Inv.next (hinv : vars.Inv enableChunking refs base) (h : Next enableChunking vars vars')
    (hin : base.blocksToSwapIn = ∅) : vars'.Inv enableChunking refs base := by
  have hmoves : Moves enableChunking (vars.config base) (vars'.config base) := by
    rcases h.config hinv hin with heq | hmove
    . rw [heq]
      exact .refl
    . exact .single hmove
  have hstaged : Staged vars'.scheduler.memory.sequences vars.outputs.prefillSeqGroups
      vars.outputs.decodeSeqGroups := by
    refine hinv.staged.of_moves hmoves hinv.ok fun scheduled hscheduled => ?_
    simp only [RunningVars.config, Multiset.mem_add, Multiset.mem_coe]
    rcases List.mem_append.mp hscheduled with hscheduled | hscheduled
    . exact .inr (.inr hscheduled)
    . exact .inr (.inl hscheduled)
  refine ⟨hmoves.ok hinv.ok, ?_, ?_, ?_⟩
  . cases h with
    | take group runningQueue numRunningTokens hcurrent hqueue htokens hpos =>
      intro group' numTokens seq hsome hgroup
      cases hsome
      have hmem : group ∈ (vars.config base).running := by simp [RunningVars.config, hqueue]
      rcases hinv.ok.running group hmem with ⟨_, hsingle, hstatus⟩
      cases hgroup.symm.trans hsingle
      have hseq := hinv.ok.mem_refs group (by simp [held, hmem]) seq (by simp [hgroup])
      rcases hinv.ok.sound.onDevice_of_running hseq hstatus with ⟨blockTable, -, -, hfits⟩
      exact isChunk_of_getNumTokens hgroup hstatus hfits.getNumNewTokens_eq hfits.1 htokens hpos
    | preemptVictim group victim runningQueue numRunningTokens budget budget' vars'' hcurrent hcan
        _ _ hqueue hpreempt =>
      intro group' numTokens seq hsome hgroup
      change vars.current = some (group', numTokens) at hsome
      have hvictim : victim ∈ (vars.config base).running := by simp [RunningVars.config, hqueue]
      rcases hinv.ok.running victim hvictim with ⟨seq', hsingle, hstatus⟩
      have hseq' := hinv.ok.mem_refs victim (by simp [held, hvictim]) seq' (by simp [hsingle])
      have hrunning : (vars.config base).running = victim ::ₘ
          (runningQueue + ((vars.current.map (·.1)).toList : Multiset SequenceGroup)) := by
        simp [RunningVars.config, hqueue]
      have hne : seq ≠ seq' :=
        hinv.ok.ne_of_running hrunning (by simp [hsome]) hsingle hgroup
      have heffect := preempt_effect hpreempt hinv.ok.sound hsingle hseq' hstatus
      apply (hinv.current group' numTokens seq hsome hgroup).of_eq
      rcases heffect with ⟨heffect, -⟩ | ⟨numbers, heffect, -⟩
      . exact congrArg _ (heffect.sequences_of_ne seq hne)
      . exact congrArg _ (heffect.sequences_of_ne seq hne)
    | preemptSelf => exact fun _ _ _ hsome => by cases hsome
    | schedule => exact fun _ _ _ hsome => by cases hsome
  . cases h with
    | take => exact hinv.schedulesOut
    | preemptVictim _ _ _ _ _ _ _ _ _ _ _ _ hpreempt =>
      rcases preempt_eq_ok hpreempt with ⟨-, _, -, rfl⟩ | ⟨-, _, _, -, rfl⟩
      . exact hinv.schedulesOut
      . simp
    | preemptSelf _ _ _ _ _ _ _ _ _ _ hpreempt =>
      rcases preempt_eq_ok hpreempt with ⟨-, _, -, rfl⟩ | ⟨-, _, _, -, rfl⟩
      . exact hinv.schedulesOut
      . simp
    | schedule group numRunningTokens vars'' hcurrent hcan hschedule =>
      rcases schedule_eq_ok hschedule with ⟨blocksToCopy, scheduler, -, rfl⟩
      dsimp only
      rw [blocksToSwapOut_addScheduled, (preempted_addScheduled _ _ _ _).2]
      exact hinv.schedulesOut
  . cases h with
    | take => exact hstaged
    | preemptVictim _ _ _ _ _ _ _ _ _ _ _ _ hpreempt =>
      rcases preempt_eq_ok hpreempt with ⟨-, _, -, rfl⟩ | ⟨-, _, _, -, rfl⟩ <;> exact hstaged
    | preemptSelf _ _ _ _ _ _ _ _ _ _ hpreempt =>
      rcases preempt_eq_ok hpreempt with ⟨-, _, -, rfl⟩ | ⟨-, _, _, -, rfl⟩ <;> exact hstaged
    | schedule group numRunningTokens vars'' hcurrent hcan hschedule =>
      rcases schedule_eq_ok hschedule with ⟨blocksToCopy, scheduler, -, rfl⟩
      have := hstaged.schedule group numRunningTokens
      unfold SchedulerRunningOutputs.addScheduled
      dsimp only at this ⊢
      split at this
      . next hprefill => rwa [if_pos hprefill]
      . next hprefill => rwa [if_neg hprefill]

end RunningVars

/--
`schedule_running` makes moves, up to each of its iterations.
-/
theorem RunningVars.moves_of_reaches {scheduler : Scheduler} {runningQueue : List SequenceGroup}
    {budget : SchedulingBudget} {enableChunking : Bool} {now : Nat} {vars : RunningVars}
    {c : Config} {refs : List SequenceRef}
    (h : (runningLoop enableChunking).Reaches (start scheduler runningQueue budget now) vars)
    (hok : c.OK enableChunking refs) (hmemory : c.memory = scheduler.memory)
    (hrunning : c.running = runningQueue) (hin : c.blocksToSwapIn = ∅)
    (hout : c.blocksToSwapOut = ∅) (hcopy : c.blocksToCopy = ∅)
    : Moves enableChunking c (vars.config c) ∧ vars.Inv enableChunking refs c := by
  have hstart : (start scheduler runningQueue budget now).config c = c := by
    have hsort : (FcfsPolicy.sortByPriority now runningQueue : Multiset SequenceGroup)
        = runningQueue := Multiset.coe_eq_coe.mpr (FcfsPolicy.sortByPriority_perm now runningQueue)
    cases c
    subst hmemory hrunning hin hout hcopy
    simp [start, config, SchedulerRunningOutputs.createEmpty, hsort]
  refine (runningLoop enableChunking).invariant_of_reaches
    (I := fun vars => Moves enableChunking c (vars.config c) ∧ vars.Inv enableChunking refs c)
    ?_ h ?_
  . rintro vars vars' ⟨hmoves, hinv⟩ hstep
    have hnext := next_of_step hstep
    refine ⟨?_, hinv.next hnext hin⟩
    rcases hnext.config hinv hin with heq | hmove
    . rwa [heq]
    . exact hmoves.tail hmove
  . refine ⟨?_, by rwa [hstart], fun _ _ _ hsome => (by cases hsome), fun _ => hout.symm, .nil _⟩
    rw [hstart]
    exact .refl

theorem scheduleRunning_moves {scheduler : Scheduler} {runningQueue : List SequenceGroup}
    {budget : SchedulingBudget} {enableChunking : Bool} {now : Nat} {vars : RunningVars}
    {c : Config} {refs : List SequenceRef}
    (h : scheduler.scheduleRunning runningQueue budget enableChunking now = .ok vars)
    (hok : c.OK enableChunking refs) (hmemory : c.memory = scheduler.memory)
    (hrunning : c.running = runningQueue) (hin : c.blocksToSwapIn = ∅)
    (hout : c.blocksToSwapOut = ∅) (hcopy : c.blocksToCopy = ∅)
    : Moves enableChunking c (vars.config c)
        ∧ vars.Inv enableChunking refs c
        ∧ vars.current = none := by
  rcases (runningLoop enableChunking).exists_last_of_run_eq_ok h with ⟨last, hreach, hlast⟩
  rcases RunningVars.of_step_eq_inr hlast with ⟨rfl, hcurrent, -⟩
  rcases RunningVars.moves_of_reaches hreach hok hmemory hrunning hin hout hcopy with ⟨hmoves, hinv⟩
  exact ⟨hmoves, hinv, hcurrent⟩

theorem ignores_setStatusWhere {memory : Memory} {refs : List SequenceRef} {group : SequenceGroup}
    {seq : SequenceRef} {p : SequenceRef → Bool} (hsound : memory.Sound refs)
    (hgroup : group.sequences = [seq]) (hp : p seq = true)
    : Memory.Ignores seq memory
        { memory with sequences := group.setStatusWhere memory.sequences p .finishedIgnored } := by
  have hself : group.setStatusWhere memory.sequences p .finishedIgnored seq
      = (memory.sequences seq).setSequenceStatus .finishedIgnored := by
    simp [SequenceGroup.setStatusWhere_apply, hgroup, hp]
  refine ⟨⟨.refl _, hsound.accounted, ?_, ?_, fun _ _ => rfl, ?_⟩, hself, rfl⟩
  . intro other hne
    simp [SequenceGroup.setStatusWhere_apply, hgroup, hne]
  . dsimp only
    rw [hself]
    exact Sequence.KeepsTokens.setSequenceStatus _ _
  . intro _ blockTable hsome block hblock
    change memory.table seq = some blockTable at hsome
    rw [hsome]
    exact .inl hblock

namespace SwappedVars

variable {base : Config} {vars vars' : SwappedVars} {enableChunking : Bool}
variable {refs : List SequenceRef}

def config (base : Config) (vars : SwappedVars) : Config :=
  {
    base with
    memory := vars.scheduler.memory
    swapped := vars.swappedQueue
    scheduled := base.scheduled
      + (vars.outputs.decodeSeqGroups + vars.outputs.prefillSeqGroups
          : Multiset ScheduledSequenceGroup)
    infeasible := base.infeasible + vars.outputs.infeasibleSeqGroups
    blocksToSwapIn := vars.outputs.blocksToSwapIn
    blocksToCopy := vars.outputs.blocksToCopy ∪ base.blocksToCopy
  }

theorem coe_addScheduled (outputs : SchedulerSwappedInOutputs) (isPrefill : Bool)
    (group : SequenceGroup) (numTokens : Nat)
    : ((outputs.addScheduled isPrefill group numTokens).decodeSeqGroups
          + (outputs.addScheduled isPrefill group numTokens).prefillSeqGroups
        : Multiset ScheduledSequenceGroup)
      = ⟨group, if isPrefill then numTokens else 1⟩
          ::ₘ (outputs.decodeSeqGroups + outputs.prefillSeqGroups
            : Multiset ScheduledSequenceGroup) := by
  unfold SchedulerSwappedInOutputs.addScheduled
  cases isPrefill with
  | true =>
    simp only [if_true]
    rw [add_coe_concat]
  | false =>
    simp only [Bool.false_eq_true, if_false]
    rw [add_comm, add_coe_concat, add_comm]

theorem infeasibleSeqGroups_addScheduled (outputs : SchedulerSwappedInOutputs) (isPrefill : Bool)
    (group : SequenceGroup) (numTokens : Nat)
    : (outputs.addScheduled isPrefill group numTokens).infeasibleSeqGroups
        = outputs.infeasibleSeqGroups := by
  unfold SchedulerSwappedInOutputs.addScheduled
  cases isPrefill <;> rfl

theorem Next.move (h : Next enableChunking vars vars')
    (hok : (vars.config base).OK enableChunking refs) (hout : base.blocksToSwapOut = ∅)
    : Move enableChunking (vars.config base) (vars'.config base) := by
  cases h with
  | ignore group swappedQueue hqueue hcan =>
    have hswapped : (vars.config base).swapped = group ::ₘ swappedQueue := by
      simp [SwappedVars.config, hqueue]
    rcases hok.swapped group (by simp [hswapped]) with ⟨seq, hgroup, hstatus⟩
    have hafter : config base { vars.ignore group with swappedQueue } = {
        vars.config base with
        memory := (vars.ignore group).scheduler.memory
        swapped := swappedQueue
        infeasible := group ::ₘ (vars.config base).infeasible } := by
      simp [SwappedVars.config, SwappedVars.ignore, add_coe_concat]
    rw [hafter]
    exact .reject group seq _ _ hswapped hgroup (ignores_setStatusWhere hok.sound hgroup rfl) hout
  | schedule group swappedQueue numNewTokens vars'' hqueue hcan htokens hbudget hschedule =>
    have hswapped : (vars.config base).swapped = group ::ₘ swappedQueue := by
      simp [SwappedVars.config, hqueue]
    rcases hok.swapped group (by simp [hswapped]) with ⟨seq, hgroup, hstatus⟩
    have hseq : seq ∈ refs :=
      hok.mem_refs group (by simp [held, hswapped]) seq (by simp [hgroup])
    change (vars.scheduler.memory.sequences seq).sequenceStatus = .swapped at hstatus
    have hsound : vars.scheduler.memory.Sound refs := hok.sound
    rcases hsound.onDevice_of_swapped hseq hstatus with ⟨blockTable, -, -, hfits⟩
    have hne : numNewTokens ≠ 0 := by
      intro hzero
      simp [canSchedule, hzero] at hbudget
    have hchunk := isChunk_of_getNumTokens hgroup hstatus hfits.getNumNewTokens_eq hfits.1 htokens hne
    rcases schedule_eq_ok hschedule
      with ⟨blocksToSwapIn, blocksToCopy, between, scheduler, hswap, happend, rfl⟩
    rcases swapIn_effect vars.scheduler hsound hgroup hseq hswap hstatus hcan
      with ⟨numbers, memory, rfl, rfl, hswaps⟩
    have hsound' := hswaps.sound_in hsound hseq rfl hstatus
    have hstatus' : (memory.sequences seq).sequenceStatus = .running := by
      rw [hswaps.sequence_eq]
      rfl
    rcases appendSlots_effect { vars.scheduler with memory } hsound' hgroup hseq happend hstatus'
      with ⟨memory', rfl, hcopies, heffect⟩
    have hcopies' : vars.scheduler.memory.Unwindowed →
        blocksToCopy ∪ base.blocksToCopy = vars.outputs.blocksToCopy ∪ base.blocksToCopy := by
      intro hnone
      rw [hcopies (hswaps.unwindowed_iff.mpr hnone)]
    let numTokens := if group.isPrefill memory'.sequences then numNewTokens else 1
    have hchunk' : IsChunk vars.scheduler.memory enableChunking seq numTokens := by
      cases hprefill : group.isPrefill memory'.sequences with
      | true => simpa only [numTokens, hprefill, if_true] using hchunk
      | false =>
        simp only [numTokens, hprefill, Bool.false_eq_true, if_false]
        rw [heffect.sequences_eq] at hprefill
        apply (isChunk_one hsound' hgroup hseq hstatus' hprefill).of_eq
        rw [hswaps.sequence_eq]
        rfl
    have hafter : SwappedVars.config base { vars with
        scheduler := { vars.scheduler with memory := memory' }
        budget := (vars.budget.addNumBatchedTokens group.requestId numNewTokens).addNumberSequences
          group.requestId (group.getMaxNumRunningSeqs vars.scheduler.memory.sequences)
        outputs := {
          vars.outputs.addScheduled (group.isPrefill memory'.sequences) group numNewTokens with
          blocksToSwapIn := numbers ∪ vars.outputs.blocksToSwapIn
          blocksToCopy }
        swappedQueue } = {
          vars.config base with
          memory := memory'
          swapped := swappedQueue
          scheduled := ⟨group, numTokens⟩ ::ₘ (vars.config base).scheduled
          blocksToSwapIn := numbers ∪ (vars.config base).blocksToSwapIn
          blocksToCopy := blocksToCopy ∪ base.blocksToCopy } := by
      simp only [SwappedVars.config, coe_addScheduled, infeasibleSeqGroups_addScheduled,
        Multiset.add_cons, numTokens]
    change Move enableChunking (vars.config base) (SwappedVars.config base { vars with
        scheduler := _, budget := _, outputs := _, swappedQueue })
    rw [hafter]
    exact .swapIn group seq _ numTokens numbers _ memory memory' hswapped hgroup hchunk' hswaps
      heffect hcopies' hout

theorem Next.staged (h : Next enableChunking vars vars')
    (hok : (vars.config base).OK enableChunking refs) (hout : base.blocksToSwapOut = ∅)
    (hstaged : Staged vars.scheduler.memory.sequences vars.outputs.prefillSeqGroups
      vars.outputs.decodeSeqGroups)
    : Staged vars'.scheduler.memory.sequences vars'.outputs.prefillSeqGroups
        vars'.outputs.decodeSeqGroups := by
  have hstaged : Staged vars'.scheduler.memory.sequences vars.outputs.prefillSeqGroups
      vars.outputs.decodeSeqGroups := by
    refine hstaged.of_moves (.single (h.move hok hout)) hok fun scheduled hscheduled => ?_
    simp only [SwappedVars.config, Multiset.mem_add, Multiset.mem_coe]
    rcases List.mem_append.mp hscheduled with hscheduled | hscheduled
    . exact .inr (.inr hscheduled)
    . exact .inr (.inl hscheduled)
  cases h with
  | ignore => exact hstaged
  | schedule group swappedQueue numNewTokens vars'' hqueue hcan htokens hbudget hschedule =>
    rcases schedule_eq_ok hschedule with ⟨_, _, _, scheduler, -, -, rfl⟩
    have := hstaged.schedule group numNewTokens
    unfold SchedulerSwappedInOutputs.addScheduled
    dsimp only at this ⊢
    split at this
    . next hprefill => rwa [if_pos hprefill]
    . next hprefill => rwa [if_neg hprefill]

end SwappedVars

/--
`schedule_swapped` makes moves, up to each of its iterations.
-/
theorem SwappedVars.moves_of_reaches {scheduler : Scheduler} {swappedQueue : List SequenceGroup}
    {budget : SchedulingBudget} {enableChunking : Bool} {now : Nat} {vars : SwappedVars}
    {c : Config} {refs : List SequenceRef}
    (h : (swappedLoop enableChunking).Reaches (start scheduler swappedQueue budget now) vars)
    (hok : c.OK enableChunking refs) (hmemory : c.memory = scheduler.memory)
    (hswapped : c.swapped = swappedQueue) (hin : c.blocksToSwapIn = ∅)
    (hout : c.blocksToSwapOut = ∅)
    : Moves enableChunking c (vars.config c)
        ∧ Staged vars.scheduler.memory.sequences vars.outputs.prefillSeqGroups
            vars.outputs.decodeSeqGroups := by
  have hstart : (start scheduler swappedQueue budget now).config c = c := by
    have hsort : (FcfsPolicy.sortByPriority now swappedQueue : Multiset SequenceGroup)
        = swappedQueue := Multiset.coe_eq_coe.mpr (FcfsPolicy.sortByPriority_perm now swappedQueue)
    cases c
    subst hmemory hswapped hin hout
    simp [start, config, SchedulerSwappedInOutputs.createEmpty, hsort]
  refine (swappedLoop enableChunking).invariant_of_reaches
    (I := fun vars => Moves enableChunking c (vars.config c)
      ∧ Staged vars.scheduler.memory.sequences vars.outputs.prefillSeqGroups
          vars.outputs.decodeSeqGroups) ?_ h ?_
  . rintro vars vars' ⟨hmoves, hstaged⟩ hstep
    have hnext := next_of_step hstep
    exact ⟨hmoves.tail (hnext.move (hmoves.ok hok) hout),
      hnext.staged (hmoves.ok hok) hout hstaged⟩
  . refine ⟨?_, .nil _⟩
    rw [hstart]
    exact .refl

theorem scheduleSwapped_moves {scheduler : Scheduler} {swappedQueue : List SequenceGroup}
    {budget : SchedulingBudget} {enableChunking : Bool} {now : Nat} {vars : SwappedVars}
    {c : Config} {refs : List SequenceRef}
    (h : scheduler.scheduleSwapped swappedQueue budget enableChunking now = .ok vars)
    (hok : c.OK enableChunking refs) (hmemory : c.memory = scheduler.memory)
    (hswapped : c.swapped = swappedQueue) (hin : c.blocksToSwapIn = ∅)
    (hout : c.blocksToSwapOut = ∅)
    : Moves enableChunking c (vars.config c)
        ∧ Staged vars.scheduler.memory.sequences vars.outputs.prefillSeqGroups
            vars.outputs.decodeSeqGroups := by
  rcases (swappedLoop enableChunking).exists_last_of_run_eq_ok h with ⟨last, hreach, hlast⟩
  rw [(SwappedVars.of_step_eq_inr hlast).1]
  exact SwappedVars.moves_of_reaches hreach hok hmemory hswapped hin hout

namespace PrefillVars

variable {base : Config} {vars vars' : PrefillVars} {enableChunking : Bool} {now : Nat → Nat}
variable {refs : List SequenceRef} {group : SequenceGroup}

/--
The groups of the loop over the waiting queue. Those that wait in `base` are not in its queue.
-/
def config (base : Config) (vars : PrefillVars) : Config :=
  {
    base with
    memory := vars.scheduler.memory
    waiting := base.waiting + vars.waitingQueue
    scheduled := base.scheduled + vars.outputs.sequenceGroups
    ignored := base.ignored + vars.outputs.ignoredSequenceGroups
  }

theorem exists_eq_singleton_of_checkSequences {numNewTokens : Nat}
    (h : vars.checkSequences enableChunking group numNewTokens = .ok ())
    (hwaiting : IsWaiting vars.scheduler.memory group) : ∃ seq, group.sequences = [seq] := by
  have hall : group.getSeqs vars.scheduler.memory.sequences .waiting = group.sequences := by
    unfold SequenceGroup.getSeqs
    rw [List.filter_eq_self]
    intro seq hseq
    simpa using hwaiting seq hseq
  unfold checkSequences at h
  rw [hall] at h
  split at h
  . next seq hseq => exact ⟨seq, hseq⟩
  . cases h

section Front

variable {waitingQueue : List SequenceGroup} {numNewTokens : Nat} {seq : SequenceRef}

theorem waiting_config (base : Config) (hqueue : vars.waitingQueue = group :: waitingQueue)
    : (vars.config base).waiting
        = group ::ₘ (base.waiting + waitingQueue : Multiset SequenceGroup) := by
  simp only [PrefillVars.config, hqueue]
  rw [← Multiset.cons_coe, Multiset.add_cons]

/--
The group that the loop considers has a single sequence, which waits.
-/
theorem exists_of_front (hok : (vars.config base).OK enableChunking refs)
    (hqueue : vars.waitingQueue = group :: waitingQueue)
    (hcheck : (vars.enter now).checkSequences enableChunking group numNewTokens = .ok ())
    : ∃ seq,
        group.sequences = [seq]
          ∧ seq ∈ refs
          ∧ (vars.scheduler.memory.sequences seq).sequenceStatus = .waiting := by
  have hmem : group ∈ (vars.config base).waiting := by simp [waiting_config base hqueue]
  have hwaiting := hok.waiting group hmem
  rcases exists_eq_singleton_of_checkSequences hcheck (by rw [memory_enter]; exact hwaiting)
    with ⟨seq, hgroup⟩
  exact ⟨seq, hgroup, hok.mem_refs group (by simp [held, hmem]) seq (by simp [hgroup]),
    hwaiting seq (by simp [hgroup])⟩

theorem ignore_move {p : SequenceRef → Bool} (hok : (vars.config base).OK enableChunking refs)
    (hqueue : vars.waitingQueue = group :: waitingQueue) (hgroup : group.sequences = [seq])
    (hp : p seq = true)
    : Move enableChunking (vars.config base)
        (config base { (vars.enter now).ignore group p with waitingQueue }) := by
  have hafter : config base { (vars.enter now).ignore group p with waitingQueue } = {
      vars.config base with
      memory := {
        vars.scheduler.memory with
        sequences := group.setStatusWhere vars.scheduler.memory.sequences p .finishedIgnored }
      waiting := base.waiting + waitingQueue
      ignored := group ::ₘ (vars.config base).ignored } := by
    simp only [config, ignore, memory_enter]
    simp only [enter, add_coe_concat]
  rw [hafter]
  exact .ignore group seq _ _ (waiting_config base hqueue) hgroup
    (ignores_setStatusWhere hok.sound hgroup hp)

end Front

theorem Next.move (h : Next enableChunking now vars vars')
    (hok : (vars.config base).OK enableChunking refs)
    : Move enableChunking (vars.config base) (vars'.config base) := by
  cases h with
  | ignoreTooLong group waitingQueue numNewTokens hqueue htokens hcheck =>
    rcases exists_of_front hok hqueue hcheck with ⟨seq, hgroup, -, -⟩
    exact ignore_move hok hqueue hgroup rfl
  | ignoreNever group waitingQueue numNewTokens hqueue htokens hcheck =>
    rcases exists_of_front hok hqueue hcheck with ⟨seq, hgroup, -, hstatus⟩
    exact ignore_move hok hqueue hgroup (by simpa using hstatus)
  | schedule group waitingQueue numNewTokens vars'' hqueue htokens hcheck hlimit hcan hbudget
      hschedule =>
    rcases exists_of_front hok hqueue hcheck with ⟨seq, hgroup, hseq, hstatus⟩
    have hsound : vars.scheduler.memory.Sound refs := hok.sound
    rw [← memory_enter now] at hsound hstatus
    have hne : numNewTokens ≠ 0 := by
      intro hzero
      simp only [canSchedule, SchedulingBudget.canSchedule, hzero, or_true, if_true] at hbudget
      split at hbudget <;> cases hbudget
    have hchunk := isChunk_of_waiting hsound hgroup hseq hstatus htokens hne
    rcases schedule_eq_ok hschedule with ⟨scheduler, hallocate, rfl⟩
    rcases allocateAndSetRunning_effect (vars.enter now).scheduler hsound hgroup hallocate
      (hsound.of_waiting hseq hstatus).1 hstatus hcan with ⟨memory, rfl, heffect⟩
    rw [memory_enter] at hchunk heffect
    have hafter : (vars.config base).scheduled = base.scheduled + vars.outputs.sequenceGroups := rfl
    have hmove : Move enableChunking (vars.config base) _ :=
      .admitNext group seq _ numNewTokens memory (waiting_config base hqueue) hgroup hchunk heffect
    rw [hafter, ← add_coe_concat] at hmove
    exact hmove

theorem Next.staged (h : Next enableChunking now vars vars')
    (hok : (vars.config base).OK enableChunking refs)
    (hstaged : Staged vars.scheduler.memory.sequences vars.outputs.sequenceGroups [])
    : Staged vars'.scheduler.memory.sequences vars'.outputs.sequenceGroups [] := by
  have hmove := h.move hok
  have hstaged : Staged vars'.scheduler.memory.sequences vars.outputs.sequenceGroups [] := by
    refine hstaged.of_moves (.single hmove) hok fun scheduled hscheduled => ?_
    simp only [PrefillVars.config, Multiset.mem_add, Multiset.mem_coe]
    exact .inr (by simpa using hscheduled)
  cases h with
  | ignoreTooLong => exact hstaged
  | ignoreNever => exact hstaged
  | schedule group waitingQueue numNewTokens vars'' hqueue htokens hcheck hlimit hcan hbudget
      hschedule =>
    rcases exists_of_front hok hqueue hcheck with ⟨seq, hgroup, hseq, hstatus⟩
    have hstage := (hok.sound.of_waiting hseq hstatus).2.2
    have hdata := hmove.sequenceData_eq_of_recomputed rfl seq
    rcases schedule_eq_ok hschedule with ⟨scheduler, -, rfl⟩
    have hprefill : group.isPrefill scheduler.memory.sequences = true := by
      have hdata : (scheduler.memory.sequences seq).sequenceData
          = (vars.scheduler.memory.sequences seq).sequenceData := hdata
      have hstage : (vars.scheduler.memory.sequences seq).sequenceData.stage = .prefill := hstage
      simp [SequenceGroup.isPrefill, hgroup, Sequence.isPrefill, hdata, hstage]
    have hnew : Staged scheduler.memory.sequences [⟨group, numNewTokens⟩] [] :=
      ⟨by simpa using hprefill, by simp⟩
    exact hstaged.append hnew

end PrefillVars

theorem schedulePrefills_moves {scheduler : Scheduler} {waitingQueue : List SequenceGroup}
    {budget : SchedulingBudget} {enableChunking : Bool} {now : Nat → Nat} {vars : PrefillVars}
    {c : Config} {refs : List SequenceRef} {deferred : Multiset SequenceGroup}
    (h : scheduler.schedulePrefills waitingQueue budget enableChunking now = .ok vars)
    (hok : c.OK enableChunking refs) (hmemory : c.memory = scheduler.memory)
    (hwaiting : c.waiting = deferred + waitingQueue)
    : Moves enableChunking c (vars.config { c with waiting := deferred })
        ∧ Staged vars.scheduler.memory.sequences vars.outputs.sequenceGroups [] := by
  let base : Config := { c with waiting := deferred }
  let start := PrefillVars.start scheduler waitingQueue budget
  have hstart : start.config base = c := by
    cases c
    subst hmemory hwaiting
    simp [start, base, PrefillVars.start, PrefillVars.config, SchedulerPrefillOutputs.createEmpty]
  simp only [schedulePrefills, Except.bind_eq_ok] at h
  rcases h with ⟨last, hrun, h⟩
  let I (vars : PrefillVars) : Prop :=
    Moves enableChunking c (vars.config base)
      ∧ Staged vars.scheduler.memory.sequences vars.outputs.sequenceGroups []
  have hlast : I last := by
    refine (prefillLoop enableChunking now).run_invariant (I := I) (Q := I) ?_ ?_ ?_ hrun
    . rintro vars vars' ⟨hmoves, hstaged⟩ hstep
      have hnext := PrefillVars.next_of_step hstep
      exact ⟨hmoves.tail (hnext.move (hmoves.ok hok)), hnext.staged (hmoves.ok hok) hstaged⟩
    . rintro vars vars' ⟨hmoves, hstaged⟩ hstep
      have hsame : vars'.scheduler.memory = vars.scheduler.memory
          ∧ vars'.outputs = vars.outputs
          ∧ vars'.waitingQueue = vars.waitingQueue := by
        have hmemory : (vars.enter now).scheduler.memory = vars.scheduler.memory :=
          PrefillVars.memory_enter now
        rcases PrefillVars.of_step_eq_inr hstep with rfl | rfl | rfl
        . exact ⟨rfl, rfl, rfl⟩
        . exact ⟨hmemory, rfl, rfl⟩
        . exact ⟨hmemory, rfl, rfl⟩
      simp only [I, PrefillVars.config, hsame]
      exact ⟨hmoves, hstaged⟩
    . refine ⟨?_, .nil _⟩
      change Moves enableChunking c (start.config base)
      rw [hstart]
      exact .refl
  split at h <;> cases h <;> exact hlast

/--
Between two passes no group is scheduled and no transfer is asked for.
-/
def config (scheduler : Scheduler) : Config where
  memory := scheduler.memory
  waiting := scheduler.waiting
  running := scheduler.running
  swapped := scheduler.swapped
  scheduled := 0
  ignored := 0
  infeasible := 0
  recomputed := 0
  blocksToSwapIn := ∅
  blocksToSwapOut := ∅
  blocksToCopy := ∅

namespace PolicyVars

variable {vars vars' : PolicyVars} {enableChunking : Bool} {instants : Instants}
variable {refs : List SequenceRef}

def config (vars : PolicyVars) : Config where
  memory := vars.scheduler.memory
  waiting := vars.runningScheduled.preempted + vars.remainingWaiting
  running := vars.remainingRunning
  swapped := vars.remainingSwapped + vars.runningScheduled.swappedOut
  scheduled := vars.prefills.sequenceGroups
    + (vars.runningScheduled.decodeSeqGroups + vars.runningScheduled.prefillSeqGroups
        : Multiset ScheduledSequenceGroup)
    + (vars.swappedIn.decodeSeqGroups + vars.swappedIn.prefillSeqGroups
        : Multiset ScheduledSequenceGroup)
  ignored := vars.prefills.ignoredSequenceGroups
  infeasible := vars.swappedIn.infeasibleSeqGroups
  recomputed := vars.runningScheduled.preempted
  blocksToSwapIn := vars.swappedIn.blocksToSwapIn
  blocksToSwapOut := vars.runningScheduled.blocksToSwapOut
  blocksToCopy := vars.swappedIn.blocksToCopy ∪ vars.runningScheduled.blocksToCopy

theorem config_start (scheduler : Scheduler) (budget : SchedulingBudget)
    : (PolicyVars.start scheduler budget).config = scheduler.config := by
  simp [config, Scheduler.config, PolicyVars.start, SchedulerPrefillOutputs.createEmpty,
    SchedulerRunningOutputs.createEmpty, SchedulerSwappedInOutputs.createEmpty]

/--
The variables of a policy after its call of `schedule_prefills`.
-/
def afterPrefills (vars : PolicyVars) (prefills : PrefillVars) : PolicyVars :=
  {
    vars with
    scheduler := prefills.scheduler
    budget := prefills.budget
    remainingWaiting := prefills.waitingQueue
    prefills := prefills.outputs
  }

/--
The variables of a policy after its call of `schedule_running`.
-/
def afterRunning (vars : PolicyVars) (running : RunningVars) : PolicyVars :=
  {
    vars with
    scheduler := running.scheduler
    budget := running.budget
    remainingRunning := running.runningQueue
    runningScheduled := running.outputs
  }

/--
The variables of a policy after its call of `schedule_swapped`.
-/
def afterSwapped (vars : PolicyVars) (swapped : SwappedVars) : PolicyVars :=
  {
    vars with
    scheduler := swapped.scheduler
    budget := swapped.budget
    remainingSwapped := swapped.swappedQueue
    swappedIn := swapped.outputs
  }

theorem config_afterPrefills (prefills : PrefillVars)
    (hprefills : vars.prefills = SchedulerPrefillOutputs.createEmpty)
    : (vars.afterPrefills prefills).config
        = prefills.config { vars.config with waiting := vars.runningScheduled.preempted } := by
  simp only [afterPrefills, config, PrefillVars.config, hprefills,
    SchedulerPrefillOutputs.createEmpty, Multiset.coe_nil, zero_add]
  congr 1
  abel

theorem config_afterRunning {running : RunningVars}
    (hrunning : vars.runningScheduled = SchedulerRunningOutputs.createEmpty)
    (hswapped : vars.swappedIn = SchedulerSwappedInOutputs.createEmpty)
    (hcurrent : running.current = none)
    : (vars.afterRunning running).config = running.config vars.config := by
  simp only [afterRunning, config, RunningVars.config, hrunning, hswapped, hcurrent,
    SchedulerRunningOutputs.createEmpty, SchedulerSwappedInOutputs.createEmpty, Option.map_none,
    Option.toList_none, Multiset.coe_nil, zero_add, add_zero, AList.empty_union]
  congr 1
  abel

theorem config_afterSwapped (swapped : SwappedVars)
    (hswappedOut : vars.runningScheduled.swappedOut = [])
    (hswapped : vars.swappedIn = SchedulerSwappedInOutputs.createEmpty)
    : (vars.afterSwapped swapped).config = swapped.config vars.config := by
  simp only [afterSwapped, config, SwappedVars.config, hswapped, hswappedOut,
    SchedulerSwappedInOutputs.createEmpty, Multiset.coe_nil, zero_add, add_zero,
    AList.empty_union]

theorem schedulePrefills_moves (h : vars.schedulePrefills enableChunking instants = .ok vars')
    (hok : vars.config.OK enableChunking refs)
    (hprefills : vars.prefills = SchedulerPrefillOutputs.createEmpty)
    : Moves enableChunking vars.config vars'.config
        ∧ Staged vars'.scheduler.memory.sequences vars'.prefills.sequenceGroups [] := by
  simp only [PolicyVars.schedulePrefills, Except.bind_eq_ok] at h
  rcases h with ⟨prefills, hrun, hpure⟩
  cases hpure
  rcases Scheduler.schedulePrefills_moves hrun hok rfl rfl with ⟨hmoves, hstaged⟩
  rw [← config_afterPrefills prefills hprefills] at hmoves
  exact ⟨hmoves, hstaged⟩

theorem scheduleRunningAndSwapped_moves
    (h : vars.scheduleRunningAndSwapped enableChunking instants = .ok vars')
    (hok : vars.config.OK enableChunking refs)
    (hrunning : vars.runningScheduled = SchedulerRunningOutputs.createEmpty)
    (hswapped : vars.swappedIn = SchedulerSwappedInOutputs.createEmpty)
    : Moves enableChunking vars.config vars'.config
        ∧ Staged vars'.scheduler.memory.sequences
            (vars'.runningScheduled.prefillSeqGroups ++ vars'.swappedIn.prefillSeqGroups)
            (vars'.runningScheduled.decodeSeqGroups ++ vars'.swappedIn.decodeSeqGroups) := by
  simp only [PolicyVars.scheduleRunningAndSwapped, Except.bind_eq_ok] at h
  rcases h with ⟨running, hrun, h⟩
  have hin : vars.config.blocksToSwapIn = ∅ := by
    simp [config, hswapped, SchedulerSwappedInOutputs.createEmpty]
  have hout : vars.config.blocksToSwapOut = ∅ := by
    simp [config, hrunning, SchedulerRunningOutputs.createEmpty]
  have hcopy : vars.config.blocksToCopy = ∅ := by
    simp [config, hrunning, hswapped, SchedulerRunningOutputs.createEmpty,
      SchedulerSwappedInOutputs.createEmpty]
  rcases scheduleRunning_moves hrun hok rfl rfl hin hout hcopy with ⟨hmoves, hinv, hcurrent⟩
  split at h
  . next hnone =>
    rcases Except.bind_eq_ok.mp h with ⟨swapped, hswap, hpure⟩
    cases hpure
    have hpreempted : running.outputs.preempted = [] :=
      List.eq_nil_of_length_eq_zero (by omega)
    have hswappedOut : running.outputs.swappedOut = [] :=
      List.eq_nil_of_length_eq_zero (by omega)
    have hafter := config_afterRunning hrunning hswapped hcurrent
    have hqueue : (running.config vars.config).swapped = vars.remainingSwapped := by
      rw [← hafter]
      simp [afterRunning, config, hswappedOut]
    rcases scheduleSwapped_moves hswap (hmoves.ok hok) rfl hqueue hin
      ((hinv.schedulesOut hswappedOut).trans hout) with ⟨hmoves', hstaged⟩
    refine ⟨?_, Staged.append (hinv.staged.of_moves hmoves' (hmoves.ok hok) ?_) hstaged⟩
    . rw [← hafter] at hmoves hmoves'
      have hlast : ((vars.afterRunning running).afterSwapped swapped).config = _ :=
        config_afterSwapped swapped hswappedOut hswapped
      rw [← hlast] at hmoves'
      exact Relation.ReflTransGen.trans hmoves hmoves'
    . intro scheduled hscheduled
      simp only [RunningVars.config, Multiset.mem_add, Multiset.mem_coe]
      rcases List.mem_append.mp hscheduled with hscheduled | hscheduled
      . exact .inr (.inr hscheduled)
      . exact .inr (.inl hscheduled)
  . cases h
    refine ⟨?_, by simpa [hswapped, SchedulerSwappedInOutputs.createEmpty] using hinv.staged⟩
    rw [← config_afterRunning hrunning hswapped hcurrent] at hmoves
    exact hmoves

end PolicyVars

section Passes

variable {scheduler : Scheduler} {instants : Instants} {vars : PolicyVars}
variable {refs : List SequenceRef}

/--
The groups that are scheduled by a pass, by their phase.
-/
def PolicyVars.Staged (vars : PolicyVars) : Prop :=
  Scheduler.Staged vars.scheduler.memory.sequences
    (vars.prefills.sequenceGroups
      ++ (vars.runningScheduled.prefillSeqGroups ++ vars.swappedIn.prefillSeqGroups))
    (vars.runningScheduled.decodeSeqGroups ++ vars.swappedIn.decodeSeqGroups)

theorem defaultPasses_moves (h : scheduler.defaultPasses instants = .ok vars)
    (hok : scheduler.config.OK false refs)
    : Moves false scheduler.config vars.config
        ∧ vars.Staged
        ∧ (vars.prefills.sequenceGroups = []
            ∨ vars.runningScheduled = SchedulerRunningOutputs.createEmpty
              ∧ vars.swappedIn = SchedulerSwappedInOutputs.createEmpty) := by
  rcases defaultPasses_eq_ok h with ⟨vars', hprefills, hrest⟩
  have hstart := PolicyVars.config_start scheduler
    (scheduler.includeRunning scheduler.newBudget)
  have hfirst : Moves false scheduler.config vars'.config
      ∧ Staged vars'.scheduler.memory.sequences vars'.prefills.sequenceGroups []
      ∧ vars'.runningScheduled = SchedulerRunningOutputs.createEmpty
      ∧ vars'.swappedIn = SchedulerSwappedInOutputs.createEmpty := by
    rcases hprefills with ⟨-, hprefills⟩ | ⟨-, rfl⟩
    . have hkeeps := PolicyVars.keeps_of_schedulePrefills hprefills
      rw [← hstart]
      rcases PolicyVars.schedulePrefills_moves hprefills (hstart ▸ hok) rfl with ⟨hmoves, hstaged⟩
      exact ⟨hmoves, hstaged, hkeeps.1, hkeeps.2.1⟩
    . rw [hstart]
      exact ⟨.refl, .nil _, rfl, rfl⟩
  rcases hfirst with ⟨hmoves, hstaged, hrunning, hswapped⟩
  rcases hrest with ⟨hempty, hrest⟩ | ⟨-, rfl⟩
  . rcases PolicyVars.scheduleRunningAndSwapped_moves hrest (hmoves.ok hok) hrunning hswapped
      with ⟨hmoves', hstaged'⟩
    have hnil : vars.prefills.sequenceGroups = [] := by
      rw [(PolicyVars.keeps_of_scheduleRunningAndSwapped hrest).1]
      exact List.isEmpty_iff.mp hempty
    refine ⟨Relation.ReflTransGen.trans hmoves hmoves', ?_, .inl hnil⟩
    unfold PolicyVars.Staged
    rwa [hnil]
  . refine ⟨hmoves, ?_, .inr ⟨hrunning, hswapped⟩⟩
    unfold PolicyVars.Staged
    rw [hrunning, hswapped]
    simpa [SchedulerRunningOutputs.createEmpty, SchedulerSwappedInOutputs.createEmpty] using hstaged

theorem chunkedPasses_moves (h : scheduler.chunkedPasses instants = .ok vars)
    (hok : scheduler.config.OK true refs)
    : Moves true scheduler.config vars.config ∧ vars.Staged := by
  simp only [chunkedPasses, Except.bind_eq_ok] at h
  rcases h with ⟨vars', hrunning, hprefills⟩
  have hstart := PolicyVars.config_start scheduler scheduler.newBudget
  obtain ⟨hfirst, hstaged⟩ :=
    PolicyVars.scheduleRunningAndSwapped_moves hrunning (hstart ▸ hok) rfl rfl
  rw [hstart] at hfirst
  have hkeeps := PolicyVars.keeps_of_scheduleRunningAndSwapped hrunning
  have hkeeps' := PolicyVars.keeps_of_schedulePrefills hprefills
  rcases PolicyVars.schedulePrefills_moves hprefills (hfirst.ok hok) hkeeps.1
    with ⟨hmoves', hstaged'⟩
  refine ⟨Relation.ReflTransGen.trans hfirst hmoves', ?_⟩
  unfold PolicyVars.Staged
  rw [hkeeps'.1, hkeeps'.2.1]
  have hold := hstaged.of_moves hmoves' (hfirst.ok hok) (by
    intro scheduled hscheduled
    simp only [PolicyVars.config, Multiset.mem_add, Multiset.mem_coe]
    simp only [List.mem_append] at hscheduled
    tauto)
  simpa using hstaged'.append hold

end Passes

/--
The scheduler and the outputs after a pass that ends with `c`. The groups in `lost` are scheduled
but in no queue.
-/
structure Config.Settles (c : Config) (lost : Multiset SequenceGroup) (outputs : SchedulerOutputs)
    (scheduler : Scheduler) : Prop where
  memory_eq : scheduler.memory = c.memory
  waiting_eq : (scheduler.waiting : Multiset SequenceGroup) = c.waiting
  swapped_eq : (scheduler.swapped : Multiset SequenceGroup) = c.swapped
  scheduled_eq : (outputs.scheduledSequenceGroups : Multiset ScheduledSequenceGroup) = c.scheduled
  running_add : (scheduler.running : Multiset SequenceGroup) + lost
    = c.running + c.scheduled.map (·.scheduledGroup)
  blocksToSwapIn_eq : outputs.blocksToSwapIn = c.blocksToSwapIn
  blocksToSwapOut_eq : outputs.blocksToSwapOut = c.blocksToSwapOut
  blocksToCopy_eq : outputs.blocksToCopy = c.blocksToCopy

theorem Config.Settles.held_eq {c : Config} {lost : Multiset SequenceGroup}
    {outputs : SchedulerOutputs} {scheduler : Scheduler} (h : c.Settles lost outputs scheduler)
    : c.held = scheduler.config.held + (lost + c.ignored + c.infeasible) := by
  simp only [held, Scheduler.config, h.waiting_eq, h.swapped_eq, Multiset.map_zero, add_zero]
  calc
    _ = c.waiting + (c.running + c.scheduled.map (·.scheduledGroup)) + c.swapped + c.ignored
        + c.infeasible := by abel
    _ = _ := by
      rw [← h.running_add]
      abel

theorem Config.Settles.ok {c : Config} {lost : Multiset SequenceGroup} {outputs : SchedulerOutputs}
    {scheduler : Scheduler} {enableChunking : Bool} {refs : List SequenceRef}
    (h : c.Settles lost outputs scheduler) (hok : c.OK enableChunking refs)
    : scheduler.config.OK false refs := by
  have hheld := h.held_eq
  refine ⟨?_, ?_, ?_, ?_, ?_, ?_, ?_⟩
  . change scheduler.memory.Sound refs
    rw [h.memory_eq]
    exact hok.sound
  . exact nodup_bind_of_le (hheld ▸ Multiset.le_add_right _ _) hok.distinct
  . intro group hgroup
    exact hok.mem_refs group (by rw [hheld]; exact Multiset.mem_add.mpr (.inl hgroup))
  . intro group hgroup
    change IsWaiting scheduler.memory group
    rw [h.memory_eq]
    exact hok.waiting group (h.waiting_eq ▸ hgroup)
  . intro group hgroup
    change HasStatus scheduler.memory group .running
    rw [h.memory_eq]
    have hmem : group ∈ c.running + c.scheduled.map (·.scheduledGroup) := by
      rw [← h.running_add]
      exact Multiset.mem_add.mpr (.inl hgroup)
    rcases Multiset.mem_add.mp hmem with hrunning | hscheduled
    . exact hok.running group hrunning
    . rcases Multiset.mem_map.mp hscheduled with ⟨scheduled, hin, rfl⟩
      rcases hok.scheduled scheduled hin with ⟨seq, -, hgroup, hstatus, -⟩
      exact ⟨seq, hgroup, hstatus⟩
  . intro group hgroup
    change HasStatus scheduler.memory group .swapped
    rw [h.memory_eq]
    exact hok.swapped group (h.swapped_eq ▸ hgroup)
  . exact fun _ hscheduled => absurd hscheduled (Multiset.notMem_zero _)

section Policies

variable {scheduler scheduler' : Scheduler} {instants : Instants} {outputs : SchedulerOutputs}
variable {refs : List SequenceRef}

theorem coe_groupsOf (scheduled : List ScheduledSequenceGroup)
    : (groupsOf scheduled : Multiset SequenceGroup)
        = (scheduled : Multiset ScheduledSequenceGroup).map (·.scheduledGroup) := rfl

theorem scheduleDefault_moves (h : scheduler.scheduleDefault instants = .ok (outputs, scheduler'))
    (hok : scheduler.config.OK false refs)
    : ∃ vars,
        scheduler.defaultPasses instants = .ok vars
          ∧ Moves false scheduler.config vars.config
          ∧ vars.config.Settles 0 outputs scheduler' := by
  rcases scheduleDefault_eq_ok h
    with ⟨vars, running, hpasses, -, hprefill, hprefill', rfl, rfl, rfl⟩
  have hmoves := (defaultPasses_moves hpasses hok).1
  refine ⟨vars, hpasses, hmoves, rfl, ?_, ?_, ?_, ?_, rfl, rfl, rfl⟩
  . simp [PolicyVars.writeQueues, PolicyVars.config]
  . simp [PolicyVars.writeQueues, PolicyVars.config]
  . simp only [PolicyVars.outputs, PolicyVars.config, hprefill, hprefill', ← Multiset.coe_add,
      Multiset.coe_nil, add_zero]
  . simp only [PolicyVars.writeQueues, PolicyVars.config, hprefill, hprefill', ← Multiset.coe_add,
      coe_groupsOf, Multiset.map_add, Multiset.coe_nil, add_zero]
    abel

theorem scheduleChunkedPrefill_moves
    (h : scheduler.scheduleChunkedPrefill instants = .ok (outputs, scheduler'))
    (hok : scheduler.config.OK true refs)
    : ∃ vars,
        scheduler.chunkedPasses instants = .ok vars
          ∧ Moves true scheduler.config vars.config
          ∧ vars.config.Settles (groupsOf vars.runningScheduled.prefillSeqGroups) outputs
              scheduler' := by
  rcases scheduleChunkedPrefill_eq_ok h with ⟨vars, running, hpasses, -, rfl, rfl, rfl⟩
  have hmoves := (chunkedPasses_moves hpasses hok).1
  refine ⟨vars, hpasses, hmoves, rfl, ?_, ?_, ?_, ?_, rfl, rfl, rfl⟩
  . simp [PolicyVars.writeQueues, PolicyVars.config]
  . simp [PolicyVars.writeQueues, PolicyVars.config]
  . simp only [PolicyVars.outputs, PolicyVars.config, ← Multiset.coe_add]
    abel
  . simp only [PolicyVars.writeQueues, PolicyVars.config, ← Multiset.coe_add, coe_groupsOf,
      Multiset.map_add]
    abel

theorem schedulerConfig_of_defaultPasses {vars : PolicyVars}
    (h : scheduler.defaultPasses instants = .ok vars)
    : vars.scheduler.schedulerConfig = scheduler.schedulerConfig := by
  rcases defaultPasses_eq_ok h with ⟨vars', hprefills, hrest⟩
  have hfirst : vars'.scheduler.schedulerConfig = scheduler.schedulerConfig := by
    rcases hprefills with ⟨-, hprefills⟩ | ⟨-, rfl⟩
    . exact PolicyVars.schedulerConfig_of_schedulePrefills hprefills
    . rfl
  rcases hrest with ⟨-, hrest⟩ | ⟨-, rfl⟩
  . exact (PolicyVars.schedulerConfig_of_scheduleRunningAndSwapped hrest).trans hfirst
  . exact hfirst

theorem schedulerConfig_of_chunkedPasses {vars : PolicyVars}
    (h : scheduler.chunkedPasses instants = .ok vars)
    : vars.scheduler.schedulerConfig = scheduler.schedulerConfig := by
  simp only [chunkedPasses, Except.bind_eq_ok] at h
  rcases h with ⟨vars', hrunning, hprefills⟩
  exact (PolicyVars.schedulerConfig_of_schedulePrefills hprefills).trans
    (PolicyVars.schedulerConfig_of_scheduleRunningAndSwapped hrunning)

/--
The groups that a call of `schedule` preempts by recomputation.
-/
def recomputed (scheduler : Scheduler) (instants : Instants) : List SequenceGroup :=
  let passes :=
    if scheduler.schedulerConfig.enableChunkedPrefill then scheduler.chunkedPasses instants
    else scheduler.defaultPasses instants
  match passes with
  | .ok vars => vars.runningScheduled.preempted
  | .error _ => []

/--
The groups in their prefill phase come first. Unless prompts may be split, all the groups are in the
same phase.
-/
def Ordered (heap : SequenceHeap) (enableChunking : Bool) (scheduled : List ScheduledSequenceGroup)
    : Prop :=
  ∃ prefills decodes,
    scheduled = prefills ++ decodes
      ∧ Staged heap prefills decodes
      ∧ (enableChunking = false → prefills = [] ∨ decodes = [])

theorem schedulePolicy_moves (h : scheduler.schedulePolicy instants = .ok (outputs, scheduler'))
    (hok : scheduler.config.OK scheduler.schedulerConfig.enableChunkedPrefill refs)
    : ∃ c lost,
        Moves scheduler.schedulerConfig.enableChunkedPrefill scheduler.config c
          ∧ c.Settles lost outputs scheduler'
          ∧ scheduler'.schedulerConfig = scheduler.schedulerConfig
          ∧ c.recomputed = scheduler.recomputed instants
          ∧ Ordered scheduler'.memory.sequences scheduler.schedulerConfig.enableChunkedPrefill
              outputs.scheduledSequenceGroups := by
  unfold schedulePolicy at h
  split at h
  . next hchunked =>
    rw [hchunked] at hok ⊢
    rcases scheduleChunkedPrefill_moves h hok with ⟨vars, hpasses, hmoves, hsettles⟩
    rcases scheduleChunkedPrefill_eq_ok h with ⟨vars', running, hpasses', -, -, rfl, rfl⟩
    cases hpasses.symm.trans hpasses'
    refine ⟨vars.config, _, hmoves, hsettles, schedulerConfig_of_chunkedPasses hpasses, ?_, ?_⟩
    . simp only [recomputed, hchunked, if_true, hpasses]
      rfl
    . refine ⟨_, _, ?_, (chunkedPasses_moves hpasses hok).2, fun h => (nomatch h)⟩
      simp only [PolicyVars.outputs, List.append_assoc]
  . next hchunked =>
    rw [Bool.not_eq_true] at hchunked
    rw [hchunked] at hok ⊢
    rcases scheduleDefault_moves h hok with ⟨vars, hpasses, hmoves, hsettles⟩
    rcases scheduleDefault_eq_ok h
      with ⟨vars', running, hpasses', -, hprefill, hprefill', -, rfl, rfl⟩
    cases hpasses.symm.trans hpasses'
    refine ⟨vars.config, 0, hmoves, hsettles, schedulerConfig_of_defaultPasses hpasses, ?_, ?_⟩
    . simp only [recomputed, hchunked, Bool.false_eq_true, if_false, hpasses]
      rfl
    . rcases defaultPasses_moves hpasses hok with ⟨-, hstaged, hexclusive⟩
      refine ⟨_, _, ?_, hstaged, fun _ => ?_⟩
      . simp only [PolicyVars.outputs, hprefill, hprefill', List.append_nil, List.append_assoc]
      . rcases hexclusive with hnil | ⟨hrunning, hswapped⟩
        . left
          simp [hnil, hprefill, hprefill']
        . right
          simp [hrunning, hswapped, SchedulerRunningOutputs.createEmpty,
            SchedulerSwappedInOutputs.createEmpty]

end Policies

end Scheduler

end AtomaInfer
