import Mathlib.Data.List.Flatten
import AtomaInfer.Scheduler.Sharing
import AtomaInfer.Util.Copying

/-!
The copies that a call of `schedule` returns. They are collected in a map from sources to
destinations, so a block can be the source of only one of them.
-/

namespace AtomaInfer

namespace Scheduler

open BlockSpaceManager

/--
A mapping as a list of copies from sources to destinations.
-/
def copiesOf (blocks : BlockMapping) : List (Nat × Nat) :=
  blocks.entries.map fun entry => (entry.1, entry.2)

section Calls

variable (scheduler : Scheduler) (instants : Instants)

/--
A call of `schedule` appends slots to `group`, when the memory is `memory`.
-/
inductive AppendsSlots : Memory → SequenceGroup → Prop where
  | running (vars : RunningVars) (group : SequenceGroup) (numRunningTokens : Nat)
      (hreach : scheduler.ReachesRunning instants vars)
      (hcurrent : vars.current = some (group, numRunningTokens))
      (hcan : vars.scheduler.canAppendSlots group = true)
    : AppendsSlots vars.scheduler.memory group
  | swapped (vars : SwappedVars) (group : SequenceGroup) (swappedQueue : List SequenceGroup)
      (numNewTokens : Nat) (blocksToSwapIn : BlockMapping) (next : Scheduler)
      (hreach : scheduler.ReachesSwappedIn instants vars)
      (hqueue : vars.swappedQueue = group :: swappedQueue)
      (hcan : vars.scheduler.memory.blockManager.canSwapIn group vars.scheduler.memory.sequences
        = .ok)
      (htokens : vars.scheduler.getNumTokens group .swapped
        scheduler.schedulerConfig.enableChunkedPrefill vars.budget = .ok numNewTokens)
      (hbudget : vars.canSchedule numNewTokens
        (group.getMaxNumRunningSeqs vars.scheduler.memory.sequences) = .ok true)
      (hswap : vars.scheduler.swapIn group vars.outputs.blocksToSwapIn
        = .ok (blocksToSwapIn, next))
    : AppendsSlots next.memory group

/--
One of the calls of `append_slots` during a call of `schedule` returns the pair.
-/
def ReturnsCopy (pair : Nat × Nat) : Prop :=
  ∃ memory group pairs manager,
    scheduler.AppendsSlots instants memory group
      ∧ (appendSlotsOf memory.sequences (group.getSeqs memory.sequences .running)).run
          memory.blockManager = .ok pairs manager
      ∧ pair ∈ pairs

end Calls

/--
What has been collected while the groups of `pending` are still to come: the blocks of the copies
are in tables of other groups, and no destination is the source or the destination of another copy.
-/
structure Collects (groups pending : List SequenceGroup) (memory : Memory)
    (blocksToCopy : BlockMapping) : Prop where
  grouped : memory.Grouped groups
  subperm : pending.Subperm groups
  settled : ∀ source target, blocksToCopy.lookup source = some target →
    memory.Settled pending ⟨.gpu, source⟩ ∧ memory.Settled pending ⟨.gpu, target⟩
  lookup_target : ∀ source target, blocksToCopy.lookup source = some target →
    blocksToCopy.lookup target = none
  injective : ∀ source source' target, blocksToCopy.lookup source = some target →
    blocksToCopy.lookup source' = some target → source = source'

/--
The copies of `blocks` are among those of `blocks'`.
-/
def Keeps (blocks blocks' : BlockMapping) : Prop :=
  ∀ source target, blocks.lookup source = some target → blocks'.lookup source = some target

variable {groups pending pending' : List SequenceGroup} {group : SequenceGroup}
variable {memory memory' : Memory} {blocksToCopy : BlockMapping}

namespace Collects

theorem subset (h : Collects groups pending memory blocksToCopy)
    : ∀ group ∈ pending, group ∈ groups :=
  fun _ hgroup => h.subperm.subset hgroup

theorem mono (h : Collects groups pending memory blocksToCopy) (hsublist : pending'.Sublist pending)
    : Collects groups pending' memory blocksToCopy := by
  refine ⟨h.grouped, hsublist.subperm.trans h.subperm, ?_, h.lookup_target, h.injective⟩
  intro source target hlookup
  have ⟨hsource, htarget⟩ := h.settled source target hlookup
  exact ⟨hsource.mono fun _ => hsublist.mem, htarget.mono fun _ => hsublist.mem⟩

/--
An operation on one of the groups to come, that asks for no copy.
-/
theorem alters (h : Collects groups pending memory blocksToCopy) (hgroup : group ∈ pending)
    (halters : Memory.Alters group memory memory') (hgrouped : memory'.Grouped groups)
    : Collects groups pending memory' blocksToCopy := by
  refine ⟨hgrouped, h.subperm, ?_, h.lookup_target, h.injective⟩
  intro source target hlookup
  have ⟨hsource, htarget⟩ := h.settled source target hlookup
  exact ⟨hsource.alters hgroup halters h.grouped h.subset,
    htarget.alters hgroup halters h.grouped h.subset⟩

/--
The slots of the first group to come are appended. When no block is copied twice, every copy is
collected, and none is lost.
-/
theorem appendSlotsOf (h : Collects groups (group :: pending) memory blocksToCopy)
    {pairs : List (Nat × Nat)} {manager : BlockSpaceManager}
    (hrun : (BlockSpaceManager.appendSlotsOf memory.sequences
      (group.getSeqs memory.sequences .running)).run memory.blockManager = .ok pairs manager)
    (honce : memory.blockManager.CopiesOnce memory.sequences
      (group.getSeqs memory.sequences .running))
    : Collects groups pending { memory with blockManager := manager } (blocksToCopy.insertAll pairs)
        ∧ Keeps blocksToCopy (blocksToCopy.insertAll pairs)
        ∧ ∀ pair ∈ pairs, (blocksToCopy.insertAll pairs).lookup pair.1 = some pair.2 := by
  have hgroup : group ∈ groups := h.subset group List.mem_cons_self
  have happendable := h.grouped.appendable hgroup
  have ⟨hgrouped, halters⟩ := h.grouped.appendSlotsOf hgroup (fun _ hseq => hseq) happendable hrun
  have hsources := nodup_sources_of_appendSlotsOf happendable hrun honce
  have htargets := nodup_targets_of_appendSlotsOf happendable hrun
  have hpair : ∀ source target, (source, target) ∈ pairs →
      memory.blockManager.Holds group ⟨.gpu, source⟩
        ∧ ⟨.gpu, target⟩ ∉ memory.blockManager.owned
        ∧ ⟨.gpu, target⟩ ∈ manager.owned := by
    intro source target hmem
    rcases of_mem_appendSlotsOf happendable hrun hmem with ⟨⟨seq, hseq, init, hlookup, -⟩, -, hnew⟩
    have hid := SequenceGroup.mem_sequenceIds (SequenceGroup.mem_getSeqs.mp hseq).1
    exact ⟨⟨seq.sequenceId, hid, _, hlookup, by simp⟩, hnew⟩
  have hold : ∀ source target, blocksToCopy.lookup source = some target →
      memory.Settled (group :: pending) ⟨.gpu, source⟩
        ∧ memory.Settled (group :: pending) ⟨.gpu, target⟩ := h.settled
  have hfirst : group ∈ group :: pending := List.mem_cons_self
  have hcases : ∀ source target, (blocksToCopy.insertAll pairs).lookup source = some target →
      (source, target) ∈ pairs ∨ blocksToCopy.lookup source = some target :=
    fun _ _ => AList.mem_or_lookup_of_lookup_insertAll
  -- the tables of the groups to come are as before
  have hlater : ∀ other ∈ pending, ∀ block, manager.Holds other block →
      memory.blockManager.Holds other block := by
    intro other hother block hholds
    exact (halters.holds_iff_of_subperm h.grouped h.subperm hother).mp hholds
  refine ⟨⟨hgrouped, (List.sublist_cons_self _ _).subperm.trans h.subperm, ?_, ?_, ?_⟩, ?_, ?_⟩
  . intro source target hlookup
    rcases hcases source target hlookup with hmem | hlookup
    . rcases hpair source target hmem with ⟨hholds, hnew, hown⟩
      refine ⟨⟨owned_subset_of_appendSlotsOf happendable hrun hholds.mem_owned, ?_⟩, hown, ?_⟩
      . intro other hother hholds'
        rcases hlater other hother _ hholds' with ⟨sequenceId, hid, blockTable, hlookup, hblock⟩
        exact h.grouped.notMem_of_subperm h.subperm hother hid
          (h.grouped.apart group hgroup _ hholds sequenceId blockTable hlookup hblock)
      . intro other hother hholds'
        exact hnew (hlater other hother _ hholds').mem_owned
    . have hsettled := (h.alters hfirst halters hgrouped).settled source target hlookup
      exact ⟨hsettled.1.mono fun _ => List.mem_cons_of_mem _,
        hsettled.2.mono fun _ => List.mem_cons_of_mem _⟩
  . intro source target hlookup
    cases hnext : (blocksToCopy.insertAll pairs).lookup target with
    | none => rfl
    | some target' =>
      exfalso
      rcases hcases source target hlookup with hmem | hlookup
      . rcases hcases target target' hnext with hmem' | hlookup'
        . exact (hpair _ _ hmem).2.1 (hpair _ _ hmem').1.mem_owned
        . exact (hpair _ _ hmem).2.1 (hold _ _ hlookup').1.1
      . rcases hcases target target' hnext with hmem' | hlookup'
        . exact (hold _ _ hlookup).2.2 group hfirst (hpair _ _ hmem').1
        . rw [h.lookup_target source target hlookup] at hlookup'
          cases hlookup'
  . intro source source' target hlookup hlookup'
    rcases hcases source target hlookup with hmem | hlookup
    . rcases hcases source' target hlookup' with hmem' | hlookup'
      . have := List.inj_on_of_nodup_map htargets hmem hmem' rfl
        exact congrArg Prod.fst this
      . exact absurd (hold _ _ hlookup').2.1 (hpair _ _ hmem).2.1
    . rcases hcases source' target hlookup' with hmem' | hlookup'
      . exact absurd (hold _ _ hlookup).2.1 (hpair _ _ hmem').2.1
      . exact h.injective source source' target hlookup hlookup'
  . intro source target hlookup
    rw [AList.lookup_insertAll_of_notMem, hlookup]
    intro hmem
    rcases List.mem_map.mp hmem with ⟨⟨source', target'⟩, hmem', rfl⟩
    exact (hold _ _ hlookup).1.2 group hfirst (hpair _ _ hmem').1
  . intro pair hmem
    exact AList.lookup_insertAll_of_mem hsources hmem

end Collects

section Running

variable {enableChunking : Bool} {vars vars' final : RunningVars} {extra : List SequenceGroup}

/--
No block is copied twice when `schedule_running` appends the slots of the group at hand.
-/
def RunningVars.CopiesOnce (vars : RunningVars) : Prop :=
  ∀ group numRunningTokens, vars.current = some (group, numRunningTokens) →
    vars.scheduler.canAppendSlots group = true →
      vars.scheduler.memory.blockManager.CopiesOnce vars.scheduler.memory.sequences
        (group.getSeqs vars.scheduler.memory.sequences .running)

theorem RunningVars.Next.appendSlots {numRunningTokens : Nat} (h : Next enableChunking vars vars')
    (hcurrent : vars.current = some (group, numRunningTokens))
    (hcan : vars.scheduler.canAppendSlots group = true)
    : ∃ pairs manager,
        (appendSlotsOf vars.scheduler.memory.sequences
            (group.getSeqs vars.scheduler.memory.sequences .running)).run
              vars.scheduler.memory.blockManager = .ok pairs manager
          ∧ vars'.outputs.blocksToCopy = vars.outputs.blocksToCopy.insertAll pairs
          ∧ vars'.scheduler.memory = { vars.scheduler.memory with blockManager := manager }
          ∧ vars'.pending = vars.runningQueue := by
  cases h with
  | take _ _ _ hnone =>
    rw [hcurrent] at hnone
    cases hnone
  | preemptVictim _ _ _ _ _ _ _ hcurrent' hcan' =>
    rw [hcurrent] at hcurrent'
    cases hcurrent'
    rw [hcan] at hcan'
    cases hcan'
  | preemptSelf _ _ _ _ _ hcurrent' hcan' =>
    rw [hcurrent] at hcurrent'
    cases hcurrent'
    rw [hcan] at hcan'
    cases hcan'
  | schedule _ _ _ hcurrent' _ hschedule =>
    rw [hcurrent] at hcurrent'
    cases hcurrent'
    rcases schedule_eq_ok hschedule with ⟨blocksToCopy, scheduler, happend, rfl⟩
    rcases appendSlots_eq_foldl happend with ⟨pairs, manager, hrun, rfl, rfl⟩
    exact ⟨pairs, manager, hrun, rfl, rfl, rfl⟩

theorem RunningVars.Next.blocksToCopy_eq (h : Next enableChunking vars vars')
    (hnot : ∀ group numRunningTokens, vars.current = some (group, numRunningTokens) →
      vars.scheduler.canAppendSlots group = false)
    : vars'.outputs.blocksToCopy = vars.outputs.blocksToCopy := by
  have hpreempt : ∀ {vars vars' : RunningVars} {group : SequenceGroup},
      vars.preempt group = .ok vars' → vars'.outputs.blocksToCopy = vars.outputs.blocksToCopy := by
    intro vars vars' group hpreempt
    rcases preempt_eq_ok hpreempt with ⟨-, scheduler, -, rfl⟩ | ⟨-, blocks, scheduler, -, rfl⟩
    . rfl
    . rfl
  cases h with
  | take => rfl
  | preemptVictim _ _ _ _ _ _ _ _ _ _ _ _ hvictim =>
    have hblocks := hpreempt hvictim
    exact hblocks
  | preemptSelf _ _ _ _ _ _ _ _ _ _ hself =>
    have hblocks := hpreempt hself
    exact hblocks
  | schedule _ _ _ hcurrent hcan =>
    rw [hnot _ _ hcurrent] at hcan
    cases hcan

theorem RunningVars.Next.collects (h : Next enableChunking vars vars')
    (hcollects : Collects groups (vars.pending ++ extra) vars.scheduler.memory
      vars.outputs.blocksToCopy) (honce : vars.CopiesOnce)
    : Collects groups (vars'.pending ++ extra) vars'.scheduler.memory vars'.outputs.blocksToCopy
        ∧ Keeps vars.outputs.blocksToCopy vars'.outputs.blocksToCopy := by
  by_cases happends : ∃ group numRunningTokens,
      vars.current = some (group, numRunningTokens) ∧ vars.scheduler.canAppendSlots group = true
  . rcases happends with ⟨group, numRunningTokens, hcurrent, hcan⟩
    rcases h.appendSlots hcurrent hcan with ⟨pairs, manager, hrun, hblocks, hmemory, hpending⟩
    rw [hblocks, hmemory, hpending]
    have hfirst : vars.pending ++ extra = group :: (vars.runningQueue ++ extra) := by
      simp [pending, hcurrent]
    rw [hfirst] at hcollects
    rcases hcollects.appendSlotsOf hrun (honce _ _ hcurrent hcan) with ⟨hafter, hkeeps, -⟩
    exact ⟨hafter, hkeeps⟩
  . have hsame : vars'.outputs.blocksToCopy = vars.outputs.blocksToCopy := by
      apply h.blocksToCopy_eq
      intro group numRunningTokens hcurrent
      rw [← Bool.not_eq_true]
      exact fun hcan => happends ⟨group, numRunningTokens, hcurrent, hcan⟩
    have hmem : ∀ group ∈ vars.pending, group ∈ vars.pending ++ extra :=
      fun _ => List.mem_append_left _
    rcases h.alters hcollects.grouped
        (fun group hgroup => hcollects.subset group (hmem group hgroup))
      with ⟨group, hgroup, hgrouped, halters⟩
    rw [hsame]
    exact ⟨(hcollects.alters (hmem group hgroup) halters hgrouped).mono
      (h.pending_sublist.append_right extra), fun _ _ hlookup => hlookup⟩

/--
What has been collected at an iteration is there at every later one.
-/
theorem RunningVars.collects_of_reaches (h : (runningLoop enableChunking).Reaches vars vars')
    (hcollects : Collects groups (vars.pending ++ extra) vars.scheduler.memory
      vars.outputs.blocksToCopy)
    (honce : ∀ current, (runningLoop enableChunking).Reaches vars current → current.CopiesOnce)
    : Collects groups (vars'.pending ++ extra) vars'.scheduler.memory vars'.outputs.blocksToCopy
        ∧ Keeps vars.outputs.blocksToCopy vars'.outputs.blocksToCopy := by
  induction h with
  | refl => exact ⟨hcollects, fun _ _ hlookup => hlookup⟩
  | @tail current next hreach hstep ih =>
    have hnext := (next_of_step hstep).collects ih.1 (honce current hreach)
    exact ⟨hnext.1, fun source target hlookup => hnext.2 _ _ (ih.2 source target hlookup)⟩

theorem RunningVars.reaches_of_run (h : (runningLoop enableChunking).run vars = .ok final)
    : (runningLoop enableChunking).Reaches vars final := by
  rcases (runningLoop enableChunking).exists_last_of_run_eq_ok h with ⟨last, hreach, hdone⟩
  rw [(of_step_eq_inr hdone).1]
  exact hreach

/--
An iteration of a run that succeeds appends the slots of the group at hand, when it can.
-/
theorem RunningVars.exists_next_of_run {numRunningTokens : Nat}
    (h : (runningLoop enableChunking).run vars = .ok final)
    (hcurrent : vars.current = some (group, numRunningTokens))
    : ∃ next, vars.step enableChunking = .ok (.inl next)
        ∧ (runningLoop enableChunking).run next = .ok final := by
  cases hstep : vars.step enableChunking with
  | error e =>
    rw [(runningLoop enableChunking).run_of_error hstep] at h
    cases h
  | ok result =>
    cases result with
    | inl next =>
      rw [(runningLoop enableChunking).run_of_next hstep] at h
      exact ⟨next, rfl, h⟩
    | inr last =>
      have hnone := (of_step_eq_inr hstep).2.1
      rw [hcurrent] at hnone
      cases hnone

/--
Every copy that `schedule_running` asks for is in the map that it returns.
-/
theorem RunningVars.lookup_of_reaches {numRunningTokens : Nat}
    (h : (runningLoop enableChunking).run vars = .ok final)
    (hcollects : Collects groups (vars.pending ++ extra) vars.scheduler.memory
      vars.outputs.blocksToCopy)
    (honce : ∀ current, (runningLoop enableChunking).Reaches vars current → current.CopiesOnce)
    (hreach : (runningLoop enableChunking).Reaches vars vars')
    (hcurrent : vars'.current = some (group, numRunningTokens))
    (hcan : vars'.scheduler.canAppendSlots group = true)
    {pairs : List (Nat × Nat)} {manager : BlockSpaceManager}
    (hrun : (appendSlotsOf vars'.scheduler.memory.sequences
      (group.getSeqs vars'.scheduler.memory.sequences .running)).run
        vars'.scheduler.memory.blockManager = .ok pairs manager)
    : ∀ pair ∈ pairs, final.outputs.blocksToCopy.lookup pair.1 = some pair.2 := by
  rw [(runningLoop enableChunking).run_of_reaches hreach] at h
  rcases exists_next_of_run h hcurrent with ⟨next, hstep, hlast⟩
  rcases (next_of_step hstep).appendSlots hcurrent hcan
    with ⟨pairs', manager', hrun', hblocks, -, -⟩
  rw [hrun] at hrun'
  cases hrun'
  have hthere := (collects_of_reaches hreach hcollects honce).1
  have hfirst : vars'.pending ++ extra = group :: (vars'.runningQueue ++ extra) := by
    simp [pending, hcurrent]
  rw [hfirst] at hthere
  rcases hthere.appendSlotsOf hrun (honce vars' hreach _ _ hcurrent hcan) with ⟨-, -, hlookup⟩
  have hnext := collects_of_reaches (hreach.tail hstep) hcollects honce
  have hkeeps := collects_of_reaches (reaches_of_run hlast) hnext.1
    fun current hcurrent => honce current ((hreach.tail hstep).trans hcurrent)
  intro pair hpair
  apply hkeeps.2
  rw [hblocks]
  exact hlookup pair hpair

end Running

section Swapped

variable {enableChunking : Bool} {vars vars' final : SwappedVars} {copied : BlockMapping}

/--
No block is copied twice when `schedule_swapped` appends the slots of the group it has swapped in.
-/
def SwappedVars.CopiesOnce (enableChunking : Bool) (vars : SwappedVars) : Prop :=
  ∀ group swappedQueue numNewTokens blocksToSwapIn next,
    vars.swappedQueue = group :: swappedQueue →
    vars.scheduler.memory.blockManager.canSwapIn group vars.scheduler.memory.sequences = .ok →
    vars.scheduler.getNumTokens group .swapped enableChunking vars.budget = .ok numNewTokens →
    vars.canSchedule numNewTokens (group.getMaxNumRunningSeqs vars.scheduler.memory.sequences)
      = .ok true →
    vars.scheduler.swapIn group vars.outputs.blocksToSwapIn = .ok (blocksToSwapIn, next) →
      next.memory.blockManager.CopiesOnce next.memory.sequences
        (group.getSeqs next.memory.sequences .running)

theorem SwappedVars.Next.collects (h : Next enableChunking vars vars')
    (hcollects : Collects groups vars.swappedQueue vars.scheduler.memory
      (vars.outputs.blocksToCopy ∪ copied)) (honce : vars.CopiesOnce enableChunking)
    : Collects groups vars'.swappedQueue vars'.scheduler.memory
          (vars'.outputs.blocksToCopy ∪ copied)
        ∧ Keeps (vars.outputs.blocksToCopy ∪ copied) (vars'.outputs.blocksToCopy ∪ copied) := by
  cases h with
  | ignore group swappedQueue hqueue =>
    have hgroup : group ∈ vars.swappedQueue := by simp [hqueue]
    have halters := Memory.Alters.setStatusWhere group vars.scheduler.memory (fun _ => true)
      .finishedIgnored
    have hgrouped := hcollects.grouped.ignore (hcollects.subset group hgroup) fun _ => true
    have hafter := hcollects.alters hgroup halters hgrouped
    rw [hqueue] at hafter
    exact ⟨hafter.mono (List.sublist_cons_self _ _), fun _ _ hlookup => hlookup⟩
  | schedule group swappedQueue numNewTokens vars' hqueue hcan htokens hbudget hschedule =>
    have hgroup : group ∈ vars.swappedQueue := by simp [hqueue]
    rcases schedule_eq_ok hschedule with ⟨blocksToSwapIn, _, next, scheduler', hswap, happend, rfl⟩
    rcases grouped_of_swapIn hcollects.grouped (hcollects.subset group hgroup) hcan hswap
      with ⟨hgrouped, halters, -⟩
    have hnext := hcollects.alters hgroup halters hgrouped
    rw [hqueue] at hnext
    rcases appendSlots_eq_foldl happend with ⟨pairs, manager, hrun, rfl, rfl⟩
    rcases hnext.appendSlotsOf hrun (honce _ _ _ _ _ hqueue hcan htokens hbudget hswap)
      with ⟨hafter, hkeeps, -⟩
    rw [← AList.insertAll_union] at hafter hkeeps
    exact ⟨hafter, hkeeps⟩

theorem SwappedVars.collects_of_reaches (h : (swappedLoop enableChunking).Reaches vars vars')
    (hcollects : Collects groups vars.swappedQueue vars.scheduler.memory
      (vars.outputs.blocksToCopy ∪ copied))
    (honce : ∀ current, (swappedLoop enableChunking).Reaches vars current →
      current.CopiesOnce enableChunking)
    : Collects groups vars'.swappedQueue vars'.scheduler.memory (vars'.outputs.blocksToCopy ∪ copied)
        ∧ Keeps (vars.outputs.blocksToCopy ∪ copied) (vars'.outputs.blocksToCopy ∪ copied) := by
  induction h with
  | refl => exact ⟨hcollects, fun _ _ hlookup => hlookup⟩
  | @tail current next hreach hstep ih =>
    have hnext := (next_of_step hstep).collects ih.1 (honce current hreach)
    exact ⟨hnext.1, fun source target hlookup => hnext.2 _ _ (ih.2 source target hlookup)⟩

theorem SwappedVars.reaches_of_run (h : (swappedLoop enableChunking).run vars = .ok final)
    : (swappedLoop enableChunking).Reaches vars final := by
  rcases (swappedLoop enableChunking).exists_last_of_run_eq_ok h with ⟨last, hreach, hdone⟩
  rw [(of_step_eq_inr hdone).1]
  exact hreach

variable {swappedQueue : List SequenceGroup} {numNewTokens : Nat} {blocksToSwapIn : BlockMapping}
variable {next : Scheduler}

/--
An iteration of a run that succeeds appends the slots of the group that it has swapped in.
-/
theorem SwappedVars.exists_next_of_run (h : (swappedLoop enableChunking).run vars = .ok final)
    (hqueue : vars.swappedQueue = group :: swappedQueue)
    (hcan : vars.scheduler.memory.blockManager.canSwapIn group vars.scheduler.memory.sequences = .ok)
    (htokens : vars.scheduler.getNumTokens group .swapped enableChunking vars.budget
      = .ok numNewTokens)
    (hbudget : vars.canSchedule numNewTokens
      (group.getMaxNumRunningSeqs vars.scheduler.memory.sequences) = .ok true)
    (hswap : vars.scheduler.swapIn group vars.outputs.blocksToSwapIn = .ok (blocksToSwapIn, next))
    : ∃ vars' pairs manager,
        vars.step enableChunking = .ok (.inl vars')
          ∧ (swappedLoop enableChunking).run vars' = .ok final
          ∧ (appendSlotsOf next.memory.sequences (group.getSeqs next.memory.sequences .running)).run
              next.memory.blockManager = .ok pairs manager
          ∧ vars'.outputs.blocksToCopy = vars.outputs.blocksToCopy.insertAll pairs := by
  have hadmit : vars.step enableChunking
      = (vars.schedule group numNewTokens
          (group.getMaxNumRunningSeqs vars.scheduler.memory.sequences) >>= fun vars' =>
            pure (.inl { vars' with swappedQueue })) := by
    simp only [step, hqueue, hcan, admitNext, htokens, bind, Except.bind, hbudget]
    rfl
  cases hschedule : vars.schedule group numNewTokens
      (group.getMaxNumRunningSeqs vars.scheduler.memory.sequences) with
  | error e =>
    rw [hschedule] at hadmit
    rw [(swappedLoop enableChunking).run_of_error hadmit] at h
    cases h
  | ok vars' =>
    rw [hschedule] at hadmit
    rw [(swappedLoop enableChunking).run_of_next hadmit] at h
    rcases schedule_eq_ok hschedule with ⟨_, _, next', scheduler', hswap', happend, rfl⟩
    rw [hswap] at hswap'
    cases hswap'
    rcases appendSlots_eq_foldl happend with ⟨pairs, manager, hrun, rfl, rfl⟩
    exact ⟨_, pairs, manager, hadmit, h, hrun, rfl⟩

/--
Every copy that `schedule_swapped` asks for is in the map that it returns.
-/
theorem SwappedVars.lookup_of_reaches (h : (swappedLoop enableChunking).run vars = .ok final)
    (hcollects : Collects groups vars.swappedQueue vars.scheduler.memory
      (vars.outputs.blocksToCopy ∪ copied))
    (honce : ∀ current, (swappedLoop enableChunking).Reaches vars current →
      current.CopiesOnce enableChunking)
    (hreach : (swappedLoop enableChunking).Reaches vars vars')
    (hqueue : vars'.swappedQueue = group :: swappedQueue)
    (hcan : vars'.scheduler.memory.blockManager.canSwapIn group vars'.scheduler.memory.sequences
      = .ok)
    (htokens : vars'.scheduler.getNumTokens group .swapped enableChunking vars'.budget
      = .ok numNewTokens)
    (hbudget : vars'.canSchedule numNewTokens
      (group.getMaxNumRunningSeqs vars'.scheduler.memory.sequences) = .ok true)
    (hswap : vars'.scheduler.swapIn group vars'.outputs.blocksToSwapIn = .ok (blocksToSwapIn, next))
    {pairs : List (Nat × Nat)} {manager : BlockSpaceManager}
    (hrun : (appendSlotsOf next.memory.sequences (group.getSeqs next.memory.sequences .running)).run
      next.memory.blockManager = .ok pairs manager)
    : ∀ pair ∈ pairs, (final.outputs.blocksToCopy ∪ copied).lookup pair.1 = some pair.2 := by
  rw [(swappedLoop enableChunking).run_of_reaches hreach] at h
  rcases exists_next_of_run h hqueue hcan htokens hbudget hswap
    with ⟨after, pairs', manager', hstep, hlast, hrun', hblocks⟩
  rw [hrun] at hrun'
  cases hrun'
  have hthere := (collects_of_reaches hreach hcollects honce).1
  have hgroup : group ∈ vars'.swappedQueue := by simp [hqueue]
  rcases grouped_of_swapIn hthere.grouped (hthere.subset group hgroup) hcan hswap
    with ⟨hgrouped, halters, -⟩
  have hswapped := hthere.alters hgroup halters hgrouped
  rw [hqueue] at hswapped
  rcases hswapped.appendSlotsOf hrun
      (honce vars' hreach _ _ _ _ _ hqueue hcan htokens hbudget hswap)
    with ⟨-, -, hlookup⟩
  have hnext := collects_of_reaches (hreach.tail hstep) hcollects honce
  have hkeeps := collects_of_reaches (reaches_of_run hlast) hnext.1
    fun current hcurrent => honce current ((hreach.tail hstep).trans hcurrent)
  intro pair hpair
  apply hkeeps.2
  rw [hblocks, AList.insertAll_union]
  exact hlookup pair hpair

end Swapped

section Schedule

variable {scheduler scheduler' : Scheduler} {instants : Instants} {outputs : SchedulerOutputs}
variable {metadata : List SequenceGroupMetadata}

theorem RunningVars.grouped_of_reaches {enableChunking : Bool} {vars vars' : RunningVars}
    (h : (runningLoop enableChunking).Reaches vars vars')
    (hgrouped : vars.scheduler.memory.Grouped groups)
    (hpending : ∀ group ∈ vars.pending, group ∈ groups)
    : vars'.scheduler.memory.Grouped groups ∧ ∀ group ∈ vars'.pending, group ∈ groups := by
  refine (runningLoop enableChunking).invariant_of_reaches
    (I := fun current => current.scheduler.memory.Grouped groups
      ∧ ∀ group ∈ current.pending, group ∈ groups) ?_ h ⟨hgrouped, hpending⟩
  rintro current next ⟨hcurrent, hmem⟩ hstep
  have hnext := next_of_step hstep
  rcases hnext.alters hcurrent hmem with ⟨group, -, hgrouped', -⟩
  exact ⟨hgrouped', fun group hgroup => hmem group (hnext.pending_sublist.mem hgroup)⟩

theorem SwappedVars.grouped_of_reaches {enableChunking : Bool} {vars vars' : SwappedVars}
    (h : (swappedLoop enableChunking).Reaches vars vars')
    (hgrouped : vars.scheduler.memory.Grouped groups)
    (hqueue : ∀ group ∈ vars.swappedQueue, group ∈ groups)
    : vars'.scheduler.memory.Grouped groups ∧ ∀ group ∈ vars'.swappedQueue, group ∈ groups := by
  refine (swappedLoop enableChunking).invariant_of_reaches
    (I := fun current => current.scheduler.memory.Grouped groups
      ∧ ∀ group ∈ current.swappedQueue, group ∈ groups) ?_ h ⟨hgrouped, hqueue⟩
  rintro current next ⟨hcurrent, hmem⟩ hstep
  have hnext := next_of_step hstep
  rcases hnext.alters hcurrent hmem with ⟨group, -, hgrouped', -⟩
  exact ⟨hgrouped', fun group hgroup => hmem group (hnext.queue_sublist.mem hgroup)⟩

/--
Before its first iteration `schedule_running` has all running groups before it, and the policy all
swapped ones.
-/
theorem pending_subperm_of_beforeRunning {before : PolicyVars}
    (h : scheduler.beforeRunning instants = .ok before) (hgrouped : scheduler.memory.Grouped groups)
    (hsubperm : scheduler.groups.Subperm groups)
    : ((before.runningStart instants).pending
        ++ FcfsPolicy.sortByPriority instants.swapped before.remainingSwapped).Subperm groups := by
  rcases grouped_of_beforeRunning h hgrouped hsubperm with ⟨-, hrunning, hswapped⟩
  have hpending : (before.runningStart instants).pending
      = FcfsPolicy.sortByPriority instants.running scheduler.running := by
    unfold PolicyVars.runningStart RunningVars.start RunningVars.pending
    rw [hrunning]
    rfl
  rw [hpending, hswapped]
  refine List.Subperm.trans ?_ hsubperm
  apply List.Perm.subperm_right
    (((FcfsPolicy.sortByPriority_perm instants.running scheduler.running).append
      (FcfsPolicy.sortByPriority_perm instants.swapped scheduler.swapped)).symm) |>.mp
  unfold Scheduler.groups
  rw [List.append_assoc]
  exact (List.sublist_append_right _ _).subperm

/--
Where a call that succeeds appends slots, the memory is in order and the slots are appended.
-/
theorem AppendsSlots.exists_run (h : scheduler.AppendsSlots instants memory group)
    (hschedule : scheduler.schedulePolicy instants = .ok (outputs, scheduler'))
    (hgrouped : scheduler.memory.Grouped groups) (hsubperm : scheduler.groups.Subperm groups)
    : memory.Grouped groups
        ∧ group ∈ groups
        ∧ ∃ pairs manager,
            (appendSlotsOf memory.sequences (group.getSeqs memory.sequences .running)).run
              memory.blockManager = .ok pairs manager := by
  rcases passed_of_schedulePolicy hschedule with ⟨before, _, _, hbefore, hpassed, -⟩
  have hstart := grouped_of_beforeRunning hbefore hgrouped hsubperm
  have hpending := (pending_subperm_of_beforeRunning hbefore hgrouped hsubperm).subset
  have hrunningMem : ∀ group ∈ (before.runningStart instants).pending, group ∈ groups :=
    fun group hgroup => hpending (List.mem_append_left _ hgroup)
  cases h with
  | running vars group numRunningTokens hreach hcurrent hcan =>
    rcases hreach with ⟨before', hbefore', hprefills, hreach⟩
    rw [hbefore] at hbefore'
    cases hbefore'
    have hvars := RunningVars.grouped_of_reaches hreach hstart.1 hrunningMem
    refine ⟨hvars.1, hvars.2 group (RunningVars.mem_pending_of_current hcurrent), ?_⟩
    have hruns : ∃ running, (runningLoop scheduler.schedulerConfig.enableChunkedPrefill).run
        (before.runningStart instants) = .ok running := by
      cases hpassed with
      | prefills hsome => exact absurd hprefills hsome
      | preempts running _ hrunning => exact ⟨running, hrunning⟩
      | swaps running _ _ hrunning => exact ⟨running, hrunning⟩
    rcases hruns with ⟨running, hrunning⟩
    rw [Loop.run_of_reaches _ hreach] at hrunning
    rcases RunningVars.exists_next_of_run hrunning hcurrent with ⟨next, hstep, -⟩
    rcases (RunningVars.next_of_step hstep).appendSlots hcurrent hcan
      with ⟨pairs, manager, hrun, -⟩
    exact ⟨pairs, manager, hrun⟩
  | swapped vars group swappedQueue _ _ next hreach hqueue hcan htokens hbudget hswap =>
    rcases hreach with ⟨before', running, hbefore', hprefills, hrunning, hpreempted, hout, hreach⟩
    rw [hbefore] at hbefore'
    cases hbefore'
    have hrunningVars := RunningVars.grouped_of_reaches (RunningVars.reaches_of_run hrunning)
      hstart.1 hrunningMem
    have hvars := SwappedVars.grouped_of_reaches hreach hrunningVars.1
      fun group hgroup => hpending (List.mem_append_right _ hgroup)
    have hgroup : group ∈ groups := hvars.2 group (by simp [hqueue])
    rcases grouped_of_swapIn hvars.1 hgroup hcan hswap with ⟨hnext, -⟩
    refine ⟨hnext, hgroup, ?_⟩
    have hruns : ∃ final, (swappedLoop scheduler.schedulerConfig.enableChunkedPrefill).run
        (before.swappedStart instants running) = .ok final := by
      cases hpassed with
      | prefills hsome => exact absurd hprefills hsome
      | preempts running' _ hrunning' hpreempts =>
        rw [hrunning] at hrunning'
        cases hrunning'
        rcases hpreempts with hpreempts | hpreempts
        . exact absurd hpreempted hpreempts
        . exact absurd hout hpreempts
      | swaps running' final _ hrunning' _ _ hswapped =>
        rw [hrunning] at hrunning'
        cases hrunning'
        exact ⟨final, hswapped⟩
    rcases hruns with ⟨final, hfinal⟩
    rw [Loop.run_of_reaches _ hreach] at hfinal
    rcases SwappedVars.exists_next_of_run hfinal hqueue hcan htokens hbudget hswap
      with ⟨_, pairs, manager, -, -, hrun, -⟩
    exact ⟨pairs, manager, hrun⟩

theorem Collects.start (hgrouped : memory.Grouped groups) (hsubperm : pending.Subperm groups)
    : Collects groups pending memory ∅ := by
  refine ⟨hgrouped, hsubperm, ?_, ?_, ?_⟩
  . intro source target hlookup
    cases hlookup
  . intro source target hlookup
    cases hlookup
  . intro source source' target hlookup
    cases hlookup

/--
When no block is copied twice, the map that a call returns has every copy.
-/
theorem collects_of_schedulePolicy
    (hschedule : scheduler.schedulePolicy instants = .ok (outputs, scheduler'))
    (hgrouped : scheduler.memory.Grouped groups) (hsubperm : scheduler.groups.Subperm groups)
    (honce : ∀ memory group, scheduler.AppendsSlots instants memory group →
      memory.blockManager.CopiesOnce memory.sequences (group.getSeqs memory.sequences .running))
    : (∃ pending memory, Collects groups pending memory outputs.blocksToCopy)
        ∧ ∀ pair, scheduler.ReturnsCopy instants pair →
            outputs.blocksToCopy.lookup pair.1 = some pair.2 := by
  rcases passed_of_schedulePolicy hschedule with ⟨before, _, _, hbefore, hpassed, -, -, hcopies, -⟩
  have hstart := Collects.start (grouped_of_beforeRunning hbefore hgrouped hsubperm).1
    (pending_subperm_of_beforeRunning hbefore hgrouped hsubperm)
  have honceRunning : before.prefills.sequenceGroups = [] → ∀ current,
      (runningLoop scheduler.schedulerConfig.enableChunkedPrefill).Reaches
        (before.runningStart instants) current → current.CopiesOnce := by
    intro hprefills current hreach group numRunningTokens hcurrent hcan
    exact honce _ _ (.running current group numRunningTokens ⟨before, hbefore, hprefills, hreach⟩
      hcurrent hcan)
  rw [hcopies]
  cases hpassed with
  | prefills hsome =>
    refine ⟨⟨_, _, hstart⟩, ?_⟩
    rintro pair ⟨memory, group, pairs, manager, happends, -⟩
    cases happends with
    | running _ _ _ hreach =>
      rcases hreach with ⟨before', hbefore', hprefills, -⟩
      rw [hbefore] at hbefore'
      cases hbefore'
      exact absurd hprefills hsome
    | swapped _ _ _ _ _ _ hreach =>
      rcases hreach with ⟨before', _, hbefore', hprefills, -⟩
      rw [hbefore] at hbefore'
      cases hbefore'
      exact absurd hprefills hsome
  | preempts running hprefills hrunning hpreempts =>
    have hunion : SchedulerSwappedInOutputs.createEmpty.blocksToCopy ∪ running.outputs.blocksToCopy
        = running.outputs.blocksToCopy := AList.empty_union
    rw [hunion]
    refine ⟨⟨_, _, (RunningVars.collects_of_reaches (RunningVars.reaches_of_run hrunning) hstart
      (honceRunning hprefills)).1⟩, ?_⟩
    rintro pair ⟨memory, group, pairs, manager, happends, hrun, hpair⟩
    cases happends with
    | running vars _ _ hreach hcurrent hcan =>
      rcases hreach with ⟨before', hbefore', -, hreach⟩
      rw [hbefore] at hbefore'
      cases hbefore'
      exact RunningVars.lookup_of_reaches hrunning hstart (honceRunning hprefills) hreach hcurrent
        hcan hrun pair hpair
    | swapped _ _ _ _ _ _ hreach =>
      rcases hreach with ⟨before', running', hbefore', -, hrunning', hpreempted, hout, -⟩
      rw [hbefore] at hbefore'
      cases hbefore'
      rw [hrunning] at hrunning'
      cases hrunning'
      rcases hpreempts with hpreempts | hpreempts
      . exact absurd hpreempted hpreempts
      . exact absurd hout hpreempts
  | swaps running swapped hprefills hrunning hpreempted hout hswapped =>
    have hafter := (RunningVars.collects_of_reaches (RunningVars.reaches_of_run hrunning) hstart
      (honceRunning hprefills)).1.mono (List.sublist_append_right _ _)
    have honceSwapped : ∀ current,
        (swappedLoop scheduler.schedulerConfig.enableChunkedPrefill).Reaches
          (before.swappedStart instants running) current →
            current.CopiesOnce scheduler.schedulerConfig.enableChunkedPrefill := by
      intro current hreach group swappedQueue numNewTokens blocksToSwapIn next hqueue hcan htokens
        hbudget hswap
      exact honce _ _ (.swapped current group swappedQueue numNewTokens blocksToSwapIn next
        ⟨before, running, hbefore, hprefills, hrunning, hpreempted, hout, hreach⟩ hqueue hcan htokens
        hbudget hswap)
    have hunion : (before.swappedStart instants running).outputs.blocksToCopy
        ∪ running.outputs.blocksToCopy = running.outputs.blocksToCopy := AList.empty_union
    have hstartSwapped : Collects groups (before.swappedStart instants running).swappedQueue
        (before.swappedStart instants running).scheduler.memory
        ((before.swappedStart instants running).outputs.blocksToCopy
          ∪ running.outputs.blocksToCopy) := by
      rw [hunion]
      exact hafter
    have hfinal := SwappedVars.collects_of_reaches (SwappedVars.reaches_of_run hswapped)
      hstartSwapped honceSwapped
    refine ⟨⟨_, _, hfinal.1⟩, ?_⟩
    rintro pair ⟨memory, group, pairs, manager, happends, hrun, hpair⟩
    cases happends with
    | running vars _ _ hreach hcurrent hcan =>
      rcases hreach with ⟨before', hbefore', -, hreach⟩
      rw [hbefore] at hbefore'
      cases hbefore'
      apply hfinal.2
      rw [hunion]
      exact RunningVars.lookup_of_reaches hrunning hstart (honceRunning hprefills) hreach hcurrent
        hcan hrun pair hpair
    | swapped vars _ _ _ _ _ hreach hqueue hcan htokens hbudget hswap =>
      rcases hreach with ⟨before', running', hbefore', -, hrunning', -, -, hreach⟩
      rw [hbefore] at hbefore'
      cases hbefore'
      rw [hrunning] at hrunning'
      cases hrunning'
      exact SwappedVars.lookup_of_reaches hswapped hstartSwapped honceSwapped hreach hqueue hcan
        htokens hbudget hswap hrun pair hpair

theorem Collects.separate (h : Collects groups pending memory blocksToCopy)
    : Copying.Separate (copiesOf blocksToCopy) := by
  have hlookup : ∀ copy ∈ copiesOf blocksToCopy, blocksToCopy.lookup copy.1 = some copy.2 := by
    intro copy hcopy
    rcases List.mem_map.mp hcopy with ⟨entry, hentry, rfl⟩
    exact AList.mem_entries_iff.mp hentry
  constructor
  . unfold copiesOf
    rw [List.map_map]
    apply List.Nodup.map_on
    . intro entry hentry entry' hentry' heq
      have hlookup := AList.mem_entries_iff.mp hentry
      have hlookup' := AList.mem_entries_iff.mp hentry'
      rcases entry with ⟨source, target⟩
      rcases entry' with ⟨source', target'⟩
      change target = target' at heq
      subst heq
      rw [h.injective source source' target hlookup hlookup']
    . exact List.NodupKeys.nodup blocksToCopy.nodupKeys
  . intro copy hcopy hmem
    have hnone := h.lookup_target copy.1 copy.2 (hlookup copy hcopy)
    rcases List.mem_map.mp hmem with ⟨copy', hcopy', heq⟩
    rw [← heq, hlookup copy' hcopy'] at hnone
    cases hnone

/--
The map of copies that a call of `schedule` returns has every copy that `append_slots` asks for, so
that executing it in any order gives every new block the content of the one it replaces, exactly
when no group has two sequences that write to a last block held by three tables or more.
-/
theorem blocksToCopy_complete_iff (hgrouped : scheduler.Grouped)
    (h : scheduler.schedule instants = .ok (metadata, outputs, scheduler'))
    : (∀ source target, scheduler.ReturnsCopy instants (source, target) →
          outputs.blocksToCopy.lookup source = some target
            ∧ ∀ (γ : Type) (contents : Nat → γ) (copies : List (Nat × Nat)),
                copies.Perm (copiesOf outputs.blocksToCopy) →
                  Copying.execute copies contents target = contents source)
        ↔
      ∀ memory group, scheduler.AppendsSlots instants memory group →
        memory.blockManager.CopiesOnce memory.sequences (group.getSeqs memory.sequences .running) := by
  rcases hgrouped with ⟨groups, hsubperm, hgrouped⟩
  rcases Except.bind_eq_ok.mp h with ⟨⟨outputs', after⟩, hschedule, hmetadata⟩
  rcases Except.bind_eq_ok.mp hmetadata with ⟨_, -, hpure⟩
  cases hpure
  constructor
  . intro hcomplete memory group happends
    rcases happends.exists_run hschedule hgrouped hsubperm
      with ⟨hmemory, hgroup, pairs, manager, hrun⟩
    by_contra honce
    -- the two copies of the same block cannot both be in the map
    rcases exists_twice_of_not_copiesOnce (hmemory.appendable hgroup) hrun honce
      with ⟨source, target, target', hmem, hmem', hne⟩
    have hlookup := (hcomplete source target ⟨memory, group, pairs, manager, happends, hrun, hmem⟩).1
    have hlookup' :=
      (hcomplete source target' ⟨memory, group, pairs, manager, happends, hrun, hmem'⟩).1
    rw [hlookup] at hlookup'
    exact hne (Option.some.inj hlookup')
  . intro honce source target hreturns
    rcases collects_of_schedulePolicy hschedule hgrouped hsubperm honce
      with ⟨⟨pending, memory, hcollects⟩, hlookup⟩
    have hlookup := hlookup (source, target) hreturns
    refine ⟨hlookup, ?_⟩
    intro γ contents copies hperm
    have hcopy : (source, target) ∈ copies := by
      rw [hperm.mem_iff]
      exact List.mem_map.mpr ⟨⟨source, target⟩, AList.mem_entries_iff.mpr hlookup, rfl⟩
    exact Copying.execute_of_mem (hcollects.separate.perm hperm) hcopy

/--
A waiting sequence with a prompt of one token, in a block of four.
-/
def prompted : Sequence where
  prompt := "a"
  sequenceData := SequenceData.new [7] []
  blockSize := 4
  logicalTokenBlocks := [{ blockNumber := 0, blockSize := 4, tokenIds := [7], numTokens := 1 }]
  outputText := ""
  outputLogprobs := []
  sequenceStatus := .waiting
  stopReason := none
  tokens := []

/--
The sequence when it is running and has generated a token.
-/
def generating : Sequence :=
  {
    prompted with
    sequenceData := { SequenceData.new [7] [8] with numComputedTokens := 1, stage := .decode }
    logicalTokenBlocks := [{ blockNumber := 0, blockSize := 4, tokenIds := [7, 8], numTokens := 2 }]
    outputText := "b"
    sequenceStatus := .running
  }

def beamGroup (sequences : List SequenceRef) : SequenceGroup :=
  { oneTokenGroup sequences with nextTokenChooserParams.bestOf := 3 }

/--
A group with one sequence is received, and gets a block for its prompt.
-/
def allocated : RunState :=
  let group := beamGroup [⟨0, 0⟩]
  {
    memory := {
      sequences := group.setStatusWhere (fun _ => prompted)
        (fun _ => prompted.sequenceStatus = .waiting) .running
      blockManager := (BlockSpaceManager.allocate group fun _ => prompted).finalState
        (BlockSpaceManager.new 4 4 4 none)
    }
    groups := [group]
  }

def generated : RunState :=
  {
    allocated with
    memory := {
      allocated.memory with
      sequences := Function.update allocated.heap ⟨0, 0⟩ generating
    }
  }

/--
The first sequence of the group is forked, so that `child` shares its block.
-/
def forkInto (state : RunState) (sequences : List SequenceRef) (child : SequenceRef) : RunState where
  memory := {
    sequences := Function.update state.heap child generating
    blockManager := (BlockSpaceManager.fork 0 child.sequenceId).finalState state.manager
  }
  groups := [beamGroup (child :: sequences)]

def forkedOnce : RunState :=
  forkInto generated [⟨0, 0⟩] ⟨1, 1⟩

def forkedTwice : RunState :=
  forkInto forkedOnce [⟨1, 1⟩, ⟨0, 0⟩] ⟨2, 2⟩

theorem reachable_forkedOnce : Reachable 4 4 4 forkedOnce := by
  let heap : SequenceHeap := fun _ => prompted
  let group := beamGroup [⟨0, 0⟩]
  let arrived : RunState := { RunState.init 4 4 4 heap with groups := [group] }
  have harrive : Step (.init 4 4 4 heap) arrived :=
    Step.arrive _ group heap (by decide) (by decide) (fun _ _ => rfl)
  have hallocate : Step arrived allocated :=
    Step.allocate arrived group (List.mem_singleton_self _) (by decide) (by decide)
  have hgenerate : Step allocated generated :=
    Step.edit allocated ⟨0, 0⟩ generating (by decide)
  have hfork : Step generated forkedOnce :=
    Step.fork generated [] [] group [⟨1, 1⟩, ⟨0, 0⟩] ⟨0, 0⟩ ⟨1, 1⟩ generating rfl
      (List.mem_singleton_self _) (by decide) (by decide) rfl (List.Perm.refl _)
  exact ⟨heap,
    (((Relation.ReflTransGen.refl.tail harrive).tail hallocate).tail hgenerate).tail hfork⟩

theorem reachable_forkedTwice : Reachable 4 4 4 forkedTwice := by
  rcases reachable_forkedOnce with ⟨heap, hrun⟩
  have hfork : Step forkedOnce forkedTwice :=
    Step.fork forkedOnce [] [] (beamGroup [⟨1, 1⟩, ⟨0, 0⟩]) [⟨2, 2⟩, ⟨1, 1⟩, ⟨0, 0⟩] ⟨0, 0⟩ ⟨2, 2⟩
      generating rfl (by decide) (by decide +kernel) (by decide) rfl (List.Perm.refl _)
  exact ⟨heap, hrun.tail hfork⟩

/--
A scheduler with the group of `state`, which is running.
-/
def withRunning (state : RunState) : Scheduler :=
  {
    Scheduler.new ⟨16, 4, 16, 0, true⟩ 4 4 4 none state.heap 0 with
    memory := state.memory
    running := state.groups
  }

theorem grouped_withRunning {state : RunState} (h : Reachable 4 4 4 state)
    (hgroups : ∃ group, state.groups = [group]) : (withRunning state).Grouped := by
  rcases hgroups with ⟨group, hgroups⟩
  have hinvariant := (runInvariant_of_reachable h).rebase
  refine ⟨state.groups, ?_, hinvariant, ?_⟩
  . rw [show (withRunning state).groups = state.groups from List.append_nil _]
  . intro owner howner block _ sequenceId blockTable hlookup _
    have hmem := hinvariant.mem_sequences sequenceId blockTable hlookup
    rw [hgroups, List.mem_singleton] at howner
    unfold RunState.sequences at hmem
    rw [hgroups, List.flatMap_singleton] at hmem
    rw [howner]
    exact hmem

/--
Three sequences share their last block. Two of them leave it for a copy, but only the second copy is
in the map, so the block `2` of the first one is never written.
-/
theorem blocksToCopy_misses_copy
    : ∃ instants metadata outputs scheduler',
        (withRunning forkedTwice).Grouped
          ∧ (withRunning forkedTwice).schedule instants = .ok (metadata, outputs, scheduler')
          ∧ (withRunning forkedTwice).ReturnsCopy instants (3, 2)
          ∧ outputs.blocksToCopy.lookup 3 = some 1 := by
  let instants : Instants := ⟨2, 2, fun _ => 2, 2⟩
  have hrun : ((withRunning forkedTwice).schedule instants).toOption.any
      (fun result => result.2.1.blocksToCopy.lookup 3 = some 1) = true := by
    decide +kernel
  rcases Except.exists_eq_ok_of_any hrun with ⟨⟨metadata, outputs, scheduler'⟩, hok, hlookup⟩
  rw [decide_eq_true_eq] at hlookup
  have hpairs : ((appendSlotsOf forkedTwice.heap ((beamGroup [⟨2, 2⟩, ⟨1, 1⟩, ⟨0, 0⟩]).getSeqs
      forkedTwice.heap .running)).run forkedTwice.manager).okAny ((3, 2) ∈ ·) = true := by
    decide +kernel
  rcases EStateM.Result.exists_eq_ok_of_okAny hpairs with ⟨pairs, manager, hpairs, hmem⟩
  have hreach : (withRunning forkedTwice).ReachesRunning instants {
      (PolicyVars.start (withRunning forkedTwice) (withRunning forkedTwice).newBudget).runningStart
        instants with
      runningQueue := []
      current := some (beamGroup [⟨2, 2⟩, ⟨1, 1⟩, ⟨0, 0⟩], 3) } :=
    ⟨_, rfl, rfl, .single rfl⟩
  have happends : (withRunning forkedTwice).AppendsSlots instants forkedTwice.memory _ :=
    .running _ _ _ hreach rfl (by decide +kernel)
  exact ⟨instants, metadata, outputs, scheduler',
    grouped_withRunning reachable_forkedTwice ⟨_, rfl⟩, hok,
    ⟨_, _, pairs, manager, happends, hpairs, of_decide_eq_true hmem⟩, hlookup⟩

theorem copiesOnce_of_all {manager : BlockSpaceManager} {heap : SequenceHeap} {seqs : List SequenceRef}
    (h : seqs.all (fun seq => ((manager.blockTables.lookup seq.sequenceId).getD []).all
      fun block => (manager.blocks block).refCount ≤ 2) = true)
    : manager.CopiesOnce heap seqs := by
  rintro seq hseq other - - block ⟨init, hlookup, -⟩ -
  have hblocks := List.all_eq_true.mp h seq hseq
  rw [hlookup, Option.getD_some] at hblocks
  exact of_decide_eq_true (List.all_eq_true.mp hblocks block (by simp))

/--
Two sequences share their last block. One leaves it for a copy, which is in the map.
-/
theorem blocksToCopy_complete_iff_two
    : ∃ instants metadata outputs scheduler',
        (withRunning forkedOnce).schedule instants = .ok (metadata, outputs, scheduler')
          ∧ (withRunning forkedOnce).ReturnsCopy instants (3, 2)
          ∧ outputs.blocksToCopy.lookup 3 = some 2 := by
  let instants : Instants := ⟨2, 2, fun _ => 2, 2⟩
  have hrun : ((withRunning forkedOnce).schedule instants).toOption.any (fun _ => true) = true := by
    decide +kernel
  rcases Except.exists_eq_ok_of_any hrun with ⟨⟨metadata, outputs, scheduler'⟩, hok, -⟩
  have hpairs : ((appendSlotsOf forkedOnce.heap ((beamGroup [⟨1, 1⟩, ⟨0, 0⟩]).getSeqs
      forkedOnce.heap .running)).run forkedOnce.manager).okAny ((3, 2) ∈ ·) = true := by
    decide +kernel
  rcases EStateM.Result.exists_eq_ok_of_okAny hpairs with ⟨pairs, manager, hpairs, hmem⟩
  let start := (PolicyVars.start (withRunning forkedOnce) (withRunning forkedOnce).newBudget
    ).runningStart instants
  have hreach : (withRunning forkedOnce).ReachesRunning instants {
      start with
      runningQueue := []
      current := some (beamGroup [⟨1, 1⟩, ⟨0, 0⟩], 2) } :=
    ⟨_, rfl, rfl, .single rfl⟩
  have happends : (withRunning forkedOnce).AppendsSlots instants forkedOnce.memory _ :=
    .running _ _ _ hreach rfl (by decide +kernel)
  have hreturns : (withRunning forkedOnce).ReturnsCopy instants (3, 2) :=
    ⟨_, _, pairs, manager, happends, hpairs, of_decide_eq_true hmem⟩
  refine ⟨instants, metadata, outputs, scheduler', hok, hreturns, ?_⟩
  have hall : ((runningLoop true).states start).all (fun vars =>
      (vars.current.toList.all fun current =>
        (current.1.getSeqs vars.scheduler.memory.sequences .running).all fun seq =>
          ((vars.scheduler.memory.blockManager.blockTables.lookup seq.sequenceId).getD []).all
            fun block => (vars.scheduler.memory.blockManager.blocks block).refCount ≤ 2)) = true := by
    decide +kernel
  refine ((blocksToCopy_complete_iff (grouped_withRunning reachable_forkedOnce ⟨_, rfl⟩) hok).mpr ?_
    3 2 hreturns).1
  intro memory group happends
  cases happends with
  | running vars _ numRunningTokens hreach hcurrent hcan =>
    rcases hreach with ⟨before, hbefore, -, hreach⟩
    cases hbefore
    apply copiesOnce_of_all
    have hvars := List.all_eq_true.mp hall vars (Loop.mem_states_of_reaches _ hreach)
    rw [hcurrent, Option.toList_some] at hvars
    exact List.all_eq_true.mp hvars _ (List.mem_singleton_self _)
  | swapped vars group swappedQueue _ _ _ hreach hqueue =>
    rcases hreach with ⟨before, running, hbefore, -, -, -, -, hreach⟩
    cases hbefore
    have hnil : vars.swappedQueue = [] := by
      refine (swappedLoop true).invariant_of_reaches (I := fun current => current.swappedQueue = [])
        ?_ hreach rfl
      intro current next hcurrent hstep
      have hsublist := (SwappedVars.next_of_step hstep).queue_sublist
      rw [hcurrent] at hsublist
      exact List.sublist_nil.mp hsublist
    rw [hnil] at hqueue
    cases hqueue

end Schedule

end Scheduler

end AtomaInfer
