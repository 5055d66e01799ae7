import Mathlib.Algebra.Order.BigOperators.Group.Multiset
import AtomaInfer.Scheduler.Passes
import AtomaInfer.Scheduler.Refines

/-!
The budget of a pass, for groups with one sequence and distinct request identifiers: what the loops
have counted so far, and that no operation on the budget fails.
-/

namespace AtomaInfer

namespace SequenceGroup

/--
The number of sequences that a group with one unfinished sequence may run.
-/
def width (group : SequenceGroup) : Nat :=
  max 1 group.nextTokenChooserParams.bestOf

theorem one_le_width (group : SequenceGroup) : 1 ≤ group.width :=
  Nat.le_max_left _ _

theorem getMaxNumRunningSeqs_eq_width {group : SequenceGroup} {heap : SequenceHeap}
    {seq : SequenceRef} (hgroup : group.sequences = [seq])
    (hfinished : (heap seq).isFinished = false) : group.getMaxNumRunningSeqs heap = group.width := by
  unfold getMaxNumRunningSeqs width
  split
  . omega
  . have hone : group.numUnfinishedSequences heap = 1 := by
      simp [numUnfinishedSequences, getUnfinishedSequences, hgroup, hfinished]
    omega

theorem card_le_sum_width (groups : Multiset SequenceGroup)
    : Multiset.card groups ≤ (groups.map width).sum := by
  induction groups using Multiset.induction_on with
  | empty => simp
  | cons group groups ih =>
    have := group.one_le_width
    rw [Multiset.card_cons, Multiset.map_cons, Multiset.sum_cons]
    omega

theorem sum_width_le {groups groups' : Multiset SequenceGroup} (h : groups ≤ groups')
    : (groups.map width).sum ≤ (groups'.map width).sum := by
  rcases Multiset.le_iff_exists_add.mp h with ⟨rest, rfl⟩
  rw [Multiset.map_add, Multiset.sum_add]
  omega

end SequenceGroup

namespace SchedulingBudget

variable {budget : SchedulingBudget} {group : SequenceGroup} {counted : Multiset SequenceGroup}

/--
The sequences that the budget has counted are those of the groups in `counted`.
-/
structure Counts (budget : SchedulingBudget) (counted : Multiset SequenceGroup) : Prop where
  requestIds_eq : budget.requestIdsNumCurrSeqs = (counted.map (·.requestId)).toFinset
  numCurrSeqs_eq : budget.numCurrSeqs = (counted.map (·.width)).sum

theorem addNumBatchedTokens_of_notMem {requestId : String} {numTokens : Nat}
    (h : requestId ∉ budget.requestIdsNumBatchedTokens)
    : budget.addNumBatchedTokens requestId numTokens = {
        budget with
        requestIdsNumBatchedTokens := insert requestId budget.requestIdsNumBatchedTokens
        numBatchedTokens := budget.numBatchedTokens + numTokens } := by
  simp [addNumBatchedTokens, h]

theorem subtractNumBatchedTokens_of_notMem {requestId : String} {numTokens : Nat}
    (h : requestId ∉ budget.requestIdsNumBatchedTokens)
    : budget.subtractNumBatchedTokens requestId numTokens = .ok budget := by
  simp [subtractNumBatchedTokens, h]

theorem addNumberSequences_keeps (budget : SchedulingBudget) (requestId : String)
    (numSequences : Nat)
    : ∃ requestIdsNumCurrSeqs numCurrSeqs,
        budget.addNumberSequences requestId numSequences
          = { budget with requestIdsNumCurrSeqs, numCurrSeqs } := by
  unfold addNumberSequences
  split
  . exact ⟨_, _, rfl⟩
  . exact ⟨_, _, rfl⟩

theorem Counts.add (h : budget.Counts counted)
    (hnew : ∀ other ∈ counted, other.requestId ≠ group.requestId)
    : (budget.addNumberSequences group.requestId group.width).Counts (group ::ₘ counted) := by
  have hnotMem : group.requestId ∉ budget.requestIdsNumCurrSeqs := by
    rw [h.requestIds_eq, Multiset.mem_toFinset, Multiset.mem_map]
    rintro ⟨other, hother, heq⟩
    exact hnew other hother heq
  unfold addNumberSequences
  rw [if_neg hnotMem]
  constructor
  . rw [Multiset.map_cons, Multiset.toFinset_cons, ← h.requestIds_eq]
  . rw [Multiset.map_cons, Multiset.sum_cons, ← h.numCurrSeqs_eq]
    apply Nat.add_comm

variable (group) in
/--
A group that was counted is so no more, and the subtraction does not overflow.
-/
theorem Counts.subtract (h : budget.Counts counted) (hnodup : (counted.map (·.requestId)).Nodup)
    (hunique : ∀ other ∈ counted, other.requestId = group.requestId → other = group)
    : ∃ requestIdsNumCurrSeqs numCurrSeqs counted',
        budget.subtractsNumberSequences group.requestId group.width
            = .ok { budget with requestIdsNumCurrSeqs, numCurrSeqs }
          ∧ Counts { budget with requestIdsNumCurrSeqs, numCurrSeqs } counted'
          ∧ counted' ≤ counted
          ∧ (group ∉ counted → counted' = counted) := by
  unfold subtractsNumberSequences
  by_cases hmem : group.requestId ∈ budget.requestIdsNumCurrSeqs
  . have hgroup : group ∈ counted := by
      rw [h.requestIds_eq, Multiset.mem_toFinset, Multiset.mem_map] at hmem
      rcases hmem with ⟨other, hother, heq⟩
      rwa [← hunique other hother heq]
    rcases Multiset.exists_cons_of_mem hgroup with ⟨rest, rfl⟩
    rw [Multiset.map_cons, Multiset.nodup_cons] at hnodup
    have hcount := h.numCurrSeqs_eq
    rw [Multiset.map_cons, Multiset.sum_cons] at hcount
    rw [if_pos hmem, if_pos (by omega)]
    refine ⟨_, _, rest, rfl, ⟨?_, ?_⟩, Multiset.le_cons_self _ _, fun hnotMem => absurd hgroup hnotMem⟩
    . dsimp only
      rw [h.requestIds_eq, Multiset.map_cons, Multiset.toFinset_cons]
      apply Finset.erase_insert
      rw [Multiset.mem_toFinset]
      exact hnodup.1
    . dsimp only
      omega
  . rw [if_neg hmem]
    exact ⟨_, _, counted, rfl, h, le_rfl, fun _ => rfl⟩

end SchedulingBudget

namespace Scheduler

namespace Config

variable {c c' : Config} {enableChunking : Bool} {refs : List SequenceRef}
variable {group : SequenceGroup} {rest counted : Multiset SequenceGroup}
variable {limits : SchedulerConfig} {budget : SchedulingBudget}

/--
Groups with one sequence, which is not empty, and with distinct request identifiers.
-/
structure Simple (c : Config) : Prop where
  single : ∀ group ∈ c.held, ∃ seq, group.sequences = [seq]
    ∧ 1 ≤ (c.memory.sequences seq).length
  nodup : (c.held.map (·.requestId)).Nodup

theorem Move.simple (h : Move enableChunking c c') (hsimple : c.Simple) : c'.Simple := by
  have hheld := h.held_eq
  constructor
  . intro group hgroup
    rw [hheld] at hgroup
    rcases hsimple.single group hgroup with ⟨seq, hsingle, hlength⟩
    refine ⟨seq, hsingle, ?_⟩
    rw [(h.keepsTokens seq).length_eq]
    exact hlength
  . rw [hheld]
    exact hsimple.nodup

theorem Simple.eq_of_requestId_eq (h : c.Simple) {other : SequenceGroup} (hgroup : group ∈ c.held)
    (hother : other ∈ c.held) (heq : other.requestId = group.requestId) : other = group :=
  Multiset.inj_on_of_nodup_map h.nodup other hother group hgroup heq

/--
A group that is in one place only has a request identifier of its own.
-/
theorem Simple.requestId_ne (h : c.Simple) (hheld : c.held = group ::ₘ rest)
    {other : SequenceGroup} (hother : other ∈ rest) : other.requestId ≠ group.requestId := by
  have hnodup := h.nodup
  rw [hheld, Multiset.map_cons, Multiset.nodup_cons] at hnodup
  intro heq
  exact hnodup.1 (Multiset.mem_map.mpr ⟨other, hother, heq⟩)

theorem OK.getMaxNumRunningSeqs_of_running (h : c.OK enableChunking refs)
    (hgroup : group ∈ c.running) : group.getMaxNumRunningSeqs c.memory.sequences = group.width := by
  rcases h.running group hgroup with ⟨seq, hsingle, hstatus⟩
  apply SequenceGroup.getMaxNumRunningSeqs_eq_width hsingle
  simp [Sequence.isFinished, hstatus, SequenceStatus.isFinished]

theorem OK.getMaxNumRunningSeqs_of_swapped (h : c.OK enableChunking refs)
    (hgroup : group ∈ c.swapped) : group.getMaxNumRunningSeqs c.memory.sequences = group.width := by
  rcases h.swapped group hgroup with ⟨seq, hsingle, hstatus⟩
  apply SequenceGroup.getMaxNumRunningSeqs_eq_width hsingle
  simp [Sequence.isFinished, hstatus, SequenceStatus.isFinished]

theorem OK.getMaxNumRunningSeqs_of_waiting (h : c.OK enableChunking refs) (hsimple : c.Simple)
    (hgroup : group ∈ c.waiting) : group.getMaxNumRunningSeqs c.memory.sequences = group.width := by
  have hheld : group ∈ c.held := by
    simp only [held, Multiset.mem_add]
    tauto
  rcases hsimple.single group hheld with ⟨seq, hsingle, -⟩
  have hstatus := h.waiting group hgroup seq (by simp [hsingle])
  apply SequenceGroup.getMaxNumRunningSeqs_eq_width hsingle
  simp [Sequence.isFinished, hstatus, SequenceStatus.isFinished]

/--
What the budget of a pass has counted so far: the tokens of the groups that are scheduled, and the
sequences of the groups in `counted`.
-/
structure Budgeted (c : Config) (limits : SchedulerConfig) (budget : SchedulingBudget)
    (counted : Multiset SequenceGroup) : Prop where
  tokenBudget_eq : budget.tokenBudget = limits.maxNumBatchedTokens
  maxNumSequences_eq : budget.maxNumSequences = limits.maxNumSequences
  tokens_eq : budget.numBatchedTokens = (c.scheduled.map (·.tokenChunkSize)).sum
  batched : ∀ requestId ∈ budget.requestIdsNumBatchedTokens,
    ∃ scheduled ∈ c.scheduled, scheduled.scheduledGroup.requestId = requestId
  counts : budget.Counts counted
  counted_le : counted ≤ c.held

theorem Budgeted.of_eq (h : c.Budgeted limits budget counted) (hheld : c'.held = c.held)
    (hscheduled : c'.scheduled = c.scheduled) : c'.Budgeted limits budget counted := by
  rcases h with ⟨htokenBudget, hmaxNumSequences, htokens, hbatched, hcounts, hle⟩
  rw [← hscheduled] at htokens hbatched
  rw [← hheld] at hle
  exact ⟨htokenBudget, hmaxNumSequences, htokens, hbatched, hcounts, hle⟩

theorem Budgeted.notMem_batched (h : c.Budgeted limits budget counted) (hsimple : c.Simple)
    (hheld : c.held = group ::ₘ rest) (hle : c.scheduled.map (·.scheduledGroup) ≤ rest)
    : group.requestId ∉ budget.requestIdsNumBatchedTokens := by
  intro hmem
  rcases h.batched _ hmem with ⟨scheduled, hscheduled, heq⟩
  exact hsimple.requestId_ne hheld
    (Multiset.mem_of_le hle (Multiset.mem_map_of_mem _ hscheduled)) heq

/--
The budget counts the tokens of a group that is scheduled.
-/
theorem Budgeted.schedule (h : c.Budgeted limits budget counted) {numTokens : Nat}
    (hnotMem : group.requestId ∉ budget.requestIdsNumBatchedTokens) (hheld : c'.held = c.held)
    (hscheduled : c'.scheduled = ⟨group, numTokens⟩ ::ₘ c.scheduled)
    : c'.Budgeted limits (budget.addNumBatchedTokens group.requestId numTokens) counted := by
  rw [SchedulingBudget.addNumBatchedTokens_of_notMem hnotMem]
  refine ⟨h.tokenBudget_eq, h.maxNumSequences_eq, ?_, ?_, ⟨h.counts.requestIds_eq,
    h.counts.numCurrSeqs_eq⟩, hheld ▸ h.counted_le⟩
  . dsimp only
    rw [hscheduled, Multiset.map_cons, Multiset.sum_cons, h.tokens_eq]
    apply Nat.add_comm
  . intro requestId hmem
    rw [hscheduled]
    rcases Finset.mem_insert.mp hmem with rfl | hmem
    . exact ⟨_, Multiset.mem_cons_self _ _, rfl⟩
    . rcases h.batched requestId hmem with ⟨scheduled, hin, heq⟩
      exact ⟨scheduled, Multiset.mem_cons_of_mem hin, heq⟩

/--
The budget counts the sequences of a group that it has not counted yet.
-/
theorem Budgeted.count (h : c.Budgeted limits budget counted) (hgroup : group ∈ c.held)
    (hnew : ∀ other ∈ counted, other.requestId ≠ group.requestId)
    : c.Budgeted limits (budget.addNumberSequences group.requestId group.width)
        (group ::ₘ counted) := by
  have hcounts := h.counts.add hnew
  have hnotMem : group ∉ counted := fun hmem => hnew group hmem rfl
  have hle : group ::ₘ counted ≤ c.held :=
    (Multiset.cons_le_of_notMem hnotMem).mpr ⟨hgroup, h.counted_le⟩
  rcases budget.addNumberSequences_keeps group.requestId group.width with ⟨_, _, heq⟩
  rw [heq] at hcounts ⊢
  exact ⟨h.tokenBudget_eq, h.maxNumSequences_eq, h.tokens_eq, h.batched, hcounts, hle⟩

/--
The subtractions for a group that is not scheduled do not overflow.
-/
theorem Budgeted.exists_subtract (h : c.Budgeted limits budget counted) (hsimple : c.Simple)
    (hgroup : group ∈ c.held) (hnotMem : group.requestId ∉ budget.requestIdsNumBatchedTokens)
    (numTokens : Nat)
    : ∃ budget' counted',
        budget.subtractNumBatchedTokens group.requestId numTokens = .ok budget
          ∧ budget.subtractsNumberSequences group.requestId group.width = .ok budget'
          ∧ c.Budgeted limits budget' counted'
          ∧ counted' ≤ counted
          ∧ (group ∉ counted → counted' = counted)
          ∧ budget'.numBatchedTokens = budget.numBatchedTokens := by
  have hnodup : (counted.map (·.requestId)).Nodup :=
    Multiset.nodup_of_le (Multiset.map_le_map h.counted_le) hsimple.nodup
  rcases h.counts.subtract group hnodup (by
    intro other hother heq
    exact hsimple.eq_of_requestId_eq hgroup (Multiset.mem_of_le h.counted_le hother) heq)
    with ⟨requestIdsNumCurrSeqs, numCurrSeqs, counted', hsubtract, hcounts, hle, heq⟩
  exact ⟨_, counted', SchedulingBudget.subtractNumBatchedTokens_of_notMem hnotMem, hsubtract,
    ⟨h.tokenBudget_eq, h.maxNumSequences_eq, h.tokens_eq, h.batched, hcounts,
      hle.trans h.counted_le⟩, hle, heq, rfl⟩

end Config

end Scheduler

end AtomaInfer
