import AtomaInfer.Scheduler.Conservation
import AtomaInfer.BlockManager.Frame

/-!
Requests that are aborted (`abort_sequence_group`), and what that does to the other requests.
-/

namespace AtomaInfer

namespace Scheduler

/--
The loop over the sequences of the group: those that are not finished are aborted, and their blocks
are to be freed.
-/
def abortSequences (group : SequenceGroup) (sequences : SequenceHeap) : List Nat × SequenceHeap :=
  group.sequences.foldl
    (fun (sequenceIdsToFree, sequences) seq =>
      if (sequences seq).isFinished then
        (sequenceIdsToFree, sequences)
      else
        (
          sequenceIdsToFree ++ [seq.sequenceId],
          Function.update sequences seq ((sequences seq).setSequenceStatus .finishedAborted)
        ))
    ([], sequences)

/--
The loop over the queues. It counts the groups before the one that is aborted.
-/
def abortInGroups (requestId : String) (sequences : SequenceHeap) (index : Nat)
    (groups : List SequenceGroup) : Nat × List Nat × SequenceHeap :=
  match groups with
  | [] => (index, [], sequences)
  | group :: groups =>
    if group.requestId = requestId then
      (index, abortSequences group sequences)
    else
      abortInGroups requestId sequences (index + 1) groups

variable (scheduler : Scheduler)

def abortSequenceGroup (requestId : String) : Except SchedulerError Scheduler := do
  let waitingLength := scheduler.waiting.length
  let runningLength := scheduler.running.length
  let (index, sequenceIdsToFree, sequences) :=
    abortInGroups requestId scheduler.memory.sequences 0
      (scheduler.waiting ++ (scheduler.running ++ scheduler.swapped))
  let scheduler ← sequenceIdsToFree.foldlM
    (fun scheduler sequenceId => scheduler.freeSequence sequenceId)
    { scheduler with memory.sequences := sequences }
  let queueIdentifier :=
    if waitingLength ≤ index ∧ index < waitingLength + runningLength then
      'r'
    else if waitingLength + runningLength < index then
      's'
    else
      'w'
  if queueIdentifier = 'w' then
    return {
      scheduler with
      waiting := scheduler.waiting.filter fun group => group.requestId ≠ requestId
    }
  else if queueIdentifier = 'r' then
    return {
      scheduler with
      running := scheduler.running.filter fun group => group.requestId ≠ requestId
    }
  else
    return {
      scheduler with
      swapped := scheduler.swapped.filter fun group => group.requestId = requestId
    }

def abortSequenceGroups (requestIds : List String) : Except SchedulerError Scheduler :=
  requestIds.foldlM (fun scheduler requestId => scheduler.abortSequenceGroup requestId) scheduler

/--
The request is gone, with its blocks, and all else is as it was.
-/
structure AbortsOnly (requestId : String) (scheduler scheduler' : Scheduler) : Prop where
  gone : ∀ group ∈ scheduler'.groups, group.requestId ≠ requestId
  aborted : ∀ group ∈ scheduler.groups, group.requestId = requestId →
    ∀ seq ∈ group.getUnfinishedSequences scheduler.memory.sequences,
      (scheduler'.memory.sequences seq).sequenceStatus = .finishedAborted
        ∧ scheduler'.memory.blockManager.blockTables.lookup seq.sequenceId = none
  waiting_eq : scheduler'.waiting
    = scheduler.waiting.filter fun group => group.requestId ≠ requestId
  running_eq : scheduler'.running
    = scheduler.running.filter fun group => group.requestId ≠ requestId
  swapped_eq : scheduler'.swapped
    = scheduler.swapped.filter fun group => group.requestId ≠ requestId
  others : ∀ group ∈ scheduler.groups, group.requestId ≠ requestId → ∀ seq ∈ group.sequences,
    scheduler'.memory.sequences seq = scheduler.memory.sequences seq
      ∧ scheduler'.memory.blockManager.blockTables.lookup seq.sequenceId
          = scheduler.memory.blockManager.blockTables.lookup seq.sequenceId
  absent : (∀ group ∈ scheduler.groups, group.requestId ≠ requestId) → scheduler' = scheduler

/--
The request is not swapped out, nothing is when it is in no queue, and no other request has got a
sequence of it that is aborted, or the block table of one.
-/
structure CanAbort (requestId : String) (scheduler : Scheduler) : Prop where
  notSwapped : ∀ group ∈ scheduler.swapped, group.requestId ≠ requestId
  swapped_eq_nil : (∀ group ∈ scheduler.waiting ++ scheduler.running, group.requestId ≠ requestId) →
    scheduler.swapped = []
  apart : ∀ group ∈ scheduler.groups, group.requestId = requestId →
    ∀ seq ∈ group.getUnfinishedSequences scheduler.memory.sequences,
      ∀ other ∈ scheduler.groups, other.requestId ≠ requestId → ∀ seq' ∈ other.sequences,
        seq' ≠ seq
          ∧ (seq'.sequenceId = seq.sequenceId →
              scheduler.memory.blockManager.blockTables.lookup seq.sequenceId = none)

variable {scheduler} {scheduler' : Scheduler} {requestId : String} {group : SequenceGroup}
variable (sequences : SequenceHeap)

/--
A sequence that occurs twice is aborted once.
-/
theorem abortSequences_eq (group : SequenceGroup) (sequences : SequenceHeap)
    : (∀ id, id ∈ (abortSequences group sequences).1
          ↔ ∃ seq ∈ group.getUnfinishedSequences sequences, seq.sequenceId = id)
        ∧ ∀ seq, (abortSequences group sequences).2 seq
            = if seq ∈ group.getUnfinishedSequences sequences then
                (sequences seq).setSequenceStatus .finishedAborted
              else
                sequences seq := by
  unfold abortSequences SequenceGroup.getUnfinishedSequences
  induction group.sequences using List.reverseRecOn with
  | nil => simp
  | append_singleton refs last ih =>
    rw [List.foldl_append]
    generalize refs.foldl _ ([], sequences) = acc at ih ⊢
    rcases acc with ⟨ids, heap⟩
    rcases ih with ⟨hids, hheap⟩
    dsimp only at hids hheap
    have hmem : ∀ seq, seq ∈ (refs ++ [last]).filter (fun seq => !(sequences seq).isFinished)
        ↔ seq ∈ refs.filter (fun seq => !(sequences seq).isFinished)
          ∨ seq = last ∧ (sequences last).isFinished = false := by
      intro seq
      simp only [List.mem_filter, List.mem_append, List.mem_singleton, Bool.not_eq_true']
      constructor
      . rintro ⟨hrefs | rfl, hunfinished⟩
        . exact .inl ⟨hrefs, hunfinished⟩
        . exact .inr ⟨rfl, hunfinished⟩
      . rintro (⟨hrefs, hunfinished⟩ | ⟨rfl, hunfinished⟩)
        . exact ⟨.inl hrefs, hunfinished⟩
        . exact ⟨.inr rfl, hunfinished⟩
    simp only [hmem]
    by_cases hlast : last ∈ refs.filter (fun seq => !(sequences seq).isFinished)
    . have hfinished : (heap last).isFinished = true := by
        rw [hheap, if_pos hlast]
        rfl
      have hsame : ∀ seq, (seq ∈ refs.filter (fun seq => !(sequences seq).isFinished)
          ∨ seq = last ∧ (sequences last).isFinished = false)
            ↔ seq ∈ refs.filter (fun seq => !(sequences seq).isFinished) := by
        intro seq
        constructor
        . rintro (h | ⟨rfl, -⟩)
          . exact h
          . exact hlast
        . exact .inl
      simp only [List.foldl_cons, List.foldl_nil, hfinished, if_true, hsame]
      exact ⟨hids, hheap⟩
    . have hkeeps : heap last = sequences last := by rw [hheap, if_neg hlast]
      simp only [List.foldl_cons, List.foldl_nil, hkeeps]
      cases hfinished : (sequences last).isFinished with
      | true =>
        simp only [if_true, Bool.true_eq_false, and_false, or_false]
        exact ⟨hids, hheap⟩
      | false =>
        simp only [Bool.false_eq_true, if_false, and_true]
        constructor
        . intro id
          rw [List.mem_append, List.mem_singleton, hids]
          constructor
          . rintro (⟨seq, hseq, rfl⟩ | rfl)
            . exact ⟨seq, .inl hseq, rfl⟩
            . exact ⟨last, .inr rfl, rfl⟩
          . rintro ⟨seq, hseq | rfl, rfl⟩
            . exact .inl ⟨seq, hseq, rfl⟩
            . exact .inr rfl
        . intro seq
          by_cases heq : seq = last
          . rw [heq, Function.update_self, if_pos (.inr rfl)]
          . rw [Function.update_of_ne heq, hheap]
            simp [heq]

theorem abortInGroups_of_notMem {groups : List SequenceGroup} (index : Nat)
    (h : ∀ group ∈ groups, group.requestId ≠ requestId)
    : abortInGroups requestId sequences index groups = (index + groups.length, [], sequences) := by
  induction groups generalizing index with
  | nil => rfl
  | cons group groups ih =>
    unfold abortInGroups
    rw [if_neg (h group List.mem_cons_self),
      ih _ fun group hgroup => h group (List.mem_cons_of_mem _ hgroup), List.length_cons,
      Nat.add_assoc, Nat.add_comm 1]

theorem abortInGroups_of_split {groups before after : List SequenceGroup} (index : Nat)
    (heq : groups = before ++ group :: after) (hbefore : ∀ other ∈ before, other.requestId ≠ requestId)
    (hid : group.requestId = requestId)
    : abortInGroups requestId sequences index groups
        = (index + before.length, abortSequences group sequences) := by
  subst heq
  induction before generalizing index with
  | nil => exact if_pos hid
  | cons first before ih =>
    rw [List.cons_append]
    unfold abortInGroups
    rw [if_neg (hbefore first List.mem_cons_self),
      ih _ fun other hother => hbefore other (List.mem_cons_of_mem _ hother), List.length_cons,
      Nat.add_assoc, Nat.add_comm 1]

variable {sequences}

theorem freeSequences_eq_ok {ids : List Nat}
    (h : ids.foldlM (fun scheduler sequenceId => freeSequence scheduler sequenceId) scheduler
      = .ok scheduler')
    : ∃ blockManager,
        scheduler' = { scheduler with memory.blockManager := blockManager }
          ∧ ∀ id, blockManager.blockTables.lookup id
              = if id ∈ ids then none
                else scheduler.memory.blockManager.blockTables.lookup id := by
  induction ids generalizing scheduler with
  | nil =>
    cases h
    exact ⟨_, rfl, fun id => by simp⟩
  | cons first ids ih =>
    rw [List.foldlM_cons] at h
    rcases Except.bind_eq_ok.mp h with ⟨freed, hfree, hrest⟩
    rcases Except.bind_eq_ok.mp hfree with ⟨⟨u, freed'⟩, hmemory, hpure⟩
    cases hpure
    rcases onBlockManager_eq_ok hmemory with ⟨blockManager, hrun, rfl⟩
    have hreplaces := BlockSpaceManager.of_free hrun
    rcases ih hrest with ⟨blockManager', rfl, hlookup⟩
    refine ⟨blockManager', rfl, fun id => ?_⟩
    simp only [hlookup, hreplaces.lookup_eq, List.mem_cons]
    by_cases hfirst : id = first <;> simp [hfirst]

theorem abortSequenceGroup_eq_ok {index : Nat} {ids : List Nat}
    (h : scheduler.abortSequenceGroup requestId = .ok scheduler')
    (hfind : abortInGroups requestId scheduler.memory.sequences 0
      (scheduler.waiting ++ (scheduler.running ++ scheduler.swapped)) = (index, ids, sequences))
    : (∀ id, scheduler'.memory.blockManager.blockTables.lookup id
          = if id ∈ ids then none else scheduler.memory.blockManager.blockTables.lookup id)
        ∧ (ids = [] → scheduler'.memory.blockManager = scheduler.memory.blockManager)
        ∧ scheduler' = {
            scheduler with
            memory := ⟨sequences, scheduler'.memory.blockManager⟩
            waiting :=
              if index < scheduler.waiting.length
                  ∨ index = scheduler.waiting.length + scheduler.running.length then
                scheduler.waiting.filter fun group => group.requestId ≠ requestId
              else
                scheduler.waiting
            running :=
              if scheduler.waiting.length ≤ index
                  ∧ index < scheduler.waiting.length + scheduler.running.length then
                scheduler.running.filter fun group => group.requestId ≠ requestId
              else
                scheduler.running
            swapped :=
              if scheduler.waiting.length + scheduler.running.length < index then
                scheduler.swapped.filter fun group => group.requestId = requestId
              else
                scheduler.swapped } := by
  unfold abortSequenceGroup at h
  rw [hfind] at h
  dsimp only at h
  rcases Except.bind_eq_ok.mp h with ⟨freed, hfree, h⟩
  have hnil : ids = [] → freed.memory.blockManager = scheduler.memory.blockManager := by
    rintro rfl
    cases hfree
    rfl
  rcases freeSequences_eq_ok hfree with ⟨blockManager, rfl, hlookup⟩
  dsimp only at h
  by_cases hrunning : scheduler.waiting.length ≤ index
      ∧ index < scheduler.waiting.length + scheduler.running.length
  . rw [if_pos hrunning, if_neg (by decide), if_pos rfl] at h
    cases h
    refine ⟨hlookup, hnil, ?_⟩
    rw [if_neg (by omega), if_pos hrunning, if_neg (by omega)]
  . rw [if_neg hrunning] at h
    by_cases hswapped : scheduler.waiting.length + scheduler.running.length < index
    . rw [if_pos hswapped, if_neg (by decide), if_neg (by decide)] at h
      cases h
      refine ⟨hlookup, hnil, ?_⟩
      rw [if_neg (by omega), if_neg hrunning, if_pos hswapped]
    . rw [if_neg hswapped, if_pos rfl] at h
      cases h
      refine ⟨hlookup, hnil, ?_⟩
      rw [if_pos (by omega), if_neg hrunning, if_neg hswapped]

theorem exists_first {α : Type} {p : α → Prop} [DecidablePred p] {xs : List α} (h : ∃ x ∈ xs, p x)
    : ∃ before x after, xs = before ++ x :: after ∧ p x ∧ ∀ y ∈ before, ¬ p y := by
  rcases h with ⟨x, hx, hp⟩
  have hsome : (xs.find? fun x => decide (p x)).isSome = true :=
    List.find?_isSome.mpr ⟨x, hx, decide_eq_true hp⟩
  rcases Option.isSome_iff_exists.mp hsome with ⟨first, hfind⟩
  rcases List.find?_eq_some_iff_append.mp hfind with ⟨hfirst, before, after, rfl, hbefore⟩
  exact ⟨before, first, after, rfl, of_decide_eq_true hfirst,
    fun y hy => by simpa using hbefore y hy⟩

/--
What becomes of the sequences and their tables, in whichever queue the request is.
-/
theorem memory_of_found (hnodup : (scheduler.groups.map (·.requestId)).Nodup)
    (hgroup : group ∈ scheduler.groups) (hid : group.requestId = requestId)
    (hsequences : scheduler'.memory.sequences
      = (abortSequences group scheduler.memory.sequences).2)
    (htables : ∀ id, scheduler'.memory.blockManager.blockTables.lookup id
      = if id ∈ (abortSequences group scheduler.memory.sequences).1 then none
        else scheduler.memory.blockManager.blockTables.lookup id)
    : (∀ group ∈ scheduler.groups, group.requestId = requestId →
          ∀ seq ∈ group.getUnfinishedSequences scheduler.memory.sequences,
            (scheduler'.memory.sequences seq).sequenceStatus = .finishedAborted
              ∧ scheduler'.memory.blockManager.blockTables.lookup seq.sequenceId = none)
        ∧ ((∀ group ∈ scheduler.groups, group.requestId ≠ requestId → ∀ seq ∈ group.sequences,
              scheduler'.memory.sequences seq = scheduler.memory.sequences seq
                ∧ scheduler'.memory.blockManager.blockTables.lookup seq.sequenceId
                    = scheduler.memory.blockManager.blockTables.lookup seq.sequenceId)
            ↔ ∀ group ∈ scheduler.groups, group.requestId = requestId →
                ∀ seq ∈ group.getUnfinishedSequences scheduler.memory.sequences,
                  ∀ other ∈ scheduler.groups, other.requestId ≠ requestId →
                    ∀ seq' ∈ other.sequences,
                      seq' ≠ seq
                        ∧ (seq'.sequenceId = seq.sequenceId →
                            scheduler.memory.blockManager.blockTables.lookup seq.sequenceId
                              = none)) := by
  rcases abortSequences_eq group scheduler.memory.sequences with ⟨hids, hheap⟩
  have hunique : ∀ other ∈ scheduler.groups, other.requestId = requestId → other = group :=
    fun other hother hotherId =>
      List.inj_on_of_nodup_map hnodup hother hgroup (hotherId.trans hid.symm)
  refine ⟨?_, ?_, ?_⟩
  . intro other hother hotherId seq hseq
    rw [hunique other hother hotherId] at hseq
    rw [hsequences, hheap, if_pos hseq, htables, if_pos ((hids _).mpr ⟨seq, hseq, rfl⟩)]
    exact ⟨rfl, rfl⟩
  . intro hothers found hfound hfoundId seq hseq other hother hotherId seq' hseq'
    rw [hunique found hfound hfoundId] at hseq
    rcases hothers other hother hotherId seq' hseq' with ⟨hsame, hlookup⟩
    constructor
    . rintro rfl
      rw [hsequences, hheap, if_pos hseq] at hsame
      have hunfinished := (List.mem_filter.mp hseq).2
      rw [← hsame] at hunfinished
      cases hunfinished
    . intro heq
      rw [htables, heq, if_pos ((hids _).mpr ⟨seq, hseq, rfl⟩)] at hlookup
      exact hlookup.symm
  . intro hapart other hother hotherId seq' hseq'
    have hapart' := fun seq hseq => hapart group hgroup hid seq hseq other hother hotherId seq' hseq'
    constructor
    . rw [hsequences, hheap, if_neg fun hseq => (hapart' seq' hseq).1 rfl]
    . rw [htables]
      split
      . next hmem =>
        rcases (hids _).mp hmem with ⟨seq, hseq, heq⟩
        rw [← heq, (hapart' seq hseq).2 heq.symm]
      . rfl

theorem filter_eq_self_of_absent {groups : List SequenceGroup}
    (h : ∀ group ∈ groups, group.requestId ≠ requestId)
    : groups.filter (fun group => decide (group.requestId ≠ requestId)) = groups :=
  List.filter_eq_self.mpr fun group hgroup => decide_eq_true (h group hgroup)

theorem not_mem_filter (groups : List SequenceGroup)
    : ∀ group ∈ groups.filter (fun group => decide (group.requestId ≠ requestId)),
        group.requestId ≠ requestId :=
  fun _ hgroup => of_decide_eq_true (List.mem_filter.mp hgroup).2

/--
The request is in one of the two queues that it is removed from.
-/
theorem abortsOnly_iff_of_removed (hnodup : (scheduler.groups.map (·.requestId)).Nodup)
    (hqueued : group ∈ scheduler.waiting ++ scheduler.running) (hid : group.requestId = requestId)
    (hsequences : scheduler'.memory.sequences
      = (abortSequences group scheduler.memory.sequences).2)
    (htables : ∀ id, scheduler'.memory.blockManager.blockTables.lookup id
      = if id ∈ (abortSequences group scheduler.memory.sequences).1 then none
        else scheduler.memory.blockManager.blockTables.lookup id)
    (hwaiting : scheduler'.waiting
      = scheduler.waiting.filter fun group => group.requestId ≠ requestId)
    (hrunning : scheduler'.running
      = scheduler.running.filter fun group => group.requestId ≠ requestId)
    (hswapped : scheduler'.swapped = scheduler.swapped)
    : AbortsOnly requestId scheduler scheduler' ↔ CanAbort requestId scheduler := by
  have hgroup : group ∈ scheduler.groups := List.mem_append_left _ hqueued
  have hnotSwapped : ∀ other ∈ scheduler.swapped, other.requestId ≠ requestId := by
    intro other hother hotherId
    rw [groups, List.map_append, List.nodup_append] at hnodup
    exact hnodup.2.2 _ (List.mem_map_of_mem hqueued) _ (List.mem_map_of_mem hother)
      (hid.trans hotherId.symm)
  rcases memory_of_found hnodup hgroup hid hsequences htables with ⟨haborted, hothers⟩
  constructor
  . intro h
    exact ⟨hnotSwapped, fun habsent => absurd hid (habsent group hqueued), hothers.mp h.others⟩
  . intro h
    refine ⟨?_, haborted, hwaiting, hrunning, ?_, hothers.mpr h.apart,
      fun habsent => absurd hid (habsent group hgroup)⟩
    . simp only [groups, List.mem_append, hwaiting, hrunning, hswapped]
      rintro other ((hother | hother) | hother)
      . exact not_mem_filter _ other hother
      . exact not_mem_filter _ other hother
      . exact hnotSwapped other hother
    . rw [hswapped, filter_eq_self_of_absent hnotSwapped]

/--
The request is removed from the waiting or the running queue. Of the swapped queue the first group
is left when it is the one that is aborted, and only the aborted one otherwise.
-/
theorem abortsOnly_iff (hnodup : (scheduler.groups.map (·.requestId)).Nodup)
    (h : scheduler.abortSequenceGroup requestId = .ok scheduler')
    : AbortsOnly requestId scheduler scheduler' ↔ CanAbort requestId scheduler := by
  have hdisjoint : ∀ queued ∈ scheduler.waiting, ∀ running ∈ scheduler.running,
      queued.requestId ≠ running.requestId := by
    intro queued hqueued running hrunning
    rw [groups, List.map_append, List.map_append, List.nodup_append, List.nodup_append] at hnodup
    exact hnodup.1.2.2 _ (List.mem_map_of_mem hqueued) _ (List.mem_map_of_mem hrunning)
  by_cases hwaiting : ∃ group ∈ scheduler.waiting, group.requestId = requestId
  . rcases exists_first hwaiting with ⟨before, group, after, heq, hid, hbefore⟩
    have hgroup : group ∈ scheduler.waiting := by
      rw [heq]
      exact List.mem_append_right _ List.mem_cons_self
    have hlength : before.length < scheduler.waiting.length := by
      rw [heq, List.length_append, List.length_cons]
      omega
    have hall : scheduler.waiting ++ (scheduler.running ++ scheduler.swapped)
        = before ++ group :: (after ++ (scheduler.running ++ scheduler.swapped)) := by
      rw [heq, List.append_assoc, List.cons_append]
    have hfind := abortInGroups_of_split scheduler.memory.sequences 0 hall hbefore hid
    rcases abortSequenceGroup_eq_ok h hfind with ⟨htables, -, heq'⟩
    have hrunning : ∀ other ∈ scheduler.running, other.requestId ≠ requestId :=
      fun other hother hotherId => hdisjoint group hgroup other hother (hid.trans hotherId.symm)
    refine abortsOnly_iff_of_removed hnodup (List.mem_append_left _ hgroup) hid ?_ htables ?_ ?_ ?_
      <;> rw [heq'] <;> dsimp only
    . rfl
    . rw [if_pos (by omega)]
    . rw [if_neg (by omega), filter_eq_self_of_absent hrunning]
    . rw [if_neg (by omega)]
  . push Not at hwaiting
    by_cases hrunning : ∃ group ∈ scheduler.running, group.requestId = requestId
    . rcases exists_first hrunning with ⟨before, group, after, heq, hid, hbefore⟩
      have hgroup : group ∈ scheduler.running := by
        rw [heq]
        exact List.mem_append_right _ List.mem_cons_self
      have hlength : before.length < scheduler.running.length := by
        rw [heq, List.length_append, List.length_cons]
        omega
      have hall : scheduler.waiting ++ (scheduler.running ++ scheduler.swapped)
          = scheduler.waiting ++ before ++ group :: (after ++ scheduler.swapped) := by
        rw [heq]
        simp
      have hfind := abortInGroups_of_split scheduler.memory.sequences 0 hall
        (fun other hother => (List.mem_append.mp hother).elim (hwaiting other) (hbefore other)) hid
      rw [List.length_append] at hfind
      rcases abortSequenceGroup_eq_ok h hfind with ⟨htables, -, heq'⟩
      refine abortsOnly_iff_of_removed hnodup (List.mem_append_right _ hgroup) hid ?_ htables ?_ ?_
        ?_ <;> rw [heq'] <;> dsimp only
      . rfl
      . rw [if_neg (by omega), filter_eq_self_of_absent hwaiting]
      . rw [if_pos (by omega)]
      . rw [if_neg (by omega)]
    . push Not at hrunning
      have hqueued : ∀ other ∈ scheduler.waiting ++ scheduler.running,
          other.requestId ≠ requestId :=
        fun other hother => (List.mem_append.mp hother).elim (hwaiting other) (hrunning other)
      by_cases hswapped : ∃ group ∈ scheduler.swapped, group.requestId = requestId
      . rcases exists_first hswapped with ⟨before, group, after, heq, hid, hbefore⟩
        have hgroup : group ∈ scheduler.swapped := by
          rw [heq]
          exact List.mem_append_right _ List.mem_cons_self
        have hall : scheduler.waiting ++ (scheduler.running ++ scheduler.swapped)
            = scheduler.waiting ++ scheduler.running ++ before ++ group :: after := by
          rw [heq]
          simp
        have hfind := abortInGroups_of_split scheduler.memory.sequences 0 hall
          (fun other hother => (List.mem_append.mp hother).elim (hqueued other) (hbefore other)) hid
        rw [List.length_append, List.length_append] at hfind
        rcases abortSequenceGroup_eq_ok h hfind with ⟨-, -, heq'⟩
        constructor
        . intro habort
          -- the group is still in the queue
          refine absurd hid (habort.gone group (List.mem_append_right _ ?_))
          rw [heq']
          dsimp only
          split
          . exact List.mem_filter.mpr ⟨hgroup, decide_eq_true hid⟩
          . exact hgroup
        . intro hcan
          exact absurd hid (hcan.notSwapped group hgroup)
      . push Not at hswapped
        have habsent : ∀ other ∈ scheduler.waiting ++ (scheduler.running ++ scheduler.swapped),
            other.requestId ≠ requestId := by
          rw [← List.append_assoc]
          exact fun other hother =>
            (List.mem_append.mp hother).elim (hqueued other) (hswapped other)
        have hfind := abortInGroups_of_notMem scheduler.memory.sequences 0 habsent
        rw [List.length_append, List.length_append] at hfind
        rcases abortSequenceGroup_eq_ok h hfind with ⟨-, hmanager, heq'⟩
        rw [hmanager rfl] at heq'
        have habsent' : ∀ group ∈ scheduler.groups, group.requestId ≠ requestId := by
          unfold groups
          rw [List.append_assoc]
          exact habsent
        constructor
        . intro habort
          refine ⟨hswapped, fun _ => ?_, fun group hgroup hid => absurd hid (habsent' group hgroup)⟩
          by_contra hne
          have hpos : 0 < scheduler.swapped.length := List.length_pos_iff.mpr hne
          have hcleared : scheduler'.swapped = [] := by
            rw [heq']
            dsimp only
            rw [if_pos (by omega), List.filter_eq_nil_iff]
            intro group hgroup
            simpa using hswapped group hgroup
          rw [habort.absent habsent'] at hcleared
          exact hne hcleared
        . intro hcan
          have hnil := hcan.swapped_eq_nil hqueued
          have hself : scheduler' = scheduler := by
            rw [heq', hnil]
            dsimp only [List.length_nil]
            rw [if_pos (by omega), if_neg (by omega), if_neg (by omega),
              filter_eq_self_of_absent hwaiting, ← hnil]
          rw [hself]
          refine ⟨habsent', fun group hgroup hid => absurd hid (habsent' group hgroup), ?_, ?_, ?_,
            fun _ _ _ _ _ => ⟨rfl, rfl⟩, fun _ => rfl⟩
          . rw [filter_eq_self_of_absent hwaiting]
          . rw [filter_eq_self_of_absent hrunning]
          . rw [filter_eq_self_of_absent hswapped]

/--
A request is running, one waits and one is swapped out.
-/
def oneInEach : Except SchedulerError Scheduler := do
  let start := Scheduler.new ⟨2, 2, 2, 0, false⟩ 1 4 4 none
    (Function.update (fun _ => waitingSequence [5]) ⟨2, 2⟩
      { waitingSequence [5] with sequenceStatus := .swapped }) 0
  let scheduler ← start.allocateAndSetRunning (singleGroup "a" 0 0)
  return {
    scheduler with
    waiting := [singleGroup "b" 1 1]
    running := [singleGroup "a" 0 0]
    swapped := [singleGroup "c" 2 2] }

theorem abortsOnly_iff_running
    : ∃ scheduler scheduler',
        oneInEach = .ok scheduler
          ∧ (scheduler.memory.blockManager.blockTables.lookup 0).isSome = true
          ∧ scheduler.abortSequenceGroup "a" = .ok scheduler'
          ∧ AbortsOnly "a" scheduler scheduler' := by
  have hrun : oneInEach.toOption.any (fun scheduler =>
      (scheduler.groups.map (·.requestId)).Nodup
        ∧ (scheduler.memory.blockManager.blockTables.lookup 0).isSome = true
        ∧ (scheduler.abortSequenceGroup "a").toOption.isSome = true
        ∧ (∀ group ∈ scheduler.swapped, group.requestId ≠ "a")
        ∧ (∃ group ∈ scheduler.waiting ++ scheduler.running, group.requestId = "a")
        ∧ ∀ group ∈ scheduler.groups, group.requestId = "a" →
            ∀ seq ∈ group.getUnfinishedSequences scheduler.memory.sequences,
              ∀ other ∈ scheduler.groups, other.requestId ≠ "a" → ∀ seq' ∈ other.sequences,
                seq' ≠ seq ∧ seq'.sequenceId ≠ seq.sequenceId) = true := by
    decide +kernel
  rcases Except.exists_eq_ok_of_any hrun with ⟨scheduler, hstart, hvalues⟩
  rcases of_decide_eq_true hvalues with ⟨hnodup, htable, habort, hnotSwapped, hqueued, hapart⟩
  rcases Option.isSome_iff_exists.mp habort with ⟨scheduler', hsome⟩
  have habort := Except.toOption_eq_some hsome
  refine ⟨scheduler, scheduler', hstart, htable, habort, (abortsOnly_iff hnodup habort).mpr
    ⟨hnotSwapped, ?_, ?_⟩⟩
  . intro habsent
    rcases hqueued with ⟨group, hgroup, hid⟩
    exact absurd hid (habsent group hgroup)
  . intro group hgroup hid seq hseq other hother hne seq' hseq'
    rcases hapart group hgroup hid seq hseq other hother hne seq' hseq' with ⟨hseqs, hids⟩
    exact ⟨hseqs, fun hsame => absurd hsame hids⟩

def twoSwapped : Scheduler :=
  {
    Scheduler.new ⟨2, 2, 2, 0, false⟩ 1 4 4 none
      (fun _ => { waitingSequence [5] with sequenceStatus := .swapped }) 0 with
    swapped := [singleGroup "a" 0 0, singleGroup "b" 1 1]
  }

/--
The second request is aborted, and it is the one that is left.
-/
theorem not_abortsOnly_two_swapped
    : ∃ scheduler',
        twoSwapped.abortSequenceGroup "b" = .ok scheduler'
          ∧ ¬ AbortsOnly "b" twoSwapped scheduler' := by
  have hrun : (twoSwapped.abortSequenceGroup "b").toOption.any
      (fun scheduler' => scheduler'.swapped = [singleGroup "b" 1 1]) = true := by
    decide +kernel
  rcases Except.exists_eq_ok_of_any hrun with ⟨scheduler', habort, hswapped⟩
  refine ⟨scheduler', habort, fun h => ?_⟩
  refine h.gone (singleGroup "b" 1 1) (List.mem_append_right _ ?_) rfl
  rw [of_decide_eq_true hswapped]
  exact List.mem_singleton_self _

end Scheduler

end AtomaInfer
