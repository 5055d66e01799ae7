import Mathlib.Data.List.Nodup
import AtomaInfer.Sequence.Group
import AtomaInfer.Util.EStateM

/-!
The counters of computed tokens. The sequences of a group are updated one after the other, and the
first one that is asked for more tokens than it has stops the update, after its own counter and
those before it have changed.
-/

namespace AtomaInfer

namespace SequenceData

variable {data data' : SequenceData} {n : Nat}

/--
The data after `n` more tokens are computed.
-/
def count (n : Nat) (data : SequenceData) : SequenceData :=
  {
    data with
    numComputedTokens := data.numComputedTokens + n
    stage := if data.numComputedTokens + n = data.length then .decode else data.stage
  }

theorem updateNumComputedTokens_of_le (h : data.numComputedTokens + n ≤ data.length)
    : (updateNumComputedTokens n).run data = .ok () (data.count n) := by
  let raised : SequenceData := { data with numComputedTokens := data.numComputedTokens + n }
  have hle : raised.numComputedTokens ≤ raised.length := h
  have hiff : raised.getNumUncomputedTokens = some 0
      ↔ data.numComputedTokens + n = data.length := by
    unfold getNumUncomputedTokens
    rw [if_pos hle, Option.some.injEq]
    change data.length - (data.numComputedTokens + n) = 0 ↔ _
    omega
  unfold updateNumComputedTokens count
  simp only [EStateM.run_bind, EStateM.run_modify, EStateM.run_get]
  rw [if_pos hle]
  by_cases hfull : data.numComputedTokens + n = data.length
  . rw [if_pos (hiff.mpr hfull), if_pos hfull]
    rfl
  . rw [if_neg (fun hzero => hfull (hiff.mp hzero)), if_neg hfull]
    rfl

theorem getNumUncomputedTokens_ne_none (h : data.numComputedTokens ≤ data.length)
    : data.getNumUncomputedTokens ≠ none := by
  unfold getNumUncomputedTokens
  rw [if_pos h]
  simp

/--
The counter is raised before it is compared with the length.
-/
theorem updateNumComputedTokens_of_lt (h : data.length < data.numComputedTokens + n)
    : (updateNumComputedTokens n).run data
        = .error .invalidNumberGeneratedTokens
            { data with numComputedTokens := data.numComputedTokens + n } := by
  have hnot : ¬ data.numComputedTokens + n ≤ data.length := by omega
  unfold updateNumComputedTokens
  simp only [EStateM.run_bind, EStateM.run_modify, EStateM.run_get]
  exact congrFun (if_neg hnot) _

theorem updateNumComputedTokens_eq_ok {u : Unit} (h : (updateNumComputedTokens n).run data = .ok u data')
    : data.numComputedTokens + n ≤ data.length
        ∧ data' = {
            data with
            numComputedTokens := data.numComputedTokens + n
            stage := if data.numComputedTokens + n = data.length then .decode else data.stage } := by
  rcases Nat.lt_or_ge data.length (data.numComputedTokens + n) with hlt | hle
  . rw [updateNumComputedTokens_of_lt hlt] at h
    cases h
  . rw [updateNumComputedTokens_of_le hle] at h
    cases h
    exact ⟨hle, rfl⟩

end SequenceData

namespace Sequence

variable (n : Nat) (sequence : Sequence)

def count : Sequence :=
  { sequence with sequenceData := sequence.sequenceData.count n }

/--
The sequence is not finished and has fewer tokens than would be computed.
-/
def Rejects : Prop :=
  sequence.isFinished = false ∧ sequence.length < sequence.sequenceData.numComputedTokens + n

instance : Decidable (sequence.Rejects n) :=
  inferInstanceAs (Decidable (_ ∧ _))

/--
The sequence after an update that it does not reject. Finished sequences are passed over.
-/
def counted : Sequence :=
  if sequence.isFinished then sequence else sequence.count n

/--
The sequence after an update that it rejects.
-/
def overdrawn : Sequence :=
  {
    sequence with
    sequenceData.numComputedTokens := sequence.sequenceData.numComputedTokens + n
  }

variable {sequence}

/--
An update by no tokens changes nothing but the stage of a sequence without tokens to compute.
-/
theorem counted_zero
    (h : sequence.isFinished = false →
      sequence.sequenceData.numComputedTokens = sequence.length →
        sequence.sequenceData.stage = .decode)
    : sequence.counted 0 = sequence := by
  unfold counted
  split
  . rfl
  . next hunfinished =>
    unfold count SequenceData.count
    split
    . next hfull =>
      rw [← h (by simpa using hunfinished) hfull]
      rfl
    . rfl

end Sequence

namespace SequenceGroup

variable {group : SequenceGroup} {heap heap' : SequenceHeap} {n : Nat}
variable {sequences before after : List SequenceRef} {seq : SequenceRef}

/--
The body of the loop of `updateNumComputedTokens`.
-/
def updateSequence (n : Nat) (seq : SequenceRef) : EStateM SequenceError SequenceHeap Unit := do
  let sequence := (← get) seq
  if !sequence.isFinished then
    match (SequenceData.updateNumComputedTokens n).run sequence.sequenceData with
    | .ok () sequenceData =>
      modify fun heap => Function.update heap seq { sequence with sequenceData }
    | .error e sequenceData =>
      modify fun heap => Function.update heap seq { sequence with sequenceData }
      throw e

theorem updateNumComputedTokens_eq (group : SequenceGroup) (n : Nat)
    : group.updateNumComputedTokens n = group.sequences.forM (updateSequence n) := rfl

theorem updateSequence_of_not_rejects (h : ¬ (heap seq).Rejects n)
    : (updateSequence n seq).run heap
        = .ok () (Function.update heap seq ((heap seq).counted n)) := by
  unfold updateSequence Sequence.counted
  simp only [EStateM.run_bind, EStateM.run_get]
  cases hfinished : (heap seq).isFinished with
  | true => simp
  | false =>
    have hle : (heap seq).sequenceData.numComputedTokens + n ≤ (heap seq).sequenceData.length := by
      by_contra hnot
      exact h ⟨hfinished, not_le.mp hnot⟩
    simp only [Bool.not_false, if_true, SequenceData.updateNumComputedTokens_of_le hle]
    rfl

theorem updateSequence_of_rejects (h : (heap seq).Rejects n)
    : (updateSequence n seq).run heap
        = .error .invalidNumberGeneratedTokens
            (Function.update heap seq ((heap seq).overdrawn n)) := by
  unfold updateSequence
  simp only [EStateM.run_bind, EStateM.run_get, h.1, Bool.not_false, if_true,
    SequenceData.updateNumComputedTokens_of_lt h.2]
  rfl

theorem forM_of_not_rejects (hnodup : sequences.Nodup)
    (h : ∀ seq ∈ sequences, ¬ (heap seq).Rejects n)
    : ∃ heap',
        (sequences.forM (updateSequence n)).run heap = .ok () heap'
          ∧ (∀ seq ∈ sequences, heap' seq = (heap seq).counted n)
          ∧ ∀ seq, seq ∉ sequences → heap' seq = heap seq := by
  induction sequences generalizing heap with
  | nil => exact ⟨heap, rfl, fun seq hseq => absurd hseq List.not_mem_nil, fun _ _ => rfl⟩
  | cons head sequences ih =>
    rw [List.nodup_cons] at hnodup
    have htail : ∀ seq ∈ sequences,
        Function.update heap head ((heap head).counted n) seq = heap seq := by
      intro seq hseq
      apply Function.update_of_ne
      rintro rfl
      exact hnodup.1 hseq
    rcases @ih (Function.update heap head ((heap head).counted n)) hnodup.2 (by
      intro seq hseq
      rw [htail seq hseq]
      exact h seq (List.mem_cons_of_mem _ hseq)) with ⟨heap', hrun, hcounted, hframe⟩
    refine ⟨heap', ?_, ?_, ?_⟩
    . rw [List.forM_eq_forM, List.forM_cons, EStateM.run_bind,
        updateSequence_of_not_rejects (h head List.mem_cons_self)]
      exact hrun
    . intro seq hseq
      rcases List.mem_cons.mp hseq with rfl | hseq
      . rw [hframe seq hnodup.1, Function.update_self]
      . rw [hcounted seq hseq, htail seq hseq]
    . intro seq hseq
      rw [List.mem_cons, not_or] at hseq
      rw [hframe seq hseq.2, Function.update_of_ne hseq.1]

/--
The update stops at the first sequence that rejects it.
-/
theorem forM_of_rejects (hnodup : (before ++ seq :: after).Nodup)
    (hbefore : ∀ other ∈ before, ¬ (heap other).Rejects n) (h : (heap seq).Rejects n)
    : ∃ heap',
        ((before ++ seq :: after).forM (updateSequence n)).run heap
            = .error .invalidNumberGeneratedTokens heap'
          ∧ (∀ other ∈ before, heap' other = (heap other).counted n)
          ∧ heap' seq = (heap seq).overdrawn n
          ∧ ∀ other ∈ after, heap' other = heap other := by
  rw [List.nodup_middle, List.nodup_cons, List.mem_append, not_or] at hnodup
  rcases hnodup with ⟨⟨hnotBefore, hnotAfter⟩, hrest⟩
  rcases forM_of_not_rejects (List.nodup_append'.mp hrest).1 hbefore
    with ⟨heap₁, hrun, hcounted, hframe⟩
  have hseq : heap₁ seq = heap seq := hframe seq hnotBefore
  rw [← hseq] at h ⊢
  refine ⟨Function.update heap₁ seq ((heap₁ seq).overdrawn n), ?_, ?_, ?_, ?_⟩
  . rw [List.forM_eq_forM] at hrun ⊢
    rw [List.forM_append, EStateM.run_bind, hrun]
    dsimp only
    rw [List.forM_cons, EStateM.run_bind, updateSequence_of_rejects h]
  . intro other hother
    have hne : other ≠ seq := fun heq => hnotBefore (heq ▸ hother)
    rw [Function.update_of_ne hne, hcounted other hother]
  . rw [Function.update_self]
  . intro other hother
    have hne : other ≠ seq := fun heq => hnotAfter (heq ▸ hother)
    rw [Function.update_of_ne hne]
    apply hframe
    intro hmem
    exact (List.nodup_append'.mp hrest).2.2 hmem hother

/--
Some sequence is the first one that rejects the update, unless none does.
-/
theorem exists_first_rejects (h : ∃ seq ∈ sequences, (heap seq).Rejects n)
    : ∃ before seq after,
        sequences = before ++ seq :: after
          ∧ (∀ other ∈ before, ¬ (heap other).Rejects n)
          ∧ (heap seq).Rejects n := by
  cases hfind : sequences.find? fun seq => (heap seq).Rejects n with
  | none =>
    rcases h with ⟨seq, hseq, hrejects⟩
    exact absurd hrejects (by simpa using List.find?_eq_none.mp hfind seq hseq)
  | some seq =>
    rcases List.find?_eq_some_iff_append.mp hfind with ⟨hrejects, before, after, hsplit, hbefore⟩
    exact ⟨before, seq, after, hsplit, by simpa using hbefore, by simpa using hrejects⟩

section Rejection

variable (group : SequenceGroup) (heap : SequenceHeap) (n : Nat)

/--
When the update fails, no sequence of the group has another counter or stage than before. So the
counters that were not above the lengths still are not, and the tokens left to compute can be
counted.
-/
def RejectionKeepsCounters : Prop :=
  ∀ e heap', (group.updateNumComputedTokens n).run heap = .error e heap' →
    (∀ seq ∈ group.sequences,
        (heap' seq).sequenceData.numComputedTokens = (heap seq).sequenceData.numComputedTokens
          ∧ (heap' seq).sequenceData.stage = (heap seq).sequenceData.stage)
      ∧ ∀ seq ∈ group.sequences,
          (heap seq).sequenceData.numComputedTokens ≤ (heap seq).length →
            (heap' seq).sequenceData.numComputedTokens ≤ (heap' seq).length
              ∧ (heap' seq).sequenceData.getNumUncomputedTokens ≠ none

/--
If a sequence is the first one to reject the update, then the update adds no tokens, and each
unfinished sequence before it that has computed all its tokens is in its decoding stage.
-/
def RejectsHarmlessly : Prop :=
  ∀ before seq after, group.sequences = before ++ seq :: after →
    (∀ other ∈ before, ¬ (heap other).Rejects n) → (heap seq).Rejects n →
      n = 0
        ∧ ∀ other ∈ before,
            (heap other).isFinished = false →
              (heap other).sequenceData.numComputedTokens = (heap other).length →
                (heap other).sequenceData.stage = .decode

end Rejection

/--
A failed update leaves the counters alone if and only if it rejects harmlessly.
-/
theorem rejectionKeepsCounters_iff (hnodup : group.sequences.Nodup)
    : group.RejectionKeepsCounters heap n ↔ group.RejectsHarmlessly heap n := by
  unfold RejectionKeepsCounters RejectsHarmlessly
  rw [updateNumComputedTokens_eq]
  constructor
  . intro hkeeps before seq after hsplit hbefore hrejects
    rw [hsplit] at hnodup hkeeps
    rcases forM_of_rejects hnodup hbefore hrejects with ⟨heap', hrun, hcounted, hself, -⟩
    have hsame := (hkeeps _ heap' hrun).1
    have hzero : n = 0 := by
      have hcounter := (hsame seq (by simp)).1
      rw [hself] at hcounter
      change _ + n = _ at hcounter
      omega
    refine ⟨hzero, ?_⟩
    intro other hother hunfinished hfull
    have hstage := (hsame other (by simp [hother])).2
    rw [hcounted other hother] at hstage
    have hfull : (heap other).sequenceData.numComputedTokens + n
        = (heap other).sequenceData.length := by
      rw [hzero]
      exact hfull
    simpa [Sequence.counted, hunfinished, Sequence.count, SequenceData.count, hfull]
      using hstage.symm
  . intro hharmless e heap' hrun
    by_cases hsome : ∃ seq ∈ group.sequences, (heap seq).Rejects n
    . rcases exists_first_rejects hsome with ⟨before, seq, after, hsplit, hbefore, hrejects⟩
      rcases hharmless before seq after hsplit hbefore hrejects with ⟨hzero, hstages⟩
      rw [hsplit] at hnodup hrun ⊢
      rcases forM_of_rejects hnodup hbefore hrejects with ⟨heap'', hrun', hcounted, hself, hafter⟩
      rw [hrun'] at hrun
      cases hrun
      have hsame : ∀ other ∈ before ++ seq :: after, heap' other = heap other := by
        intro other hother
        rcases List.mem_append.mp hother with hother | hother
        . rw [hcounted other hother, hzero]
          exact Sequence.counted_zero (hstages other hother)
        . rcases List.mem_cons.mp hother with rfl | hother
          . rw [hself, hzero]
            rfl
          . exact hafter other hother
      constructor
      . intro other hother
        rw [hsame other hother]
        exact ⟨rfl, rfl⟩
      . intro other hother hle
        rw [hsame other hother]
        exact ⟨hle, SequenceData.getNumUncomputedTokens_ne_none hle⟩
    . rcases forM_of_not_rejects hnodup (fun seq hseq hrejects => hsome ⟨seq, hseq, hrejects⟩)
        with ⟨heap'', hrun', -⟩
      rw [hrun'] at hrun
      cases hrun

/--
Two prompts, one of three tokens and one of one token.
-/
def unevenHeap : SequenceHeap :=
  fun seq =>
    let promptTokenIds := if seq.sequenceId = 0 then [7, 8, 9] else [7]
    {
      prompt := ""
      sequenceData := SequenceData.new promptTokenIds []
      blockSize := 4
      logicalTokenBlocks := [⟨0, 4, promptTokenIds, promptTokenIds.length⟩]
      outputText := ""
      outputLogprobs := []
      sequenceStatus := .running
      stopReason := none
      tokens := []
    }

def unevenGroup : SequenceGroup where
  requestId := "r"
  sequences := [⟨0, 0⟩, ⟨1, 0⟩]
  arrivalTime := 0
  nextTokenChooserParams := ⟨1, 1, 1, 1, 1, false, 0, 1, 0⟩
  stoppingCriteria := ⟨1, [], false⟩
  logitsProcessor := ⟨0, .argMax⟩

/--
Two more tokens are too many for the second prompt. The first one is taken to have computed them,
and of the second one the tokens left to compute cannot be counted.
-/
theorem not_rejectionKeepsCounters_uneven
    : unevenGroup.sequences.Nodup
        ∧ (∀ seq ∈ unevenGroup.sequences,
            (unevenHeap seq).sequenceData.numComputedTokens ≤ (unevenHeap seq).length)
        ∧ ¬ unevenGroup.RejectionKeepsCounters unevenHeap 2 := by
  refine ⟨by decide, by decide, ?_⟩
  intro hkeeps
  have hnodup : ([⟨0, 0⟩] ++ [⟨1, 0⟩] : List SequenceRef).Nodup := by decide
  have hbefore : ∀ other ∈ [(⟨0, 0⟩ : SequenceRef)], ¬ (unevenHeap other).Rejects 2 := by decide
  have hrejects : (unevenHeap ⟨1, 0⟩).Rejects 2 := by decide
  rcases forM_of_rejects hnodup hbefore hrejects with ⟨heap', hrun, -, hself, -⟩
  have hcounter := ((hkeeps _ heap' hrun).1 ⟨1, 0⟩ (by decide)).1
  rw [hself] at hcounter
  exact absurd hcounter (by decide)

theorem rejectionKeepsCounters_iff_uneven
    : unevenGroup.sequences.Nodup
        ∧ (unevenGroup.RejectionKeepsCounters unevenHeap 2
            ↔ unevenGroup.RejectsHarmlessly unevenHeap 2) :=
  ⟨by decide, rejectionKeepsCounters_iff (by decide)⟩

end SequenceGroup

end AtomaInfer
