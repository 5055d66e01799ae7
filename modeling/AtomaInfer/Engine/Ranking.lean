import Mathlib.Data.List.Sort
import AtomaInfer.Engine.Impl

/-!
Which sequences of a group are returned to the client.
-/

namespace List

variable {α β : Type} [LinearOrder β] {score : α → β} {n : Nat} {xs selected : List α}

/--
`selected` are `n` elements of `xs`, or all of them if there are less, with the highest scores and
in the order of their scores.
-/
def IsTop (score : α → β) (n : Nat) (xs selected : List α) : Prop :=
  ∃ omitted,
    xs.Perm (selected ++ omitted)
      ∧ selected.length = min n xs.length
      ∧ selected.Pairwise (fun x y => score y ≤ score x)
      ∧ ∀ x ∈ omitted, ∀ y ∈ selected, score x ≤ score y

theorem IsTop.score_le_head {y : α} (h : IsTop score n xs (y :: selected))
    : ∀ x ∈ xs, score x ≤ score y := by
  rcases h with ⟨omitted, hperm, -, hsorted, homitted⟩
  intro x hx
  rcases mem_append.mp (hperm.mem_iff.mp hx) with hselected | hx
  . rcases mem_cons.mp hselected with rfl | hx
    . exact le_refl _
    . exact rel_of_pairwise_cons hsorted hx
  . exact homitted x hx y mem_cons_self

theorem isTop_of_score_eq (hperm : xs.Perm selected)
    (h : ∀ x ∈ xs, ∀ y ∈ xs, score x = score y) : IsTop score n xs (selected.take n) := by
  have hequal : ∀ x ∈ selected, ∀ y ∈ selected, score x = score y := by
    intro x hx y hy
    exact h x (hperm.mem_iff.mpr hx) y (hperm.mem_iff.mpr hy)
  refine ⟨selected.drop n, ?_, ?_, ?_, ?_⟩
  . rwa [take_append_drop]
  . rw [length_take, hperm.length_eq]
  . apply pairwise_of_forall_mem_list
    intro x hx y hy
    exact (hequal y (mem_of_mem_take hy) x (mem_of_mem_take hx)).le
  . intro x hx y hy
    exact (hequal x (mem_of_mem_drop hx) y (mem_of_mem_take hy)).le

end List

namespace AtomaInfer

namespace GenerateRequestOutput

/--
The outputs are those of the `n` most probable sequences of the group, the best one first.
-/
def ReturnsBest (heap : SequenceHeap) (group : SequenceGroup) (output : GenerateRequestOutput)
    : Prop :=
  ∃ returned,
    List.IsTop (fun seq => (heap seq).sequenceData.cumulativeLogprob)
        group.nextTokenChooserParams.n group.sequences returned
      ∧ output.inferenceOutputs = returned.mapIdx fun i seq => inferenceOutput i (heap seq)

variable {heap : SequenceHeap} {group : SequenceGroup} {output : GenerateRequestOutput}

/--
The sequences of a group in the order in which the source slices them.
-/
def sortedSequences (heap : SequenceHeap) (group : SequenceGroup) : List SequenceRef :=
  group.sequences.insertionSort fun s₁ s₂ =>
    (heap s₁).sequenceData.cumulativeLogprob ≤ (heap s₂).sequenceData.cumulativeLogprob

theorem topNSequences_eq (hlength : 2 ≤ group.sequences.length)
    : topNSequences heap group
        =
      if group.nextTokenChooserParams.n ≤ group.sequences.length then
        .ok ((sortedSequences heap group).take group.nextTokenChooserParams.n)
      else
        .error (.panic "range end index out of range for slice") := by
  unfold topNSequences
  split
  . next seq hsequences =>
    rw [hsequences] at hlength
    simp at hlength
  . dsimp only
    rw [List.length_insertionSort]
    rfl

theorem fromSequenceGroup_eq_ok (hlength : 2 ≤ group.sequences.length)
    (h : fromSequenceGroup heap group = .ok output)
    : group.nextTokenChooserParams.n ≤ group.sequences.length
        ∧ output.inferenceOutputs
            = ((sortedSequences heap group).take group.nextTokenChooserParams.n).mapIdx
                fun i seq => inferenceOutput i (heap seq) := by
  rcases Except.bind_eq_ok.mp h with ⟨returned, hreturned, hpure⟩
  rw [topNSequences_eq hlength] at hreturned
  split at hreturned
  . next hle =>
    cases hreturned
    cases hpure
    exact ⟨hle, rfl⟩
  . cases hreturned

variable (heap) in
theorem exists_fromSequenceGroup (hlength : 2 ≤ group.sequences.length)
    (hle : group.nextTokenChooserParams.n ≤ group.sequences.length)
    : ∃ output, fromSequenceGroup heap group = .ok output := by
  unfold fromSequenceGroup
  rw [topNSequences_eq hlength, if_pos hle]
  exact ⟨_, rfl⟩

/--
The first sequence that is returned has the lowest probability of all.
-/
theorem score_head_le {seq : SequenceRef} {rest : List SequenceRef}
    (h : sortedSequences heap group = seq :: rest)
    : ∀ other ∈ group.sequences,
        (heap seq).sequenceData.cumulativeLogprob ≤ (heap other).sequenceData.cumulativeLogprob := by
  intro other hother
  have hsorted := List.pairwise_insertionSort (fun s₁ s₂ =>
    (heap s₁).sequenceData.cumulativeLogprob ≤ (heap s₂).sequenceData.cumulativeLogprob)
    group.sequences
  change (sortedSequences heap group).Pairwise _ at hsorted
  have hmem : other ∈ sortedSequences heap group := (List.mem_insertionSort _).mpr hother
  rw [h] at hsorted hmem
  rcases List.mem_cons.mp hmem with rfl | hmem
  . exact le_refl _
  . exact List.rel_of_pairwise_cons hsorted hmem

/--
The sequences are sorted by ascending probability, so the worst ones are returned. They are the best
ones only where there is no difference.
-/
theorem returnsBest_iff (hlength : 2 ≤ group.sequences.length)
    : (∃ output, fromSequenceGroup heap group = .ok output ∧ ReturnsBest heap group output)
        ↔ group.nextTokenChooserParams.n = 0
          ∨ group.nextTokenChooserParams.n ≤ group.sequences.length
            ∧ ∀ s₁ ∈ group.sequences, ∀ s₂ ∈ group.sequences,
                (heap s₁).sequenceData.cumulativeLogprob
                  = (heap s₂).sequenceData.cumulativeLogprob := by
  have hperm : group.sequences.Perm (sortedSequences heap group) :=
    (List.perm_insertionSort _ _).symm
  constructor
  . rintro ⟨output, houtput, returned, htop, hreturned⟩
    rcases fromSequenceGroup_eq_ok hlength houtput with ⟨hle, hsliced⟩
    cases hn : group.nextTokenChooserParams.n with
    | zero => exact .inl rfl
    | succ n =>
      right
      rw [hn] at hle hsliced htop
      refine ⟨hle, ?_⟩
      cases hsorted : sortedSequences heap group with
      | nil =>
        have hnil := hperm.length_eq
        rw [hsorted, List.length_nil] at hnil
        omega
      | cons seq rest =>
        rw [hsorted] at hsliced
        cases returned with
        | nil =>
          rcases htop with ⟨-, -, hzero, -⟩
          rw [List.length_nil] at hzero
          omega
        | cons best returned =>
          -- the head of the slice is the head of the best ones, both a minimum and a maximum
          rw [hreturned, List.take_succ_cons, List.mapIdx_cons, List.mapIdx_cons] at hsliced
          have hhead := congrArg (·.cumulativeLogprob) (List.head_eq_of_cons_eq hsliced)
          have hequal : ∀ s ∈ group.sequences, (heap s).sequenceData.cumulativeLogprob
              = (heap seq).sequenceData.cumulativeLogprob := by
            intro s hs
            apply le_antisymm
            . exact (htop.score_le_head s hs).trans_eq hhead
            . exact score_head_le hsorted s hs
          intro s₁ hs₁ s₂ hs₂
          rw [hequal s₁ hs₁, hequal s₂ hs₂]
  . intro hcondition
    have hle : group.nextTokenChooserParams.n ≤ group.sequences.length := by
      rcases hcondition with hzero | ⟨hle, -⟩
      . omega
      . exact hle
    rcases exists_fromSequenceGroup heap hlength hle with ⟨output, houtput⟩
    refine ⟨output, houtput, _, ?_, (fromSequenceGroup_eq_ok hlength houtput).2⟩
    rcases hcondition with hzero | ⟨-, hequal⟩
    . rw [hzero, List.take_zero]
      exact ⟨group.sequences, .refl _, by simp, .nil, fun _ _ _ hnil => absurd hnil List.not_mem_nil⟩
    . exact List.isTop_of_score_eq hperm hequal

/--
A group with the sequences 0 and 1, of which `n` are to be returned.
-/
def pair (n : Nat) : SequenceGroup where
  requestId := "request"
  sequences := [⟨0, 0⟩, ⟨1, 1⟩]
  arrivalTime := 0
  nextTokenChooserParams := {
    n
    bestOf := 2
    temperature := 1
    topK := 0
    topP := 1
    doSample := true
    randomSeed := 0
    repetitionPenalty := 1
    repeatLastN := 0
  }
  stoppingCriteria := ⟨1, [], false⟩
  logitsProcessor := ⟨0, .argMax⟩

/--
The finished sequences of `pair`. Their log-probabilities are `first` and `second`.
-/
def pairHeap (first second : ℚ) : SequenceHeap := fun seq => {
  prompt := "a"
  sequenceData := {
    promptTokenIds := [97]
    outputTokenIds := [seq.sequenceId]
    cumulativeLogprob := if seq.sequenceId = 0 then first else second
    numComputedTokens := 1
    stage := .decode
  }
  blockSize := 1
  logicalTokenBlocks := []
  outputText := ""
  outputLogprobs := []
  sequenceStatus := .finishedLengthCapped
  stopReason := none
  tokens := []
}

theorem returnsBest_iff_equal
    : (pair 1).isFinished (pairHeap 0 0) = true
        ∧ ∃ output, fromSequenceGroup (pairHeap 0 0) (pair 1) = .ok output
            ∧ ReturnsBest (pairHeap 0 0) (pair 1) output :=
  ⟨rfl, (returnsBest_iff (by decide)).mpr (.inr ⟨by decide, by decide⟩)⟩

/--
The sequence with the log-probability -2 is returned instead of the one with -1.
-/
theorem not_returnsBest_first
    : (pair 1).isFinished (pairHeap (-1) (-2)) = true
        ∧ ¬ ∃ output, fromSequenceGroup (pairHeap (-1) (-2)) (pair 1) = .ok output
            ∧ ReturnsBest (pairHeap (-1) (-2)) (pair 1) output := by
  refine ⟨rfl, ?_⟩
  rintro ⟨output, houtput, returned, htop, hreturned⟩
  rcases fromSequenceGroup_eq_ok (by decide) houtput with ⟨-, hsliced⟩
  have hsorted : (sortedSequences (pairHeap (-1) (-2)) (pair 1)).take 1 = [⟨1, 1⟩] := by
    decide +kernel
  change output.inferenceOutputs
    = ((sortedSequences (pairHeap (-1) (-2)) (pair 1)).take 1).mapIdx _ at hsliced
  rw [hsorted, hreturned] at hsliced
  cases returned with
  | nil => cases hsliced
  | cons best returned =>
    rw [List.mapIdx_cons] at hsliced
    have hhead := congrArg (·.cumulativeLogprob) (List.head_eq_of_cons_eq hsliced)
    have hle := htop.score_le_head ⟨0, 0⟩ (by decide)
    change ((pairHeap (-1) (-2)) best).sequenceData.cumulativeLogprob = -2 at hhead
    have hlt : (-2 : ℚ) < -1 := by decide
    exact absurd (hle.trans_eq hhead) hlt.not_ge

end GenerateRequestOutput

end AtomaInfer
