import AtomaInfer.BlockManager.Ring
import AtomaInfer.Worker.Input

/-!
The slot mapping under a sliding window: which positions of a sequence get a slot, and when the slots
of one step are distinct.
-/

namespace AtomaInfer

namespace ModelWorker

/--
The slots of the positions between the two lengths are those that the window wants.
-/
structure MapsWindow (worker : ModelWorker) (slidingWindow : Nat) (blockTable : List Nat)
    (contextLength sequenceLength : Nat) (slots : List Int) : Prop where
  length_eq : slots.length = sequenceLength - contextLength
  eq_pad_iff : ∀ i, contextLength ≤ i → i < sequenceLength →
    (slots[i - contextLength]? = some padSlotId ↔ i < sequenceLength - slidingWindow)
  place : ∀ i, contextLength ≤ i → i < sequenceLength → sequenceLength - slidingWindow ≤ i →
    ∃ blockNumber, blockTable[i / worker.blockSize]? = some blockNumber
      ∧ slots[i - contextLength]?
          = some ((blockNumber * worker.blockSize + i % worker.blockSize : Nat) : Int)
  nodup : (slots.filter (· ≠ padSlotId)).Nodup

variable {worker : ModelWorker} {slidingWindow : Nat}

theorem slot_cases {blockTable : List Nat} {startIndex i : Nat} {result : Int}
    (h : worker.slot blockTable startIndex i = .ok result)
    : i < startIndex ∧ result = padSlotId
        ∨ startIndex ≤ i ∧ ∃ blockNumber, blockTable[i / worker.blockSize]? = some blockNumber
          ∧ result = ((blockNumber * worker.blockSize + i % worker.blockSize : Nat) : Int) := by
  unfold slot at h
  split at h
  . next hlt =>
    cases h
    exact .inl ⟨hlt, rfl⟩
  . next hle =>
    split at h
    . cases h
    . split at h
      . cases h
      . next blockNumber hblock =>
        cases h
        exact .inr ⟨by omega, blockNumber, hblock, rfl⟩

/--
The start index is the one of the query, not of the sequence.
-/
theorem forall₂_of_slots {metadata : SequenceGroupMetadata} {sequenceId : Nat}
    {blockTable : List Nat} {contextLength sequenceLength queryLength : Nat} {slots : List Int}
    (hsliding : worker.slidingWindow = some slidingWindow)
    (hlookup : metadata.blockTables.lookup sequenceId = some blockTable)
    (h : worker.slots metadata sequenceId contextLength sequenceLength queryLength = .ok slots)
    : List.Forall₂ (fun i result =>
          worker.slot blockTable (queryLength - slidingWindow) i = .ok result)
        (List.range' contextLength (sequenceLength - contextLength)) slots := by
  have hnonempty : ¬ metadata.blockTables.entries.isEmpty = true := by
    intro hempty
    have hmem := AList.mem_lookup_iff.mp hlookup
    rw [List.isEmpty_iff.mp hempty] at hmem
    cases hmem
  unfold ModelWorker.slots at h
  rw [if_neg hnonempty, hlookup, hsliding] at h
  exact Except.forall₂_of_mapM h

theorem padSlotId_ne (n : Nat) : padSlotId ≠ (n : Int) := by
  unfold padSlotId
  omega

section Positions

variable {blockTable : List Nat} {contextLength sequenceLength startIndex : Nat} {slots : List Int}

theorem getElem?_of_forall₂
    (h : List.Forall₂ (fun i result => worker.slot blockTable startIndex i = .ok result)
      (List.range' contextLength (sequenceLength - contextLength)) slots)
    {i : Nat} (hcontext : contextLength ≤ i) (hsequence : i < sequenceLength)
    : ∃ result, slots[i - contextLength]? = some result
        ∧ worker.slot blockTable startIndex i = .ok result := by
  have hlength := h.length_eq
  rw [List.length_range'] at hlength
  have hlt : i - contextLength < slots.length := by omega
  refine ⟨slots[i - contextLength], List.getElem?_eq_getElem hlt, ?_⟩
  have hget := h.get (by rw [List.length_range']; omega : i - contextLength < _) hlt
  rw [List.get_eq_getElem, List.get_eq_getElem, List.getElem_range', Nat.one_mul,
    Nat.add_sub_cancel' hcontext] at hget
  exact hget

/--
Places of a window are distinct: their offsets differ, or they lie in blocks less than a ring apart.
-/
theorem place_ne {window i j b b' : Nat} (hring : List.IsRing window blockTable)
    (hsize : 0 < worker.blockSize) (hij : i < j) (hwindow : j < i + window * worker.blockSize)
    (hi : blockTable[i / worker.blockSize]? = some b)
    (hj : blockTable[j / worker.blockSize]? = some b')
    : b * worker.blockSize + i % worker.blockSize
        ≠ b' * worker.blockSize + j % worker.blockSize := by
  intro heq
  have hoffset : i % worker.blockSize = j % worker.blockSize := by
    have hmod := congrArg (· % worker.blockSize) heq
    simpa [Nat.mul_add_mod_self_right] using hmod
  have hblock : b = b' := by
    rw [hoffset, Nat.add_right_cancel_iff] at heq
    exact Nat.eq_of_mul_eq_mul_right hsize heq
  have hidiv := Nat.div_add_mod i worker.blockSize
  have hjdiv := Nat.div_add_mod j worker.blockSize
  have hlt : i / worker.blockSize < j / worker.blockSize := by
    apply Nat.lt_of_mul_lt_mul_left (a := worker.blockSize)
    omega
  have hnear : j / worker.blockSize < i / worker.blockSize + window := by
    apply Nat.lt_of_mul_lt_mul_left (a := worker.blockSize)
    rw [Nat.mul_add, Nat.mul_comm worker.blockSize window]
    omega
  have hlength := (List.getElem?_eq_some_iff.mp hj).1
  exact hring.getElem?_ne hlt hnear hlength (by rw [hi, hj, hblock])

end Positions

theorem InputOf.queryLength_cases {metadata : SequenceGroupMetadata}
    {entry : Sigma fun _ : Nat => SequenceData} {input : SequenceInput}
    (h : worker.InputOf metadata entry input)
    : input.queryLength = input.sequenceLength - input.contextLength
        ∨ input.queryLength = 1 ∧ input.sequenceLength ≤ input.contextLength + 1 := by
  have hquery := h.queryLength_eq
  have hcontext := h.contextLength_eq
  have hlength := h.sequenceLength_eq
  unfold contextLength at hcontext
  cases hprompt : metadata.isPrompt with
  | true =>
    rw [hprompt, if_pos rfl] at hquery
    exact .inl hquery
  | false =>
    rw [hprompt, if_neg (by simp)] at hquery
    rw [hprompt, if_neg (by simp)] at hcontext
    split at hcontext
    . cases hcontext
    . have hcontext := Except.ok.inj hcontext
      exact .inr ⟨hquery, by omega⟩

theorem le_mul_of_ceil {n size : Nat} (hsize : 0 < size) : n ≤ (n + size - 1) / size * size := by
  have hdiv := Nat.div_add_mod (n + size - 1) size
  have hmod := Nat.mod_lt (n + size - 1) hsize
  rw [Nat.mul_comm] at hdiv
  omega

section Sequence

variable {manager : BlockSpaceManager} {metadata : SequenceGroupMetadata}
variable {entry : Sigma fun _ : Nat => SequenceData} {input : SequenceInput}
variable {blockTable : List Nat}

/--
A position before the window of a chunk that starts later is not masked.
-/
theorem InputOf.of_mapsWindow (h : worker.InputOf metadata entry input)
    (hsliding : worker.slidingWindow = some slidingWindow) (hpos : 1 ≤ slidingWindow)
    (hlookup : metadata.blockTables.lookup entry.1 = some blockTable)
    (hmaps : worker.MapsWindow slidingWindow blockTable input.contextLength input.sequenceLength
      input.slots)
    : input.contextLength = 0 ∨ input.sequenceLength ≤ input.contextLength + slidingWindow := by
  by_contra hcontra
  have hcontext : 1 ≤ input.contextLength := by omega
  have hlt : input.contextLength + slidingWindow < input.sequenceLength := by omega
  have hquery := h.queryLength_cases
  -- the last position before the window
  have hpad := (hmaps.eq_pad_iff (input.sequenceLength - slidingWindow - 1) (by omega)
    (by omega)).mpr (by omega)
  rcases getElem?_of_forall₂ (forall₂_of_slots hsliding hlookup h.slots_eq)
    (by omega : input.contextLength ≤ input.sequenceLength - slidingWindow - 1) (by omega)
    with ⟨result, hresult, hslot⟩
  rw [hpad, Option.some_inj] at hresult
  rcases slot_cases hslot with ⟨hmasked, -⟩ | ⟨-, blockNumber, -, hplace⟩
  . omega
  . rw [← hresult] at hplace
    exact padSlotId_ne _ hplace

/--
Elsewhere the start index masks the same positions as the window.
-/
theorem InputOf.lt_startIndex_iff (h : worker.InputOf metadata entry input)
    (hpos : 1 ≤ slidingWindow)
    (hwhen : input.contextLength = 0
      ∨ input.sequenceLength ≤ input.contextLength + slidingWindow) {i : Nat}
    (hi : input.contextLength ≤ i)
    : i < input.queryLength - slidingWindow ↔ i < input.sequenceLength - slidingWindow := by
  have hquery := h.queryLength_cases
  omega

theorem InputOf.mapsWindow (h : worker.InputOf metadata entry input)
    (hsliding : worker.slidingWindow = some slidingWindow) (hpos : 1 ≤ slidingWindow)
    (hsize : 0 < worker.blockSize)
    (hlookup : metadata.blockTables.lookup entry.1 = some blockTable)
    (hring : List.IsRing ((slidingWindow + worker.blockSize - 1) / worker.blockSize) blockTable)
    (hwhen : input.contextLength = 0
      ∨ input.sequenceLength ≤ input.contextLength + slidingWindow)
    : worker.MapsWindow slidingWindow blockTable input.contextLength input.sequenceLength
        input.slots := by
  have hslots := forall₂_of_slots hsliding hlookup h.slots_eq
  have hlength : input.slots.length = input.sequenceLength - input.contextLength := by
    rw [← hslots.length_eq, List.length_range']
  have hplace : ∀ i, input.contextLength ≤ i → i < input.sequenceLength →
      input.sequenceLength - slidingWindow ≤ i →
      ∃ blockNumber, blockTable[i / worker.blockSize]? = some blockNumber
        ∧ input.slots[i - input.contextLength]?
            = some ((blockNumber * worker.blockSize + i % worker.blockSize : Nat) : Int) := by
    intro i hcontext hsequence hwindow
    rcases getElem?_of_forall₂ hslots hcontext hsequence with ⟨result, hresult, hslot⟩
    rcases slot_cases hslot with ⟨hmasked, -⟩ | ⟨-, blockNumber, hblock, rfl⟩
    . rw [h.lt_startIndex_iff hpos hwhen hcontext] at hmasked
      omega
    . exact ⟨blockNumber, hblock, hresult⟩
  have hpad : ∀ i, input.contextLength ≤ i → i < input.sequenceLength →
      (input.slots[i - input.contextLength]? = some padSlotId
        ↔ i < input.sequenceLength - slidingWindow) := by
    intro i hcontext hsequence
    constructor
    . intro heq
      by_contra hwindow
      rcases hplace i hcontext hsequence (by omega) with ⟨blockNumber, -, hresult⟩
      rw [heq, Option.some_inj] at hresult
      exact padSlotId_ne _ hresult
    . intro hwindow
      rcases getElem?_of_forall₂ hslots hcontext hsequence with ⟨result, hresult, hslot⟩
      rcases slot_cases hslot with ⟨-, rfl⟩ | ⟨hstart, -⟩
      . exact hresult
      . rw [← h.lt_startIndex_iff hpos hwhen hcontext] at hwindow
        omega
  refine ⟨hlength, hpad, hplace, ?_⟩
  -- two positions that are not masked are less than the window apart
  rw [List.nodup_iff_pairwise_ne, List.pairwise_filter, List.pairwise_iff_getElem]
  intro k l hk hl hkl hkpad hlpad heq
  have hunmasked : ∀ (k : Nat) (hk : k < input.slots.length),
      decide (input.slots[k] ≠ padSlotId) = true →
      input.sequenceLength - slidingWindow ≤ input.contextLength + k := by
    intro k hk hne
    by_contra hlt
    have hpad' := (hpad (input.contextLength + k) (by omega) (by omega)).mpr (by omega)
    rw [Nat.add_sub_cancel_left, List.getElem?_eq_getElem hk, Option.some_inj] at hpad'
    exact of_decide_eq_true hne hpad'
  rcases hplace (input.contextLength + k) (by omega) (by omega) (hunmasked k hk hkpad)
    with ⟨b, hb, hbslot⟩
  rcases hplace (input.contextLength + l) (by omega) (by omega) (hunmasked l hl hlpad)
    with ⟨b', hb', hbslot'⟩
  rw [Nat.add_sub_cancel_left, List.getElem?_eq_getElem hk, Option.some_inj] at hbslot
  rw [Nat.add_sub_cancel_left, List.getElem?_eq_getElem hl, Option.some_inj] at hbslot'
  have hwindow : slidingWindow
      ≤ (slidingWindow + worker.blockSize - 1) / worker.blockSize * worker.blockSize :=
    le_mul_of_ceil hsize
  have hunmasked := hunmasked k hk hkpad
  apply place_ne hring hsize (by omega) (by omega) hb hb'
  rw [hbslot, hbslot'] at heq
  exact Int.ofNat.inj heq

/--
The slots of a sequence whose table is built under the window.
-/
def SlotsFit (worker : ModelWorker) (slidingWindow : Nat)
    (x : SequenceGroupMetadata × Sigma fun _ : Nat => SequenceData) (slots : List Int) : Prop :=
  ∃ input, worker.sequenceInput x.1 x.2 = .ok input
    ∧ slots = input.slots
    ∧ ∀ (manager : BlockSpaceManager) (blockTable : List Nat),
        BlockSpaceManager.Built x.2.1 ((slidingWindow + worker.blockSize - 1) / worker.blockSize)
          manager →
        manager.getBlockTableIds x.2.1 = some blockTable →
        x.1.blockTables.lookup x.2.1 = some blockTable →
        (worker.MapsWindow slidingWindow blockTable input.contextLength input.sequenceLength slots
          ↔ input.contextLength = 0
            ∨ input.sequenceLength ≤ input.contextLength + slidingWindow)

theorem slotsFit_of_sequenceInput (hsliding : worker.slidingWindow = some slidingWindow)
    (hpos : 1 ≤ slidingWindow) (hsize : 1 ≤ worker.blockSize)
    {x : SequenceGroupMetadata × Sigma fun _ : Nat => SequenceData}
    (h : worker.sequenceInput x.1 x.2 = .ok input)
    : worker.SlotsFit slidingWindow x input.slots := by
  refine ⟨input, h, rfl, ?_⟩
  intro manager blockTable hbuilt htable hlookup
  have hof := inputOf_of_eq_ok h
  constructor
  . exact hof.of_mapsWindow hsliding hpos hlookup
  . exact hof.mapsWindow hsliding hpos hsize hlookup (hbuilt.isRing_of_getBlockTableIds htable)

end Sequence

/--
The slot mapping of a batch, sequence by sequence: it is what the sliding window wants when the
sequence starts here or does not reach past its context by more than the window.
-/
theorem slotMapping_fits {batch : List SequenceGroupMetadata} {input : ModelInput}
    (hsliding : worker.slidingWindow = some slidingWindow) (hpos : 1 ≤ slidingWindow)
    (hsize : 1 ≤ worker.blockSize) (h : worker.prepareInputTensors batch = .ok input)
    : ∃ segments, input.attentionMetadata.slotMapping = segments.flatten
        ∧ List.Forall₂ (worker.SlotsFit slidingWindow) (sequencesOf batch) segments := by
  rcases exists_inputs_of_prepareInputTensors h
    with ⟨inputs, maxBlockTableLen, hinputs, -, -, hmetadata⟩
  refine ⟨inputs.map (·.slots), ?_, ?_⟩
  . rw [hmetadata]
    rfl
  . rw [List.forall₂_map_right_iff]
    exact hinputs.imp fun _ _ hinput => slotsFit_of_sequenceInput hsliding hpos hsize hinput

/--
The manager after the first allocation for a prompt of three tokens in blocks of one.
-/
def allocatedManager (numGpuBlocks slidingWindow : Nat) : BlockSpaceManager :=
  (BlockSpaceManager.allocate (Scheduler.singleGroup "a" 0 0)
    fun _ => Scheduler.waitingSequence [5, 6, 7]).finalState
      (BlockSpaceManager.new 1 0 numGpuBlocks (some slidingWindow))

theorem built_allocatedManager {numGpuBlocks : Nat}
    (h : ((BlockSpaceManager.allocate (Scheduler.singleGroup "a" 0 0)
      fun _ => Scheduler.waitingSequence [5, 6, 7]).run
        (BlockSpaceManager.new 1 0 numGpuBlocks (some slidingWindow))).okAny (fun _ => true) = true)
    : BlockSpaceManager.Built 0 slidingWindow (allocatedManager numGpuBlocks slidingWindow) := by
  rcases EStateM.exists_run_eq_finalState h with ⟨_, hrun⟩
  refine .allocate (BlockSpaceManager.soundFree_new 1 0 numGpuBlocks (some slidingWindow)) ?_ ?_ hrun
  . simp [BlockSpaceManager.new]
  . decide

/--
A whole prompt of three tokens under a window of two.
-/
theorem slotMapping_fits_whole_prompt
    : ∃ (worker : ModelWorker) (prompt : SequenceGroupMetadata) (input : ModelInput),
        worker.prepareInputTensors [prompt] = .ok input
          ∧ input.attentionMetadata.slotMapping = [-1, 0, 1]
          ∧ worker.MapsWindow 2 [1, 0, 1] 0 3 [-1, 0, 1] := by
  let worker : ModelWorker := ⟨1, some 2, true⟩
  let prompt := singleMetadata true (SequenceData.new [5, 6, 7] []) 3 [1, 0, 1]
  have hok : (worker.prepareInputTensors [prompt]).toOption.any
      (fun input => input.attentionMetadata.slotMapping = [-1, 0, 1]) = true := by
    decide
  rcases Except.exists_eq_ok_of_any hok with ⟨input, hinput, hslots⟩
  have hsliding : worker.slidingWindow = some 2 := rfl
  rcases slotMapping_fits hsliding (by decide) (by decide) hinput
    with ⟨segments, hflatten, hsegments⟩
  have hone : (worker.sequenceInput prompt ⟨0, SequenceData.new [5, 6, 7] []⟩).toOption.any
      (fun input => input.contextLength = 0 ∧ input.sequenceLength = 3
        ∧ input.slots = [-1, 0, 1]) = true := by
    decide
  rcases Except.exists_eq_ok_of_any hone with ⟨first, hfirst, hvalues⟩
  rw [decide_eq_true_eq] at hvalues
  have hbuilt : BlockSpaceManager.Built 0 2 (allocatedManager 2 2) :=
    built_allocatedManager (by decide)
  have hceil : (2 + worker.blockSize - 1) / worker.blockSize = 2 := Nat.div_one 2
  cases hsegments with
  | cons hfits _ =>
    rcases hfits with ⟨sequence, hsequence, rfl, hiff⟩
    have heq : first = sequence := Except.ok.inj (hfirst.symm.trans hsequence)
    have hmaps := (hiff (allocatedManager 2 2) [1, 0, 1] (by rwa [hceil]) (by decide) rfl).mpr
      (.inl (heq ▸ hvalues.1))
    rw [← heq, hvalues.1, hvalues.2.1, hvalues.2.2] at hmaps
    exact ⟨worker, prompt, input, hinput, of_decide_eq_true hslots, hmaps⟩

/--
The second chunk of a prompt: both of its tokens get the slot of the only block.
-/
theorem not_mapsWindow_second_chunk
    : ∃ (worker : ModelWorker) (manager : BlockSpaceManager) (data : SequenceData)
        (prompt : SequenceGroupMetadata) (input : ModelInput),
        worker.slidingWindow = some 1
          ∧ worker.blockSize = 1
          ∧ BlockSpaceManager.Built 0 1 manager
          ∧ manager.getBlockTableIds 0 = some [0, 0, 0]
          ∧ prompt.blockTables.lookup 0 = some [0, 0, 0]
          ∧ sequencesOf [prompt] = [(prompt, ⟨0, data⟩)]
          ∧ contextLength prompt.isPrompt data = .ok 1
          ∧ min data.length (1 + prompt.tokenChunkSize) = 3
          ∧ worker.prepareInputTensors [prompt] = .ok input
          ∧ input.attentionMetadata.slotMapping = [0, 0]
          ∧ ¬ worker.MapsWindow 1 [0, 0, 0] 1 3 [0, 0] := by
  let worker : ModelWorker := ⟨1, some 1, true⟩
  let data : SequenceData := { SequenceData.new [5, 6, 7] [] with numComputedTokens := 1 }
  let prompt := singleMetadata true data 2 [0, 0, 0]
  have hbuilt : BlockSpaceManager.Built 0 1 (allocatedManager 1 1) :=
    built_allocatedManager (by decide)
  have hok : (worker.prepareInputTensors [prompt]).toOption.any
      (fun input => input.attentionMetadata.slotMapping = [0, 0]) = true := by
    decide
  rcases Except.exists_eq_ok_of_any hok with ⟨input, hinput, hslots⟩
  refine ⟨worker, allocatedManager 1 1, data, prompt, input, rfl, rfl,
    hbuilt, by decide, rfl, rfl, rfl, by decide, hinput, of_decide_eq_true hslots, ?_⟩
  intro hmaps
  exact absurd hmaps.nodup (by decide)

end ModelWorker

end AtomaInfer
