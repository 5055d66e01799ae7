import Mathlib.Data.Multiset.Bind
import AtomaInfer.Scheduler.Effects

/-!
A scheduling pass as a sequence of moves, each of which takes one group from one place to another.
This is the pass without its loops, budgets and orders: what it does to the memory, and to which
group.
-/

namespace AtomaInfer

namespace Scheduler

/--
The groups that a pass has at hand, by where they are, and the transfers between blocks that it has
asked for. Those in `ignored` and `infeasible` will be in no queue. `recomputed` are the groups that
the pass has preempted by recomputation.
-/
structure Config where
  memory : Memory
  waiting : Multiset SequenceGroup
  running : Multiset SequenceGroup
  swapped : Multiset SequenceGroup
  scheduled : Multiset ScheduledSequenceGroup
  ignored : Multiset SequenceGroup
  infeasible : Multiset SequenceGroup
  recomputed : Multiset SequenceGroup
  blocksToSwapIn : BlockMapping
  blocksToSwapOut : BlockMapping
  blocksToCopy : BlockMapping

section Groups

variable (memory : Memory) (group : SequenceGroup)

def IsWaiting : Prop :=
  ∀ seq ∈ group.sequences, (memory.sequences seq).sequenceStatus = .waiting

/--
A group with one sequence, which has the status `status`.
-/
def HasStatus (status : SequenceStatus) : Prop :=
  ∃ seq, group.sequences = [seq] ∧ (memory.sequences seq).sequenceStatus = status

/--
The number of tokens is positive and not more than what is left to compute; without chunking it is
all that is left.
-/
def IsChunk (enableChunking : Bool) (seq : SequenceRef) (numTokens : Nat) : Prop :=
  let data := (memory.sequences seq).sequenceData
  1 ≤ numTokens
    ∧ data.numComputedTokens + numTokens ≤ data.length
    ∧ (enableChunking = false → data.numComputedTokens + numTokens = data.length)

/--
The group runs, has all the blocks that it needs, and gets a number of tokens that it can compute.
-/
def IsReady (enableChunking : Bool) (scheduled : ScheduledSequenceGroup) : Prop :=
  ∃ seq blockTable,
    scheduled.scheduledGroup.sequences = [seq]
      ∧ (memory.sequences seq).sequenceStatus = .running
      ∧ memory.table seq = some blockTable
      ∧ blockTable.length = (memory.sequences seq).getNumTotalLogicalTokenBlocks
      ∧ IsChunk memory enableChunking seq scheduled.tokenChunkSize

variable {memory group} {memory' : Memory} {seq : SequenceRef} {refs : List SequenceRef}

theorem IsWaiting.of_eq (h : IsWaiting memory group)
    (heq : ∀ seq ∈ group.sequences, memory'.sequences seq = memory.sequences seq)
    : IsWaiting memory' group := by
  intro seq hseq
  rw [heq seq hseq]
  exact h seq hseq

theorem HasStatus.of_eq {status : SequenceStatus} (h : HasStatus memory group status)
    (heq : ∀ seq ∈ group.sequences, memory'.sequences seq = memory.sequences seq)
    : HasStatus memory' group status := by
  rcases h with ⟨seq, hgroup, hstatus⟩
  refine ⟨seq, hgroup, ?_⟩
  rw [heq seq (by simp [hgroup])]
  exact hstatus

theorem sequences_eq_of_touches (htouches : Memory.Touches seq memory memory')
    (hnotMem : seq ∉ group.sequences)
    : ∀ other ∈ group.sequences, memory'.sequences other = memory.sequences other := by
  intro other hother
  exact htouches.sequences_of_ne other (fun heq => hnotMem (heq ▸ hother))

theorem IsReady.of_touches {enableChunking : Bool} {scheduled : ScheduledSequenceGroup}
    (h : IsReady memory enableChunking scheduled) (hsound : memory.Sound refs)
    (hseq : seq ∈ refs) (hrefs : ∀ other ∈ scheduled.scheduledGroup.sequences, other ∈ refs)
    (htouches : Memory.Touches seq memory memory')
    (hnotMem : seq ∉ scheduled.scheduledGroup.sequences)
    : IsReady memory' enableChunking scheduled := by
  rcases h with ⟨other, blockTable, hother, hstatus, htable, hlength, hchunk⟩
  have hne : other ≠ seq := fun heq => hnotMem (by simp [hother, heq])
  have hmem : other ∈ refs := hrefs other (by simp [hother])
  refine ⟨other, blockTable, hother, ?_⟩
  rw [IsChunk, htouches.sequences_of_ne other hne,
    htouches.table_of_ne hsound hseq hmem hne]
  exact ⟨hstatus, htable, hlength, hchunk⟩

theorem IsChunk.of_eq {enableChunking : Bool} {numTokens : Nat}
    (h : IsChunk memory enableChunking seq numTokens)
    (hdata : (memory'.sequences seq).sequenceData = (memory.sequences seq).sequenceData)
    : IsChunk memory' enableChunking seq numTokens := by
  unfold IsChunk at h ⊢
  rwa [hdata]

theorem IsReady.of_appends {enableChunking : Bool} {numTokens : Nat}
    (hgroup : group.sequences = [seq])
    (hstatus : (memory.sequences seq).sequenceStatus = .running)
    (heffect : Memory.Appends seq memory memory')
    (hchunk : IsChunk memory enableChunking seq numTokens)
    : IsReady memory' enableChunking ⟨group, numTokens⟩ := by
  rcases heffect.table_eq with ⟨-, blockTable, -, htable, hlength, -⟩
  refine ⟨seq, blockTable, hgroup, ?_, htable, ?_, hchunk.of_eq (by rw [heffect.sequences_eq])⟩
  . rw [heffect.sequences_eq]
    exact hstatus
  . rw [heffect.sequences_eq]
    exact hlength

end Groups

namespace Config

variable {c c' : Config} {refs : List SequenceRef} {enableChunking : Bool}

def held (c : Config) : Multiset SequenceGroup :=
  c.waiting + c.running + c.swapped + c.scheduled.map (·.scheduledGroup) + c.ignored + c.infeasible

structure OK (enableChunking : Bool) (refs : List SequenceRef) (c : Config) : Prop where
  sound : c.memory.Sound refs
  distinct : (c.held.bind fun group => (group.sequences : Multiset SequenceRef)).Nodup
  mem_refs : ∀ group ∈ c.held, ∀ seq ∈ group.sequences, seq ∈ refs
  waiting : ∀ group ∈ c.waiting, IsWaiting c.memory group
  running : ∀ group ∈ c.running, HasStatus c.memory group .running
  swapped : ∀ group ∈ c.swapped, HasStatus c.memory group .swapped
  scheduled : ∀ scheduled ∈ c.scheduled, IsReady c.memory enableChunking scheduled

theorem nodup_bind_of_le {s t : Multiset SequenceGroup} (hle : s ≤ t)
    (h : (t.bind fun group => (group.sequences : Multiset SequenceRef)).Nodup)
    : (s.bind fun group => (group.sequences : Multiset SequenceRef)).Nodup := by
  rcases Multiset.le_iff_exists_add.mp hle with ⟨u, rfl⟩
  rw [Multiset.add_bind] at h
  exact Multiset.nodup_of_le (Multiset.le_add_right _ _) h

/--
When nothing is scheduled, it does not matter whether prompts may be split.
-/
theorem OK.of_scheduled_eq_zero (h : c.OK enableChunking refs) (hzero : c.scheduled = 0)
    (enableChunking' : Bool) : c.OK enableChunking' refs := by
  refine ⟨h.sound, h.distinct, h.mem_refs, h.waiting, h.running, h.swapped, ?_⟩
  rw [hzero]
  exact fun _ hscheduled => absurd hscheduled (Multiset.notMem_zero _)

theorem OK.notMem_of_held {group : SequenceGroup} {seq : SequenceRef} {rest : Multiset SequenceGroup}
    (h : c.OK enableChunking refs) (hheld : c.held = group ::ₘ rest)
    (hgroup : group.sequences = [seq]) : ∀ other ∈ rest, seq ∉ other.sequences := by
  intro other hother hmem
  have hdistinct := h.distinct
  rw [hheld, Multiset.cons_bind, hgroup, Multiset.coe_singleton, Multiset.singleton_add,
    Multiset.nodup_cons] at hdistinct
  exact hdistinct.1 (Multiset.mem_bind.mpr ⟨other, hother, hmem⟩)

theorem OK.ne_of_running {group group' : SequenceGroup} {seq seq' : SequenceRef}
    {running : Multiset SequenceGroup} (h : c.OK enableChunking refs)
    (hrunning : c.running = group' ::ₘ running) (hmem : group ∈ running)
    (hgroup' : group'.sequences = [seq']) (hgroup : group.sequences = [seq]) : seq ≠ seq' := by
  have hheld : c.held = group' ::ₘ
      (c.waiting + running + c.swapped + c.scheduled.map (·.scheduledGroup) + c.ignored + c.infeasible) := by
    simp only [held, hrunning, Multiset.add_cons, Multiset.cons_add]
  have hnotMem := h.notMem_of_held hheld hgroup' group (by simp [hmem])
  rw [hgroup, List.mem_singleton] at hnotMem
  exact Ne.symm hnotMem

inductive Move (enableChunking : Bool) (c : Config) : Config → Prop where
  | recompute (group : SequenceGroup) (seq : SequenceRef) (running : Multiset SequenceGroup)
      (memory : Memory) (hrunning : c.running = group ::ₘ running)
      (hgroup : group.sequences = [seq]) (heffect : Memory.Recomputes seq c.memory memory)
    : Move enableChunking c {
        c with
        memory
        running
        waiting := group ::ₘ c.waiting
        recomputed := group ::ₘ c.recomputed }
  | swapOut (group : SequenceGroup) (seq : SequenceRef) (running : Multiset SequenceGroup)
      (numbers : BlockMapping) (memory : Memory) (hrunning : c.running = group ::ₘ running)
      (hgroup : group.sequences = [seq])
      (heffect : Memory.Swaps .cpu .swapped numbers seq c.memory memory)
      (hin : c.blocksToSwapIn = ∅)
    : Move enableChunking c {
        c with
        memory
        running
        swapped := group ::ₘ c.swapped
        blocksToSwapOut := numbers ∪ c.blocksToSwapOut }
  | append (group : SequenceGroup) (seq : SequenceRef) (running : Multiset SequenceGroup)
      (numTokens : Nat) (copies : BlockMapping) (memory : Memory)
      (hrunning : c.running = group ::ₘ running) (hgroup : group.sequences = [seq])
      (hchunk : IsChunk c.memory enableChunking seq numTokens)
      (heffect : Memory.Appends seq c.memory memory)
      (hcopies : c.memory.Unwindowed → copies = c.blocksToCopy)
    : Move enableChunking c {
        c with
        memory
        running
        scheduled := ⟨group, numTokens⟩ ::ₘ c.scheduled
        blocksToCopy := copies }
  | swapIn (group : SequenceGroup) (seq : SequenceRef) (swapped : Multiset SequenceGroup)
      (numTokens : Nat) (numbers copies : BlockMapping) (between memory : Memory)
      (hswapped : c.swapped = group ::ₘ swapped) (hgroup : group.sequences = [seq])
      (hchunk : IsChunk c.memory enableChunking seq numTokens)
      (heffect : Memory.Swaps .gpu .running numbers seq c.memory between)
      (happends : Memory.Appends seq between memory)
      (hcopies : c.memory.Unwindowed → copies = c.blocksToCopy) (hout : c.blocksToSwapOut = ∅)
    : Move enableChunking c {
        c with
        memory
        swapped
        scheduled := ⟨group, numTokens⟩ ::ₘ c.scheduled
        blocksToSwapIn := numbers ∪ c.blocksToSwapIn
        blocksToCopy := copies }
  | reject (group : SequenceGroup) (seq : SequenceRef) (swapped : Multiset SequenceGroup)
      (memory : Memory) (hswapped : c.swapped = group ::ₘ swapped)
      (hgroup : group.sequences = [seq]) (heffect : Memory.Ignores seq c.memory memory)
      (hout : c.blocksToSwapOut = ∅)
    : Move enableChunking c { c with memory, swapped, infeasible := group ::ₘ c.infeasible }
  | admitNext (group : SequenceGroup) (seq : SequenceRef) (waiting : Multiset SequenceGroup)
      (numTokens : Nat) (memory : Memory) (hwaiting : c.waiting = group ::ₘ waiting)
      (hgroup : group.sequences = [seq]) (hchunk : IsChunk c.memory enableChunking seq numTokens)
      (heffect : Memory.Allocates seq c.memory memory)
    : Move enableChunking c {
        c with memory, waiting, scheduled := ⟨group, numTokens⟩ ::ₘ c.scheduled }
  | ignore (group : SequenceGroup) (seq : SequenceRef) (waiting : Multiset SequenceGroup)
      (memory : Memory) (hwaiting : c.waiting = group ::ₘ waiting)
      (hgroup : group.sequences = [seq]) (heffect : Memory.Ignores seq c.memory memory)
    : Move enableChunking c { c with memory, waiting, ignored := group ::ₘ c.ignored }

def Moves (enableChunking : Bool) : Config → Config → Prop :=
  Relation.ReflTransGen (Move enableChunking)

theorem Move.held_eq (h : Move enableChunking c c') : c'.held = c.held := by
  cases h with
  | recompute group seq running memory hrunning =>
    simp only [held, hrunning, Multiset.add_cons, Multiset.cons_add]
  | swapOut group seq running numbers memory hrunning =>
    simp only [held, hrunning, Multiset.add_cons, Multiset.cons_add]
  | append group seq running numTokens copies memory hrunning =>
    simp only [held, hrunning, Multiset.add_cons, Multiset.cons_add, Multiset.map_cons]
  | swapIn group seq swapped numTokens numbers copies between memory hswapped =>
    simp only [held, hswapped, Multiset.add_cons, Multiset.cons_add, Multiset.map_cons]
  | reject group seq swapped memory hswapped =>
    simp only [held, hswapped, Multiset.add_cons, Multiset.cons_add]
  | admitNext group seq waiting numTokens memory hwaiting =>
    simp only [held, hwaiting, Multiset.add_cons, Multiset.cons_add, Multiset.map_cons]
  | ignore group seq waiting memory hwaiting =>
    simp only [held, hwaiting, Multiset.add_cons, Multiset.cons_add]

/--
A move takes one group away, and touches its sequence only. What runs afterwards was not taken, and
what was scheduled before was not taken either.
-/
theorem Move.exists_taken (h : Move enableChunking c c')
    : ∃ group seq rest,
        c.held = group ::ₘ rest
          ∧ group.sequences = [seq]
          ∧ (group ∈ c.running ∨ group ∈ c.swapped ∨ group ∈ c.waiting)
          ∧ Memory.Touches seq c.memory c'.memory
          ∧ c'.running + c.scheduled.map (·.scheduledGroup) ≤ rest := by
  have hrest : ∀ waiting running swapped : Multiset SequenceGroup,
      running + c.scheduled.map (·.scheduledGroup)
        ≤ waiting + running + swapped + c.scheduled.map (·.scheduledGroup) + c.ignored
          + c.infeasible := by
    intro waiting running swapped
    calc
      _ ≤ running + c.scheduled.map (·.scheduledGroup)
          + (waiting + swapped + c.ignored + c.infeasible) := Multiset.le_add_right _ _
      _ = _ := by abel
  cases h with
  | recompute group seq running memory hrunning hgroup heffect =>
    refine ⟨group, seq, _, ?_, hgroup, .inl (by simp [hrunning]),
      heffect.toTouches, hrest c.waiting running c.swapped⟩
    simp only [held, hrunning, Multiset.add_cons, Multiset.cons_add]
  | swapOut group seq running numbers memory hrunning hgroup heffect =>
    refine ⟨group, seq, _, ?_, hgroup, .inl (by simp [hrunning]),
      heffect.toTouches, hrest c.waiting running c.swapped⟩
    simp only [held, hrunning, Multiset.add_cons, Multiset.cons_add]
  | append group seq running numTokens copies memory hrunning hgroup hchunk heffect =>
    refine ⟨group, seq, _, ?_, hgroup, .inl (by simp [hrunning]),
      heffect.toTouches, hrest c.waiting running c.swapped⟩
    simp only [held, hrunning, Multiset.add_cons, Multiset.cons_add]
  | swapIn group seq swapped numTokens numbers copies between memory hswapped hgroup hchunk heffect
      happends =>
    refine ⟨group, seq, _, ?_, hgroup, .inr (.inl (by simp [hswapped])),
      heffect.toTouches.trans_appends happends,
      hrest c.waiting c.running swapped⟩
    simp only [held, hswapped, Multiset.add_cons, Multiset.cons_add]
  | reject group seq swapped memory hswapped hgroup heffect =>
    refine ⟨group, seq, _, ?_, hgroup, .inr (.inl (by simp [hswapped])),
      heffect.toTouches, hrest c.waiting c.running swapped⟩
    simp only [held, hswapped, Multiset.add_cons, Multiset.cons_add]
  | admitNext group seq waiting numTokens memory hwaiting hgroup hchunk heffect =>
    refine ⟨group, seq, _, ?_, hgroup, .inr (.inr (by simp [hwaiting])),
      heffect.toTouches, hrest waiting c.running c.swapped⟩
    simp only [held, hwaiting, Multiset.cons_add]
  | ignore group seq waiting memory hwaiting hgroup heffect =>
    refine ⟨group, seq, _, ?_, hgroup, .inr (.inr (by simp [hwaiting])),
      heffect.toTouches, hrest waiting c.running c.swapped⟩
    simp only [held, hwaiting, Multiset.cons_add]

theorem Move.keepsTokens (h : Move enableChunking c c') (seq : SequenceRef)
    : (c.memory.sequences seq).KeepsTokens (c'.memory.sequences seq) := by
  rcases h.exists_taken with ⟨group, seq', rest, -, -, -, htouches, -⟩
  by_cases hseq : seq = seq'
  . rw [hseq]
    exact htouches.keepsTokens
  . rw [htouches.sequences_of_ne seq hseq]
    exact .refl _

theorem Move.sequences_of_scheduled (h : Move enableChunking c c') (hok : c.OK enableChunking refs)
    {scheduled : ScheduledSequenceGroup} (hscheduled : scheduled ∈ c.scheduled)
    : ∀ seq ∈ scheduled.scheduledGroup.sequences, c'.memory.sequences seq = c.memory.sequences seq := by
  rcases h.exists_taken with ⟨taken, seq', rest, hheld, htaken, -, htouches, hrest⟩
  refine sequences_eq_of_touches htouches
    (hok.notMem_of_held hheld htaken _ (Multiset.mem_of_le hrest ?_))
  exact Multiset.mem_add.mpr (.inr (Multiset.mem_map_of_mem _ hscheduled))

theorem Move.sequences_of_isFinished (h : Move enableChunking c c') (hok : c.OK enableChunking refs)
    {seq : SequenceRef} (hfinished : (c.memory.sequences seq).isFinished = true)
    : c'.memory.sequences seq = c.memory.sequences seq := by
  rcases h.exists_taken with ⟨group, taken, rest, -, hgroup, hplace, htouches, -⟩
  refine htouches.sequences_of_ne seq ?_
  rintro rfl
  rcases hplace with hrunning | hswapped | hwaiting
  . rcases hok.running group hrunning with ⟨seq', hsingle, hstatus⟩
    cases hgroup.symm.trans hsingle
    simp [Sequence.isFinished, hstatus, SequenceStatus.isFinished] at hfinished
  . rcases hok.swapped group hswapped with ⟨seq', hsingle, hstatus⟩
    cases hgroup.symm.trans hsingle
    simp [Sequence.isFinished, hstatus, SequenceStatus.isFinished] at hfinished
  . have hstatus := hok.waiting group hwaiting seq (by simp [hgroup])
    simp [Sequence.isFinished, hstatus, SequenceStatus.isFinished] at hfinished

theorem Move.scheduled_le (h : Move enableChunking c c') : c.scheduled ≤ c'.scheduled := by
  cases h with
  | append => exact Multiset.le_cons_self _ _
  | swapIn => exact Multiset.le_cons_self _ _
  | admitNext => exact Multiset.le_cons_self _ _
  | _ => exact le_rfl

theorem Move.unwindowed_iff (h : Move enableChunking c c')
    : c'.memory.Unwindowed ↔ c.memory.Unwindowed := by
  rcases h.exists_taken with ⟨_, _, _, -, -, -, htouches, -⟩
  exact htouches.unwindowed_iff

theorem Move.blocksToCopy_eq (h : Move enableChunking c c') (hnone : c.memory.Unwindowed)
    : c'.blocksToCopy = c.blocksToCopy := by
  cases h with
  | append _ _ _ _ _ _ _ _ _ _ hcopies => exact hcopies hnone
  | swapIn _ _ _ _ _ _ _ _ _ _ _ _ _ hcopies => exact hcopies hnone
  | _ => rfl

section Data

/--
What a pass does to the data of a sequence, given the groups that it has recomputed.
-/
def Resets (recomputed : Multiset SequenceGroup) (heap heap' : SequenceHeap) : Prop :=
  ∀ seq, (heap' seq).sequenceData =
    if seq ∈ recomputed.bind fun group => (group.sequences : Multiset SequenceRef) then
      (heap seq).sequenceData.resetStateForRecompute
    else
      (heap seq).sequenceData

theorem Move.sequenceData_eq (h : Move enableChunking c c')
    : (c'.recomputed = c.recomputed
        ∧ ∀ seq, (c'.memory.sequences seq).sequenceData = (c.memory.sequences seq).sequenceData)
      ∨ ∃ group seq,
          c'.recomputed = group ::ₘ c.recomputed
            ∧ group.sequences = [seq]
            ∧ c'.memory.sequences = Function.update c.memory.sequences seq (c'.memory.sequences seq)
            ∧ (c'.memory.sequences seq).sequenceData
                = (c.memory.sequences seq).sequenceData.resetStateForRecompute := by
  have hkeeps : ∀ {seq : SequenceRef} {memory : Memory} {status : SequenceStatus},
      Memory.Touches seq c.memory memory →
      memory.sequences seq = (c.memory.sequences seq).setSequenceStatus status →
      ∀ other, (memory.sequences other).sequenceData = (c.memory.sequences other).sequenceData := by
    intro seq memory status htouches hsequence other
    by_cases hother : other = seq
    . rw [hother, hsequence]
      rfl
    . rw [htouches.sequences_of_ne other hother]
  cases h with
  | recompute group seq running memory hrunning hgroup heffect =>
    refine .inr ⟨group, seq, rfl, hgroup, ?_, by rw [heffect.sequence_eq]; rfl⟩
    funext other
    by_cases hother : other = seq
    . rw [hother, Function.update_self]
    . rw [Function.update_of_ne hother]
      exact heffect.sequences_of_ne other hother
  | swapOut group seq running numbers memory hrunning hgroup heffect =>
    exact .inl ⟨rfl, hkeeps heffect.toTouches heffect.sequence_eq⟩
  | append group seq running numTokens copies memory hrunning hgroup hchunk heffect =>
    exact .inl ⟨rfl, fun other => by rw [heffect.sequences_eq]⟩
  | swapIn group seq swapped numTokens numbers copies between memory hswapped hgroup hchunk heffect
      happends =>
    refine .inl ⟨rfl, fun other => ?_⟩
    rw [happends.sequences_eq]
    exact hkeeps heffect.toTouches heffect.sequence_eq other
  | reject group seq swapped memory hswapped hgroup heffect =>
    exact .inl ⟨rfl, hkeeps heffect.toTouches heffect.sequence_eq⟩
  | admitNext group seq waiting numTokens memory hwaiting hgroup hchunk heffect =>
    exact .inl ⟨rfl, hkeeps heffect.toTouches heffect.sequence_eq⟩
  | ignore group seq waiting memory hwaiting hgroup heffect =>
    exact .inl ⟨rfl, hkeeps heffect.toTouches heffect.sequence_eq⟩

theorem Move.sequenceData_eq_of_recomputed (h : Move enableChunking c c')
    (hsame : c'.recomputed = c.recomputed) (seq : SequenceRef)
    : (c'.memory.sequences seq).sequenceData = (c.memory.sequences seq).sequenceData := by
  rcases h.sequenceData_eq with ⟨-, hdata⟩ | ⟨group, taken, hmore, -⟩
  . exact hdata seq
  . have hcard := congrArg Multiset.card (hsame.symm.trans hmore)
    simp at hcard

theorem Moves.resets (h : Moves enableChunking c c') (hzero : c.recomputed = 0)
    : Resets c'.recomputed c.memory.sequences c'.memory.sequences := by
  induction h with
  | refl =>
    intro seq
    rw [hzero]
    rfl
  | tail _ hmove ih =>
    intro seq
    rcases hmove.sequenceData_eq with ⟨hsame, hdata⟩ | ⟨group, taken, hmore, hgroup, hothers, hdata⟩
    . rw [hsame, hdata]
      exact ih seq
    . rw [hmore, Multiset.cons_bind, hgroup, Multiset.coe_singleton, Multiset.singleton_add]
      by_cases htaken : seq = taken
      . subst htaken
        rw [if_pos (Multiset.mem_cons_self _ _), hdata, ih seq]
        split <;> rfl
      . rw [hothers, Function.update_of_ne htaken, ih seq]
        simp only [Multiset.mem_cons, htaken, false_or]

end Data

section Frame

variable {group : SequenceGroup} {seq : SequenceRef} {memory : Memory}
variable {waiting running swapped : Multiset SequenceGroup}
variable {scheduled : Multiset ScheduledSequenceGroup}

/--
The groups that a move does not take stay what they are.
-/
theorem OK.frame (h : c.OK enableChunking refs) (hgroup : group.sequences = [seq])
    (htouches : Memory.Touches seq c.memory memory)
    (hheld : c.held = group ::ₘ
      (waiting + running + swapped + scheduled.map (·.scheduledGroup)
        + c.ignored + c.infeasible))
    (hwaiting : waiting ≤ c.waiting) (hrunning : running ≤ c.running)
    (hswapped : swapped ≤ c.swapped) (hscheduled : scheduled ≤ c.scheduled)
    : (∀ group ∈ waiting, IsWaiting memory group)
        ∧ (∀ group ∈ running, HasStatus memory group .running)
        ∧ (∀ group ∈ swapped, HasStatus memory group .swapped)
        ∧ (∀ ready ∈ scheduled, IsReady memory enableChunking ready) := by
  have hnotMem := h.notMem_of_held hheld hgroup
  have hseq : seq ∈ refs := h.mem_refs group (by simp [hheld]) seq (by simp [hgroup])
  simp only [Multiset.mem_add, Multiset.mem_map] at hnotMem
  refine ⟨?_, ?_, ?_, ?_⟩
  . intro other hother
    exact (h.waiting other (Multiset.mem_of_le hwaiting hother)).of_eq
      (sequences_eq_of_touches htouches (hnotMem other (by tauto)))
  . intro other hother
    exact (h.running other (Multiset.mem_of_le hrunning hother)).of_eq
      (sequences_eq_of_touches htouches (hnotMem other (by tauto)))
  . intro other hother
    exact (h.swapped other (Multiset.mem_of_le hswapped hother)).of_eq
      (sequences_eq_of_touches htouches (hnotMem other (by tauto)))
  . intro other hother
    have hmem := Multiset.mem_of_le hscheduled hother
    have hin : other.scheduledGroup ∈ c.held := by
      simp only [held, Multiset.mem_add, Multiset.mem_map]
      exact .inl (.inl (.inr ⟨other, hmem, rfl⟩))
    exact (h.scheduled other hmem).of_touches h.sound hseq (h.mem_refs _ hin) htouches
      (hnotMem other.scheduledGroup (.inl (.inl (.inr ⟨other, hother, rfl⟩))))

end Frame

theorem Move.ok (h : Move enableChunking c c') (hok : c.OK enableChunking refs)
    : c'.OK enableChunking refs := by
  have hheld := h.held_eq
  have hdistinct := hok.distinct
  have hrefs := hok.mem_refs
  rw [← hheld] at hdistinct hrefs
  cases h with
  | recompute group seq running memory hrunning hgroup heffect =>
    rcases hok.running group (by simp [hrunning]) with ⟨_, hsingle, hstatus⟩
    cases hgroup.symm.trans hsingle
    have hseq : seq ∈ refs := hok.mem_refs group (by simp [held, hrunning]) seq (by simp [hgroup])
    have ⟨hwaiting', hrunning', hswapped', hscheduled'⟩ := hok.frame hgroup heffect.toTouches
      (by simp only [held, hrunning, Multiset.add_cons, Multiset.cons_add]) le_rfl
      (hrunning ▸ Multiset.le_cons_self _ _) le_rfl le_rfl
    refine ⟨heffect.sound hok.sound hseq, hdistinct, hrefs, ?_, hrunning', hswapped', hscheduled'⟩
    intro other hother
    rcases Multiset.mem_cons.mp hother with rfl | hother
    . intro seq' hseq'
      rw [hgroup, List.mem_singleton] at hseq'
      rw [hseq', heffect.sequence_eq]
      rfl
    . exact hwaiting' other hother
  | swapOut group seq running numbers memory hrunning hgroup heffect hin =>
    rcases hok.running group (by simp [hrunning]) with ⟨_, hsingle, hstatus⟩
    cases hgroup.symm.trans hsingle
    have hseq : seq ∈ refs := hok.mem_refs group (by simp [held, hrunning]) seq (by simp [hgroup])
    have ⟨hwaiting', hrunning', hswapped', hscheduled'⟩ := hok.frame hgroup heffect.toTouches
      (by simp only [held, hrunning, Multiset.add_cons, Multiset.cons_add]) le_rfl
      (hrunning ▸ Multiset.le_cons_self _ _) le_rfl le_rfl
    refine ⟨heffect.sound_out hok.sound hseq rfl hstatus, hdistinct, hrefs, hwaiting', hrunning', ?_,
      hscheduled'⟩
    intro other hother
    rcases Multiset.mem_cons.mp hother with rfl | hother
    . exact ⟨seq, hgroup, by rw [heffect.sequence_eq]; rfl⟩
    . exact hswapped' other hother
  | append group seq running numTokens copies memory hrunning hgroup hchunk heffect =>
    rcases hok.running group (by simp [hrunning]) with ⟨_, hsingle, hstatus⟩
    cases hgroup.symm.trans hsingle
    have hseq : seq ∈ refs := hok.mem_refs group (by simp [held, hrunning]) seq (by simp [hgroup])
    have ⟨hwaiting', hrunning', hswapped', hscheduled'⟩ := hok.frame hgroup heffect.toTouches
      (by simp only [held, hrunning, Multiset.add_cons, Multiset.cons_add]) le_rfl
      (hrunning ▸ Multiset.le_cons_self _ _) le_rfl le_rfl
    refine ⟨heffect.sound hok.sound hseq hstatus, hdistinct, hrefs, hwaiting', hrunning', hswapped',
      ?_⟩
    intro other hother
    rcases Multiset.mem_cons.mp hother with rfl | hother
    . exact IsReady.of_appends hgroup hstatus heffect hchunk
    . exact hscheduled' other hother
  | swapIn group seq swapped numTokens numbers copies between memory hswapped hgroup hchunk heffect
      happends hcopies hout =>
    rcases hok.swapped group (by simp [hswapped]) with ⟨_, hsingle, hstatus⟩
    cases hgroup.symm.trans hsingle
    have hseq : seq ∈ refs := hok.mem_refs group (by simp [held, hswapped]) seq (by simp [hgroup])
    have hsound := heffect.sound_in hok.sound hseq rfl hstatus
    have hstatus' : (between.sequences seq).sequenceStatus = .running := by
      rw [heffect.sequence_eq]
      rfl
    have ⟨hwaiting', hrunning', hswapped', hscheduled'⟩ := hok.frame hgroup
      (heffect.toTouches.trans_appends happends)
      (by simp only [held, hswapped, Multiset.add_cons, Multiset.cons_add]) le_rfl le_rfl
      (hswapped ▸ Multiset.le_cons_self _ _) le_rfl
    refine ⟨happends.sound hsound hseq hstatus', hdistinct, hrefs, hwaiting', hrunning', hswapped',
      ?_⟩
    intro other hother
    rcases Multiset.mem_cons.mp hother with rfl | hother
    . apply IsReady.of_appends hgroup hstatus' happends
      apply hchunk.of_eq
      rw [heffect.sequence_eq]
      rfl
    . exact hscheduled' other hother
  | reject group seq swapped memory hswapped hgroup heffect =>
    have hseq : seq ∈ refs := hok.mem_refs group (by simp [held, hswapped]) seq (by simp [hgroup])
    have ⟨hwaiting', hrunning', hswapped', hscheduled'⟩ := hok.frame hgroup heffect.toTouches
      (by simp only [held, hswapped, Multiset.add_cons, Multiset.cons_add]) le_rfl le_rfl
      (hswapped ▸ Multiset.le_cons_self _ _) le_rfl
    exact ⟨heffect.sound hok.sound hseq, hdistinct, hrefs, hwaiting', hrunning', hswapped',
      hscheduled'⟩
  | admitNext group seq waiting numTokens memory hwaiting hgroup hchunk heffect =>
    have hstatus := hok.waiting group (by simp [hwaiting]) seq (by simp [hgroup])
    have hseq : seq ∈ refs := hok.mem_refs group (by simp [held, hwaiting]) seq (by simp [hgroup])
    have ⟨hwaiting', hrunning', hswapped', hscheduled'⟩ := hok.frame hgroup heffect.toTouches
      (by simp only [held, hwaiting, Multiset.cons_add])
      (hwaiting ▸ Multiset.le_cons_self _ _) le_rfl le_rfl le_rfl
    have hpos : 1 ≤ (c.memory.sequences seq).length :=
      hchunk.1.trans ((Nat.le_add_left _ _).trans hchunk.2.1)
    refine ⟨heffect.sound hok.sound hseq hstatus hpos, hdistinct, hrefs, hwaiting', hrunning',
      hswapped', ?_⟩
    intro other hother
    rcases Multiset.mem_cons.mp hother with rfl | hother
    . rcases heffect.table_eq with ⟨blockTable, htable, hlength, -⟩
      refine ⟨seq, blockTable, hgroup, ?_, htable, ?_, ?_⟩
      . rw [heffect.sequence_eq]
        rfl
      . rw [heffect.sequence_eq]
        exact hlength
      . exact hchunk.of_eq (by rw [heffect.sequence_eq]; rfl)
    . exact hscheduled' other hother
  | ignore group seq waiting memory hwaiting hgroup heffect =>
    have hseq : seq ∈ refs := hok.mem_refs group (by simp [held, hwaiting]) seq (by simp [hgroup])
    have ⟨hwaiting', hrunning', hswapped', hscheduled'⟩ := hok.frame hgroup heffect.toTouches
      (by simp only [held, hwaiting, Multiset.cons_add])
      (hwaiting ▸ Multiset.le_cons_self _ _) le_rfl le_rfl le_rfl
    exact ⟨heffect.sound hok.sound hseq, hdistinct, hrefs, hwaiting', hrunning', hswapped',
      hscheduled'⟩

theorem Moves.ok (h : Moves enableChunking c c') (hok : c.OK enableChunking refs)
    : c'.OK enableChunking refs := by
  induction h with
  | refl => exact hok
  | tail _ hmove ih => exact hmove.ok ih

theorem Moves.sameConfig (h : Moves enableChunking c c')
    : c.memory.blockManager.SameConfig c'.memory.blockManager := by
  induction h with
  | refl => exact .refl _
  | tail _ hmove ih =>
    rcases hmove.exists_taken with ⟨_, _, _, -, -, -, htouches, -⟩
    exact ih.trans htouches.sameConfig

theorem Moves.unwindowed_iff (h : Moves enableChunking c c')
    : c'.memory.Unwindowed ↔ c.memory.Unwindowed := by
  induction h with
  | refl => rfl
  | tail _ hmove ih => rw [hmove.unwindowed_iff, ih]

theorem Moves.blocksToCopy_eq (h : Moves enableChunking c c') (hnone : c.memory.Unwindowed)
    : c'.blocksToCopy = c.blocksToCopy := by
  induction h with
  | refl => rfl
  | tail hmoves hmove ih => rw [hmove.blocksToCopy_eq ((Moves.unwindowed_iff hmoves).mpr hnone), ih]

theorem Moves.sequences_of_scheduled (h : Moves enableChunking c c')
    (hok : c.OK enableChunking refs) {scheduled : ScheduledSequenceGroup}
    (hscheduled : scheduled ∈ c.scheduled)
    : scheduled ∈ c'.scheduled
        ∧ ∀ seq ∈ scheduled.scheduledGroup.sequences,
            c'.memory.sequences seq = c.memory.sequences seq := by
  induction h with
  | refl => exact ⟨hscheduled, fun _ _ => rfl⟩
  | tail hmoves hmove ih =>
    refine ⟨Multiset.mem_of_le hmove.scheduled_le ih.1, fun seq hseq => ?_⟩
    rw [hmove.sequences_of_scheduled (Moves.ok hmoves hok) ih.1 seq hseq, ih.2 seq hseq]

theorem Moves.sequences_of_isFinished (h : Moves enableChunking c c')
    (hok : c.OK enableChunking refs) {seq : SequenceRef}
    (hfinished : (c.memory.sequences seq).isFinished = true)
    : c'.memory.sequences seq = c.memory.sequences seq := by
  induction h with
  | refl => rfl
  | tail hmoves hmove ih =>
    rw [hmove.sequences_of_isFinished (Moves.ok hmoves hok) (by rwa [ih]), ih]

theorem Moves.keepsTokens (h : Moves enableChunking c c') (seq : SequenceRef)
    : (c.memory.sequences seq).KeepsTokens (c'.memory.sequences seq) := by
  induction h with
  | refl => exact .refl _
  | tail _ hmove ih => exact ih.trans (hmove.keepsTokens seq)

theorem Moves.held_eq (h : Moves enableChunking c c') : c'.held = c.held := by
  induction h with
  | refl => rfl
  | tail _ hmove ih => rw [hmove.held_eq, ih]

end Config

end Scheduler

end AtomaInfer
