import AtomaInfer.Scheduler.Refines

/-!
Runs of a scheduler: groups arrive, `schedule` is called, and after each call the sequences of the
batch are brought up to date.
-/

namespace AtomaInfer

/--
What happens to a sequence that was scheduled with `tokenChunkSize` tokens.
-/
structure Sequence.Advances (tokenChunkSize : Nat) (doSample : Bool) (maxModelLen : Nat)
    (sequence sequence' : Sequence) : Prop where
  blockSize_eq : sequence'.blockSize = sequence.blockSize
  promptTokenIds_eq :
    sequence'.sequenceData.promptTokenIds = sequence.sequenceData.promptTokenIds
  numComputedTokens_eq : sequence'.sequenceData.numComputedTokens
    = sequence.sequenceData.numComputedTokens + tokenChunkSize
  stage_eq : sequence'.sequenceData.stage
    =
    if sequence.sequenceData.numComputedTokens + tokenChunkSize = sequence.length then .decode
    else sequence.sequenceData.stage
  append : doSample = true →
    ∃ tokenId,
      sequence'.sequenceData.outputTokenIds = sequence.sequenceData.outputTokenIds ++ [tokenId]
        ∧ sequence.appendTokensToBlocks [tokenId]
            = .ok { sequence with logicalTokenBlocks := sequence'.logicalTokenBlocks }
  keep : doSample = false →
    sequence'.sequenceData.outputTokenIds = sequence.sequenceData.outputTokenIds
      ∧ sequence'.logicalTokenBlocks = sequence.logicalTokenBlocks
  status : sequence'.sequenceStatus = sequence.sequenceStatus ∨ sequence'.isFinished = true
  capped : doSample = true → maxModelLen < sequence'.length → sequence'.isFinished = true

namespace Scheduler

/--
A group that is ready, with the metadata that describes it.
-/
structure Describes (memory : Memory) (enableChunking : Bool) (scheduled : ScheduledSequenceGroup)
    (metadata : SequenceGroupMetadata) (seq : SequenceRef) (blockTable : BlockTable) : Prop where
  sequences_eq : scheduled.scheduledGroup.sequences = [seq]
  status_eq : (memory.sequences seq).sequenceStatus = .running
  table_eq : memory.table seq = some blockTable
  length_eq : blockTable.length = (memory.sequences seq).getNumTotalLogicalTokenBlocks
  chunk : IsChunk memory enableChunking seq scheduled.tokenChunkSize
  requestId_eq : metadata.requestId = scheduled.scheduledGroup.requestId
  isPrompt_eq : metadata.isPrompt = (memory.sequences seq).isPrefill
  tokenChunkSize_eq : metadata.tokenChunkSize = scheduled.tokenChunkSize
  doSample_eq : metadata.doSample = decide
    ((memory.sequences seq).sequenceData.numComputedTokens + scheduled.tokenChunkSize
      = (memory.sequences seq).length)
  sequenceData_eq : metadata.sequenceData
    = AList.insert seq.sequenceId (memory.sequences seq).sequenceData ∅
  blockTables_eq : metadata.blockTables
    = AList.insert seq.sequenceId (blockTable.map (·.blockNumber)) ∅

variable {scheduler scheduler' : Scheduler} {scheduled : ScheduledSequenceGroup}
variable {metadata : SequenceGroupMetadata} {enableChunking : Bool} {refs : List SequenceRef}

theorem Describes.of_eq {memory memory' : Memory} {seq : SequenceRef} {blockTable : BlockTable}
    (h : Describes memory enableChunking scheduled metadata seq blockTable)
    (hsequence : memory'.sequences seq = memory.sequences seq)
    (htable : memory'.table seq = memory.table seq)
    : Describes memory' enableChunking scheduled metadata seq blockTable := by
  rcases h with ⟨hgroup, hstatus, hsome, hlength, hchunk, hrequest, hprompt, hsize, hsample, hdata,
    htables⟩
  rw [← hsequence] at hstatus hlength hprompt hsample hdata
  rw [← htable] at hsome
  exact ⟨hgroup, hstatus, hsome, hlength, hchunk.of_eq (by rw [hsequence]), hrequest, hprompt, hsize,
    hsample, hdata, htables⟩

theorem collectSequences_eq (now : Nat) {group : SequenceGroup} {seq : SequenceRef}
    {blockTable : BlockTable} (hgroup : group.sequences = [seq])
    (hstatus : (scheduler.memory.sequences seq).sequenceStatus = .running)
    (htable : scheduler.memory.table seq = some blockTable)
    : (scheduler.collectSequences now group).1
          = AList.insert seq.sequenceId (scheduler.memory.sequences seq).sequenceData ∅
        ∧ (scheduler.collectSequences now group).2.1
            = AList.insert seq.sequenceId (blockTable.map (·.blockNumber)) ∅ := by
  have hids : scheduler.memory.blockManager.getBlockTableIds seq.sequenceId
      = some (blockTable.map (·.blockNumber)) := by
    unfold BlockSpaceManager.getBlockTableIds
    rw [show scheduler.memory.blockManager.blockTables.lookup seq.sequenceId = some blockTable
      from htable]
    rfl
  unfold collectSequences
  rw [SequenceGroup.getSeqs_eq_singleton hgroup hstatus]
  simp only [List.foldl_cons, List.foldl_nil, hids, and_self]

theorem HasMetadata.describes {now : Nat} (h : scheduler.HasMetadata now scheduled metadata)
    (hsound : scheduler.memory.Sound refs)
    (hrefs : ∀ seq ∈ scheduled.scheduledGroup.sequences, seq ∈ refs)
    (hready : IsReady scheduler.memory enableChunking scheduled)
    : ∃ seq blockTable,
        Describes scheduler.memory enableChunking scheduled metadata seq blockTable := by
  rcases hready with ⟨seq, blockTable, hgroup, hstatus, htable, hlength, hchunk⟩
  rcases h with ⟨current, next, hsame, hmetadata⟩
  have hsequences := hsame.sequences
  have htable' : current.memory.table seq = some blockTable := by
    rw [← htable]
    exact hsame.lookup seq.sequenceId
  have hstatus' := hstatus
  rw [← hsequences] at hstatus'
  have hcollect := collectSequences_eq now hgroup hstatus' htable'
  simp only [groupMetadata, Except.bind_eq_ok] at hmetadata
  rcases hmetadata with ⟨doSample, hsample, hpure⟩
  have hsame' := collectSequences_sameButAccess current now scheduled.scheduledGroup
  have hheap := hsame'.sequences.trans hsequences
  rw [hsequences] at hcollect
  cases hpure
  refine ⟨seq, blockTable, hgroup, hstatus, htable, hlength, hchunk, rfl, ?_, rfl, ?_, hcollect.1,
    hcollect.2⟩
  . simp [SequenceGroup.isPrefill, hgroup, hheap]
  . have hseq := hrefs seq (by simp [hgroup])
    rcases hsound.onDevice_of_running hseq hstatus with ⟨_, -, -, -, -, -, hdecode, -⟩
    unfold Scheduler.doSample at hsample
    rw [hheap] at hsample
    simp only [SequenceGroup.isPrefill, hgroup, List.head?_cons] at hsample
    rcases hchunk with ⟨hpos, hle, -⟩
    change _ ≤ (scheduler.memory.sequences seq).length at hle
    split at hsample
    . cases hsample
      rw [Bool.eq_iff_iff, Bool.not_eq_true', decide_eq_false_iff_not, decide_eq_true_eq]
      change ¬ _ < (scheduler.memory.sequences seq).length ↔ _
      omega
    . next hstage =>
      have hdecodes : (scheduler.memory.sequences seq).sequenceData.stage = .decode := by
        cases hcase : (scheduler.memory.sequences seq).sequenceData.stage with
        | prefill => exact absurd (by simp [Sequence.isPrefill, hcase]) hstage
        | decode => rfl
      have hone := hdecode hdecodes
      change _ = (scheduler.memory.sequences seq).length at hone
      cases hsample
      symm
      rw [decide_eq_true_eq]
      omega

end Scheduler

/--
A scheduler, the groups that it was given so far, and the batch that is being computed.
-/
structure Session where
  scheduler : Scheduler
  arrived : List SequenceGroup
  pending : Option (List SequenceGroupMetadata × SchedulerOutputs)

namespace Session

open Scheduler

def start (scheduler : Scheduler) : Session where
  scheduler
  arrived := []
  pending := none

def refs (session : Session) : List SequenceRef :=
  session.arrived.flatMap (·.sequences)

def receive (session : Session) (group : SequenceGroup) (seq : SequenceRef) (sequence : Sequence)
    : Session :=
  {
    session with
    scheduler := addSequenceGroup
      {
        session.scheduler with
        memory.sequences := Function.update session.scheduler.memory.sequences seq sequence
      }
      group
    arrived := session.arrived ++ [group]
  }

/--
The groups that may arrive, given those that arrived before.
-/
abbrev Accepts := List SequenceGroup → SequenceGroup → Sequence → Prop

/--
A group with a new sequence, whose identifier no other sequence has.
-/
inductive Arrives (accepts : Accepts) (session : Session) : Session → Prop where
  | intro (group : SequenceGroup) (seq : SequenceRef) (sequence : Sequence) (prompt : String)
      (promptTokenIds : List Nat) (returnFullText : Bool) (hgroup : group.sequences = [seq])
      (hfresh : ∀ other ∈ session.refs, other.sequenceId ≠ seq.sequenceId)
      (hnew : Sequence.new prompt promptTokenIds session.scheduler.memory.blockManager.blockSize
        returnFullText = .ok sequence)
      (haccepts : accepts session.arrived group sequence)
    : Arrives accepts session (session.receive group seq sequence)

inductive Schedules (session : Session) : Session → Prop where
  | intro (instants : Instants) (metadata : List SequenceGroupMetadata) (outputs : SchedulerOutputs)
      (scheduler : Scheduler) (hpending : session.pending = none)
      (hschedule : session.scheduler.schedule instants = .ok (metadata, outputs, scheduler))
    : Schedules session { session with scheduler, pending := some (metadata, outputs) }

/--
The sequences of the batch advance, and no other ones.
-/
structure UpdatesSequences (maxModelLen : Nat) (scheduled : List ScheduledSequenceGroup)
    (metadata : List SequenceGroupMetadata) (heap heap' : SequenceHeap) : Prop where
  advances : ∀ entry ∈ scheduled.zip metadata, ∀ seq ∈ entry.1.scheduledGroup.sequences,
    (heap seq).Advances entry.1.tokenChunkSize entry.2.doSample maxModelLen (heap' seq)
  frame : ∀ seq, (∀ entry ∈ scheduled.zip metadata, seq ∉ entry.1.scheduledGroup.sequences)
    → heap' seq = heap seq

def update (session : Session) (heap : SequenceHeap) : Session :=
  {
    session with
    scheduler := removeFinishedSequences { session.scheduler with memory.sequences := heap }
    pending := none
  }

inductive Updates (session : Session) : Session → Prop where
  | intro (metadata : List SequenceGroupMetadata) (outputs : SchedulerOutputs) (heap : SequenceHeap)
      (hpending : session.pending = some (metadata, outputs))
      (hupdates : UpdatesSequences session.scheduler.schedulerConfig.maxModelLen
        outputs.scheduledSequenceGroups metadata session.scheduler.memory.sequences heap)
    : Updates session (session.update heap)

inductive Step (accepts : Accepts) (session : Session) : Session → Prop where
  | arrive {session' : Session} (h : session.Arrives accepts session') : Step accepts session session'
  | schedule {session' : Session} (h : session.Schedules session') : Step accepts session session'
  | update {session' : Session} (h : session.Updates session') : Step accepts session session'

def Steps (accepts : Accepts) : Session → Session → Prop :=
  Relation.ReflTransGen (Step accepts)

/--
The invariant of a session: the queues are in order, and so is the batch that is being computed.
-/
structure Inv (session : Session) : Prop where
  ok : session.scheduler.config.OK false session.refs
  describes : ∀ metadata outputs, session.pending = some (metadata, outputs) →
    List.Forall₂
      (fun scheduled metadata => ∃ seq ∈ session.refs, ∃ blockTable,
        Describes session.scheduler.memory
          session.scheduler.schedulerConfig.enableChunkedPrefill scheduled metadata seq blockTable)
      outputs.scheduledSequenceGroups metadata

theorem inv_start (schedulerConfig : SchedulerConfig) (blockSize numCpuBlocks numGpuBlocks : Nat)
    (slidingWindow : Option Nat) (heap : SequenceHeap) (now : Nat)
    : (start (Scheduler.new schedulerConfig blockSize numCpuBlocks numGpuBlocks slidingWindow heap
        now)).Inv := by
  refine ⟨⟨⟨?_, ?_, List.nodup_nil, ?_, ?_, ?_⟩, ?_, ?_, ?_, ?_, ?_, ?_⟩, ?_⟩
  . intro hnone
    cases slidingWindow with
    | none => exact BlockSpaceManager.accounted_new _ _ _
    | some window => exact (nomatch hnone)
  . intro _ _ _ _ _ _ hlookup
    exact (nomatch hlookup)
  . intro _ _ hlookup
    exact (nomatch hlookup)
  . exact fun _ hseq => (nomatch hseq)
  . exact fun _ hseq => (nomatch hseq)
  . simp [start, Scheduler.new, Scheduler.config, Config.held]
  all_goals simp [start, Scheduler.new, Scheduler.config, Config.held]

variable {accepts : Accepts} {session session' : Session}

theorem held_receive (group : SequenceGroup) (seq : SequenceRef) (sequence : Sequence)
    : (session.receive group seq sequence).scheduler.config.held
        = group ::ₘ session.scheduler.config.held := by
  simp only [Config.held, Scheduler.config, receive, addSequenceGroup, ← Multiset.coe_add,
    Multiset.coe_singleton, ← Multiset.singleton_add]
  abel

theorem Arrives.inv (h : session.Arrives accepts session') (hinv : session.Inv) : session'.Inv := by
  cases h with
  | intro group seq sequence prompt promptTokenIds returnFullText hgroup hfresh hnew haccepts =>
    have hrefs : (session.receive group seq sequence).refs = session.refs ++ [seq] := by
      simp [refs, receive, hgroup]
    have hne : ∀ other ∈ session.refs, other ≠ seq :=
      fun other hother heq => hfresh other hother (by rw [heq])
    have hstatus := (Sequence.of_new hnew).2.2.1
    have hsame : ∀ other ∈ session.refs,
        (session.receive group seq sequence).scheduler.memory.sequences other
          = session.scheduler.memory.sequences other :=
      fun other hother => Function.update_of_ne (hne other hother) _ _
    have hheld := session.held_receive group seq sequence
    have hold := hinv.ok.mem_refs
    refine ⟨⟨?_, ?_, ?_, ?_, ?_, ?_, ?_⟩, ?_⟩
    . rw [hrefs]
      exact hinv.ok.sound.arrive hfresh hnew
    . rw [hheld, Multiset.cons_bind, hgroup, Multiset.coe_singleton, Multiset.singleton_add,
        Multiset.nodup_cons]
      refine ⟨?_, hinv.ok.distinct⟩
      intro hmem
      rcases Multiset.mem_bind.mp hmem with ⟨other, hother, hin⟩
      exact hne seq (hold other hother seq hin) rfl
    . rw [hheld, hrefs]
      intro other hother seq' hseq'
      rcases Multiset.mem_cons.mp hother with rfl | hother
      . rw [hgroup] at hseq'
        exact List.mem_append_right _ hseq'
      . exact List.mem_append_left _ (hold other hother seq' hseq')
    . intro other hother
      have hother : other ∈ session.scheduler.waiting ++ [group] := hother
      rcases List.mem_append.mp hother with hother | hother
      . exact (hinv.ok.waiting other hother).of_eq
          fun seq' hseq' => hsame seq' (hold other (by simp [Config.held, Scheduler.config, hother])
            seq' hseq')
      . rw [List.mem_singleton] at hother
        subst hother
        intro seq' hseq'
        rw [hgroup, List.mem_singleton] at hseq'
        subst hseq'
        simpa [Scheduler.config, receive, addSequenceGroup] using hstatus
    . intro other hother
      have hmem : other ∈ session.scheduler.config.held := by
        simp only [Config.held, Multiset.mem_add]
        tauto
      exact (hinv.ok.running other hother).of_eq
        fun seq' hseq' => hsame seq' (hold other hmem seq' hseq')
    . intro other hother
      have hmem : other ∈ session.scheduler.config.held := by
        simp only [Config.held, Multiset.mem_add]
        tauto
      exact (hinv.ok.swapped other hother).of_eq
        fun seq' hseq' => hsame seq' (hold other hmem seq' hseq')
    . exact fun _ hscheduled => absurd hscheduled (Multiset.notMem_zero _)
    . intro metadata outputs hpending
      refine (hinv.describes metadata outputs hpending).imp ?_
      rintro scheduled metadata ⟨seq', hseq', blockTable, hdescribes⟩
      rw [hrefs]
      exact ⟨seq', List.mem_append_left _ hseq', blockTable,
        hdescribes.of_eq (hsame seq' hseq') rfl⟩

theorem Schedules.inv (h : session.Schedules session') (hinv : session.Inv) : session'.Inv := by
  cases h with
  | intro instants metadata outputs scheduler hpending hschedule =>
    rcases schedule_eq_ok hschedule with ⟨passed, hpolicy, hsame, hmetadata⟩
    have hok := hinv.ok.of_scheduled_eq_zero rfl
      session.scheduler.schedulerConfig.enableChunkedPrefill
    rcases schedulePolicy_moves hpolicy hok with ⟨c, lost, hmoves, hsettles, hconfig, -, -⟩
    have hpassed := hsettles.ok (hmoves.ok hok)
    have hready : ∀ scheduled ∈ outputs.scheduledSequenceGroups,
        (∀ seq ∈ scheduled.scheduledGroup.sequences, seq ∈ session.refs)
          ∧ IsReady passed.memory session.scheduler.schedulerConfig.enableChunkedPrefill
              scheduled := by
      intro scheduled hscheduled
      have hmem : scheduled ∈ c.scheduled := by
        rw [← hsettles.scheduled_eq]
        exact hscheduled
      rw [hsettles.memory_eq]
      refine ⟨?_, (hmoves.ok hok).scheduled scheduled hmem⟩
      apply (hmoves.ok hok).mem_refs
      simp only [Config.held, Multiset.mem_add, Multiset.mem_map]
      exact .inl (.inl (.inr ⟨scheduled, hmem, rfl⟩))
    rcases hsame with ⟨manager, rfl, hmanager⟩
    refine ⟨⟨hpassed.sound.of_sameButAccess hmanager, hpassed.distinct, hpassed.mem_refs,
      hpassed.waiting, hpassed.running, hpassed.swapped,
      fun _ hscheduled => absurd hscheduled (Multiset.notMem_zero _)⟩, ?_⟩
    intro metadata' outputs' hsome
    cases hsome
    refine ((List.forall₂_and_left _ _).mpr ⟨hready, hmetadata⟩).imp ?_
    rintro scheduled metadata ⟨⟨hrefs, hready⟩, hmetadata⟩
    rcases hmetadata.describes hpassed.sound hrefs hready with ⟨seq, blockTable, hdescribes⟩
    refine ⟨seq, hrefs seq (by simp [hdescribes.sequences_eq]), blockTable, ?_⟩
    dsimp only
    rw [hconfig]
    rcases hmanager with ⟨blocks, rfl, -⟩
    exact hdescribes.of_eq rfl rfl

/--
What a call of `schedule` does to the sequences, and the batch that it returns.
-/
structure Reschedules (instants : Instants) (scheduled : List ScheduledSequenceGroup)
    (scheduler scheduler' : Scheduler) : Prop where
  schedulerConfig_eq : scheduler'.schedulerConfig = scheduler.schedulerConfig
  sameConfig : scheduler.memory.blockManager.SameConfig scheduler'.memory.blockManager
  keepsTokens : ∀ seq, (scheduler.memory.sequences seq).KeepsTokens (scheduler'.memory.sequences seq)
  sequences_of_isFinished : ∀ seq, (scheduler.memory.sequences seq).isFinished = true →
    scheduler'.memory.sequences seq = scheduler.memory.sequences seq
  resets : Config.Resets (scheduler.recomputed instants) scheduler.memory.sequences
    scheduler'.memory.sequences
  ordered : Ordered scheduler'.memory.sequences scheduler.schedulerConfig.enableChunkedPrefill
    scheduled
  nodup : (scheduled.flatMap (·.scheduledGroup.sequences)).Nodup
  groups : ∀ ready ∈ scheduled, ready.scheduledGroup ∈ scheduler.config.held
  held_le : scheduler'.config.held ≤ scheduler.config.held

theorem Inv.reschedules {instants : Instants} {metadata : List SequenceGroupMetadata}
    {outputs : SchedulerOutputs} {scheduler : Scheduler} (hinv : session.Inv)
    (h : session.scheduler.schedule instants = .ok (metadata, outputs, scheduler))
    : Reschedules instants outputs.scheduledSequenceGroups session.scheduler scheduler := by
  rcases schedule_eq_ok h with ⟨passed, hpolicy, hsame, -⟩
  have hok := hinv.ok.of_scheduled_eq_zero rfl
    session.scheduler.schedulerConfig.enableChunkedPrefill
  rcases schedulePolicy_moves hpolicy hok
    with ⟨c, lost, hmoves, hsettles, hconfig, hrecomputed, hordered⟩
  have hmemory := hsettles.memory_eq
  rcases hsame with ⟨manager, rfl, blocks, rfl, -⟩
  dsimp only at hordered ⊢
  rw [hmemory] at hordered
  have hscheduled : (outputs.scheduledSequenceGroups : Multiset ScheduledSequenceGroup).map
      (·.scheduledGroup) ≤ c.held := by
    rw [hsettles.scheduled_eq]
    calc
      _ ≤ c.scheduled.map (·.scheduledGroup)
          + (c.waiting + c.running + c.swapped + c.ignored + c.infeasible) :=
        Multiset.le_add_right _ _
      _ = c.held := by
        unfold Config.held
        abel
  constructor
  . exact hconfig
  . have hsame := hmoves.sameConfig
    rw [← hmemory] at hsame
    exact ⟨hsame.blockSize_eq, hsame.numGpuBlocks_eq, hsame.blockSlidingWindow_eq,
      hsame.numBlocks_eq⟩
  . dsimp only
    rw [hmemory]
    exact hmoves.keepsTokens
  . dsimp only
    rw [hmemory]
    exact fun seq => hmoves.sequences_of_isFinished hok
  . dsimp only
    rw [hmemory, ← hrecomputed]
    exact hmoves.resets rfl
  . dsimp only
    rwa [hmemory]
  . have := Config.nodup_bind_of_le hscheduled (hmoves.ok hok).distinct
    rw [Multiset.bind_map] at this
    simpa [Multiset.coe_bind] using this
  . intro ready hready
    rw [← hmoves.held_eq]
    apply Multiset.mem_of_le hscheduled
    exact Multiset.mem_map_of_mem _ hready
  . rw [← hmoves.held_eq, hsettles.held_eq]
    exact Multiset.le_add_right _ _

section Update

variable {memory : Memory} {refs : List SequenceRef} {enableChunking : Bool}
variable {scheduled : ScheduledSequenceGroup} {metadata : SequenceGroupMetadata}
variable {seq : SequenceRef} {blockTable : BlockTable} {maxModelLen : Nat} {heap : SequenceHeap}

theorem length_of_advances
    (hadvances : (memory.sequences seq).Advances scheduled.tokenChunkSize metadata.doSample
      maxModelLen (heap seq))
    : (heap seq).length
        = (memory.sequences seq).length + if metadata.doSample then 1 else 0 := by
  unfold Sequence.length SequenceData.length
  rw [hadvances.promptTokenIds_eq]
  split
  . next hsample =>
    rcases hadvances.append hsample with ⟨tokenId, htokens, -⟩
    rw [htokens, List.length_append, List.length_singleton]
    omega
  . next hsample =>
    rw [(hadvances.keep (by simpa using hsample)).1]
    rfl

theorem wellFormed_of_advances (hsound : memory.Sound refs) (hseq : seq ∈ refs)
    (hadvances : (memory.sequences seq).Advances scheduled.tokenChunkSize metadata.doSample
      maxModelLen (heap seq))
    : Memory.WellFormed { memory with sequences := heap } seq := by
  have hformed := hsound.wellFormed seq hseq
  constructor
  . exact hadvances.blockSize_eq.trans hformed.blockSize_eq
  . change (heap seq).Stores (heap seq).sequenceData.getTokenIds
    cases hsample : metadata.doSample with
    | true =>
      rcases hadvances.append hsample with ⟨tokenId, htokens, happend⟩
      rcases Sequence.of_appendTokensToBlocks happend hformed.stores
        with ⟨blocks, hblocks, hconsecutive, hflat, hlast⟩
      constructor
      . rw [hadvances.blockSize_eq]
        exact hconsecutive
      . unfold SequenceData.getTokenIds at hflat ⊢
        rw [hadvances.promptTokenIds_eq, htokens, ← List.append_assoc]
        exact hflat
      . exact hlast
    | false =>
      rcases hadvances.keep hsample with ⟨htokens, hblocks⟩
      rcases hformed.stores with ⟨hconsecutive, hflat, hlast⟩
      constructor
      . rwa [hadvances.blockSize_eq, hblocks]
      . rw [hblocks, hflat]
        unfold SequenceData.getTokenIds
        rw [hadvances.promptTokenIds_eq, htokens]
      . rwa [hblocks]

theorem numBlocks_le_of_advances (hsound : memory.Sound refs) (hseq : seq ∈ refs)
    (hadvances : (memory.sequences seq).Advances scheduled.tokenChunkSize metadata.doSample
      maxModelLen (heap seq))
    : (memory.sequences seq).getNumTotalLogicalTokenBlocks
        ≤ (heap seq).getNumTotalLogicalTokenBlocks := by
  have hformed := hsound.wellFormed seq hseq
  have hformed' := wellFormed_of_advances hsound hseq hadvances
  have hlength := length_of_advances hadvances
  rw [hformed.stores.getNumTotalLogicalTokenBlocks_eq,
    hformed'.stores.getNumTotalLogicalTokenBlocks_eq, hadvances.blockSize_eq,
    Nat.ceilDiv_eq_add_pred_div, Nat.ceilDiv_eq_add_pred_div]
  apply Nat.div_le_div_right
  unfold Sequence.length SequenceData.length at hlength
  simp only [SequenceData.getTokenIds, List.length_append]
  omega

/--
The table has a place for every token that is there when the batch is scheduled.
-/
theorem places_of_describes (hsound : memory.Sound refs) (hseq : seq ∈ refs)
    (hdescribes : Describes memory enableChunking scheduled metadata seq blockTable)
    : (memory.sequences seq).length ≤ blockTable.length * memory.blockManager.blockSize := by
  rcases hdescribes.chunk with ⟨hpos, hchunk, -⟩
  change _ ≤ (memory.sequences seq).length at hchunk
  have hsize := hsound.blockSize_pos hseq (by omega)
  rw [hdescribes.length_eq, hsound.numBlocks_eq hseq, Nat.ceilDiv_eq_add_pred_div]
  have := Nat.lt_div_mul_add hsize
    (a := (memory.sequences seq).length + memory.blockManager.blockSize - 1)
  omega

theorem located_of_advances (hsound : memory.Sound refs) (hseq : seq ∈ refs)
    (hdescribes : Describes memory enableChunking scheduled metadata seq blockTable)
    (hadvances : (memory.sequences seq).Advances scheduled.tokenChunkSize metadata.doSample
      maxModelLen (heap seq))
    : Memory.Located { memory with sequences := heap } seq := by
  rcases hadvances.status with hstatus | hfinished
  . rw [hdescribes.status_eq] at hstatus
    rcases hsound.onDevice_of_running hseq hdescribes.status_eq
      with ⟨_, htable, hgpu, hlt, hroom, hle, hdecode, hprefill⟩
    cases htable.symm.trans hdescribes.table_eq
    simp only [Memory.Located, hstatus]
    refine ⟨blockTable, hdescribes.table_eq, hgpu, ?_⟩
    have hplaces := places_of_describes hsound hseq hdescribes
    have hlength := length_of_advances hadvances
    have hblocks := numBlocks_le_of_advances hsound hseq hadvances
    rcases hdescribes.chunk with ⟨hpos, hchunk, -⟩
    have hstage := hadvances.stage_eq
    have hsample := hdescribes.doSample_eq
    unfold Memory.Fits
    dsimp only
    rw [hadvances.numComputedTokens_eq]
    change _ < (heap seq).length ∧ _ ∧ _ ∧ (_ → _ = (heap seq).length) ∧ _
    change _ ≤ (memory.sequences seq).length at hchunk
    by_cases hfull : (memory.sequences seq).sequenceData.numComputedTokens
        + scheduled.tokenChunkSize = (memory.sequences seq).length
    . rw [if_pos hfull] at hstage
      simp only [hsample, hfull, decide_true, if_true] at hlength
      rw [hstage, hfull, hlength, ← hdescribes.length_eq] at *
      exact ⟨by omega, hplaces, hblocks, fun _ => rfl, fun h => (by cases h)⟩
    . rw [if_neg hfull] at hstage
      simp only [hfull, decide_false] at hsample
      simp only [hsample, Bool.false_eq_true, if_false] at hlength
      have hsame : (heap seq).getNumTotalLogicalTokenBlocks = blockTable.length := by
        unfold Sequence.getNumTotalLogicalTokenBlocks
        rw [(hadvances.keep hsample).2, hdescribes.length_eq]
        rfl
      rw [hstage, hsame, hlength]
      refine ⟨by omega, by omega, le_refl _, fun hdecodes => ?_, fun _ => rfl⟩
      have hone := hdecode hdecodes
      change _ = (memory.sequences seq).length at hone
      omega
  . unfold Sequence.isFinished SequenceStatus.isFinished at hfinished
    unfold Memory.Located
    split at hfinished <;> simp_all

end Update

/--
A sequence advances with the batch, or it stays as it is.
-/
theorem cases_of_updates {metadata : List SequenceGroupMetadata} {outputs : SchedulerOutputs}
    {heap : SequenceHeap} (hinv : session.Inv) (hpending : session.pending = some (metadata, outputs))
    (hupdates : UpdatesSequences session.scheduler.schedulerConfig.maxModelLen
      outputs.scheduledSequenceGroups metadata session.scheduler.memory.sequences heap)
    (seq : SequenceRef)
    : (∃ entry ∈ outputs.scheduledSequenceGroups.zip metadata, ∃ blockTable,
          seq ∈ session.refs
            ∧ Describes session.scheduler.memory
                session.scheduler.schedulerConfig.enableChunkedPrefill entry.1 entry.2 seq blockTable
            ∧ (session.scheduler.memory.sequences seq).Advances entry.1.tokenChunkSize
                entry.2.doSample session.scheduler.schedulerConfig.maxModelLen (heap seq))
        ∨ heap seq = session.scheduler.memory.sequences seq := by
  by_cases hin : ∃ entry ∈ outputs.scheduledSequenceGroups.zip metadata,
      seq ∈ entry.1.scheduledGroup.sequences
  . rcases hin with ⟨entry, hentry, hseq⟩
    left
    rcases (List.forall₂_iff_zip.mp (hinv.describes metadata outputs hpending)).2 hentry
      with ⟨seq', hseq', blockTable, hdesc⟩
    rw [hdesc.sequences_eq, List.mem_singleton] at hseq
    subst hseq
    exact ⟨entry, hentry, blockTable, hseq', hdesc,
      hupdates.advances entry hentry seq (by simp [hdesc.sequences_eq])⟩
  . right
    apply hupdates.frame
    intro entry hentry hseq
    exact hin ⟨entry, hentry, hseq⟩

theorem held_update_le (session : Session) (heap : SequenceHeap)
    : (session.update heap).scheduler.config.held ≤ session.scheduler.config.held := by
  simp only [Config.held, Scheduler.config, update, removeFinishedSequences]
  gcongr
  exact List.filter_sublist.subperm

theorem Updates.inv (h : session.Updates session') (hinv : session.Inv) : session'.Inv := by
  cases h with
  | intro metadata outputs heap hpending hupdates =>
    -- a sequence that was scheduled runs and advances; the others stay
    have hcases := cases_of_updates hinv hpending hupdates
    have hsame : ∀ group : SequenceGroup, ∀ status, status ≠ .running →
        (∀ seq ∈ group.sequences,
          (session.scheduler.memory.sequences seq).sequenceStatus = status) →
        ∀ seq ∈ group.sequences, heap seq = session.scheduler.memory.sequences seq := by
      intro group status hne hstatus seq hseq
      rcases hcases seq with ⟨entry, -, blockTable, -, hdesc, -⟩ | hsame
      . exact absurd ((hstatus seq hseq).symm.trans hdesc.status_eq) hne
      . exact hsame
    have hheld := session.held_update_le heap
    refine ⟨⟨?_, ?_, ?_, ?_, ?_, ?_, ?_⟩, fun _ _ hsome => (by cases hsome)⟩
    . have hsound := hinv.ok.sound
      refine ⟨hsound.accounted, hsound.unshared, hsound.nodup, hsound.known, ?_, ?_⟩
      . intro seq hseq
        rcases hcases seq with ⟨entry, -, blockTable, -, hdesc, hadvances⟩ | hsame
        . exact wellFormed_of_advances hsound hseq hadvances
        . exact (hsound.wellFormed seq hseq).of_eq hsame (.refl _)
      . intro seq hseq
        rcases hcases seq with ⟨entry, -, blockTable, -, hdesc, hadvances⟩ | hsame
        . exact located_of_advances hsound hseq hdesc hadvances
        . exact (hsound.located seq hseq).of_eq hsame rfl (.refl _)
    . exact Config.nodup_bind_of_le hheld hinv.ok.distinct
    . intro group hgroup
      exact hinv.ok.mem_refs group (Multiset.mem_of_le hheld hgroup)
    . intro group hgroup
      have hwaiting := hinv.ok.waiting group hgroup
      exact hwaiting.of_eq (hsame group .waiting (by decide) hwaiting)
    . intro group hgroup
      have hgroup : group ∈ session.scheduler.running.filter (fun group => !group.isFinished heap) :=
        hgroup
      rw [List.mem_filter] at hgroup
      rcases hinv.ok.running group hgroup.1 with ⟨seq, hsingle, hstatus⟩
      refine ⟨seq, hsingle, ?_⟩
      change (heap seq).sequenceStatus = .running
      rcases hcases seq with ⟨entry, -, blockTable, -, hdesc, hadvances⟩ | hsame
      . rcases hadvances.status with hkeeps | hfinished
        . rw [hkeeps]
          exact hdesc.status_eq
        . simp [SequenceGroup.isFinished, hsingle, hfinished] at hgroup
      . rw [hsame]
        exact hstatus
    . intro group hgroup
      have hswapped := hinv.ok.swapped group hgroup
      rcases hswapped with ⟨seq, hsingle, hstatus⟩
      apply (hinv.ok.swapped group hgroup).of_eq
      apply hsame group .swapped (by decide)
      intro seq' hseq'
      rw [hsingle, List.mem_singleton] at hseq'
      rw [hseq']
      exact hstatus
    . exact fun _ hscheduled => absurd hscheduled (Multiset.notMem_zero _)

theorem Steps.sameConfig (h : Steps accepts session session') (hinv : session.Inv)
    : session'.scheduler.schedulerConfig = session.scheduler.schedulerConfig
        ∧ session.scheduler.memory.blockManager.SameConfig
            session'.scheduler.memory.blockManager := by
  induction h using Relation.ReflTransGen.head_induction_on with
  | refl => exact ⟨rfl, .refl _⟩
  | head hstep _ ih =>
    cases hstep with
    | arrive h =>
      have hsame := ih (h.inv hinv)
      cases h with
      | intro => exact hsame
    | schedule h =>
      have hsame := ih (h.inv hinv)
      cases h with
      | intro instants metadata outputs scheduler hpending hschedule =>
        have hreschedules := hinv.reschedules hschedule
        exact ⟨hsame.1.trans hreschedules.schedulerConfig_eq, hreschedules.sameConfig.trans hsame.2⟩
    | update h =>
      have hsame := ih (h.inv hinv)
      cases h with
      | intro => exact hsame

theorem Steps.inv (h : Steps accepts session session') (hinv : session.Inv) : session'.Inv := by
  induction h with
  | refl => exact hinv
  | tail _ hstep ih =>
    cases hstep with
    | arrive h => exact h.inv ih
    | schedule h => exact h.inv ih
    | update h => exact h.inv ih

end Session

end AtomaInfer
