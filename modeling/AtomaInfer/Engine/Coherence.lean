import AtomaInfer.Engine.Order
import AtomaInfer.Engine.Thread
import AtomaInfer.Scheduler.Cached

/-!
Runs of the engine with the cache of the worker. Whenever a batch is put together the computed tokens
of every sequence are in the blocks of its table, and when the attention reads the cache so are those
that the batch computes.
-/

namespace AtomaInfer

open Scheduler

/--
The thread whose state is the cache.
-/
def ModelWorker.thread (worker : ModelWorker) : ModelThread KvCache where
  register _ cache := cache
  Answers request cache _ cache' := worker.ExecutesCache request cache cache'

abbrev CacheTrace :=
  ThreadTrace KvCache

theorem KvCache.Holds.of_prefix {cache : KvCache} {blockSize sequenceId n : Nat}
    {blockTable : BlockTable} {tokenIds tokenIds' : List Nat}
    (h : cache.Holds blockSize sequenceId blockTable tokenIds n) (hbegins : tokenIds <+: tokenIds')
    : cache.Holds blockSize sequenceId blockTable tokenIds' n := by
  intro p hp
  rcases h p hp with ⟨block, tokenId, hblock, htoken, hcell⟩
  refine ⟨block, tokenId, hblock, ?_, hcell⟩
  rcases hbegins with ⟨later, rfl⟩
  rw [List.getElem?_append_left (List.getElem?_eq_some_iff.mp htoken).1, htoken]

theorem Sequence.Advances.isPrefix_getTokenIds {sequence sequence' : Sequence}
    {tokenChunkSize maxModelLen : Nat} {doSample : Bool}
    (h : sequence.Advances tokenChunkSize doSample maxModelLen sequence')
    : sequence.sequenceData.getTokenIds <+: sequence'.sequenceData.getTokenIds := by
  unfold SequenceData.getTokenIds
  rw [h.promptTokenIds_eq, List.prefix_append_right_inj]
  cases hsample : doSample with
  | true =>
    rcases h.append hsample with ⟨tokenId, houtput, -⟩
    rw [houtput]
    exact List.prefix_append _ _
  | false => rw [(h.keep hsample).1]

namespace Trace

variable {accepts : Session.Accepts} {trace called received : Trace} {instants : Instants}
variable {event : LlmEngine.Event} {session : Session} {worker : ModelWorker}
variable {cache cache' : KvCache}

def refs (trace : Trace) : List SequenceRef :=
  trace.arrived.flatMap (·.sequences)

/--
What a request leaves as it is.
-/
theorem Receives.exists_seq (h : trace.Receives accepts instants event received)
    : ∃ seq,
        received.refs = trace.refs ++ [seq]
          ∧ (∀ other ∈ trace.refs, other.sequenceId ≠ seq.sequenceId)
          ∧ received.engine.currentRequest = trace.engine.currentRequest
          ∧ received.engine.scheduler.memory.blockManager
              = trace.engine.scheduler.memory.blockManager
          ∧ (∀ other, other ≠ seq →
              received.engine.scheduler.memory.sequences other
                = trace.engine.scheduler.memory.sequences other)
          ∧ ∃ promptTokenIds,
              (received.engine.scheduler.memory.sequences seq).sequenceData
                = SequenceData.new promptTokenIds [] := by
  cases h with
  | intro request seq sequence prompt promptTokenIds returnFullText hgroup hfresh hnew haccepts =>
    have hheap : ((trace.engine.createSequences request.sequenceGroup [sequence]).addRequest
        request).scheduler.memory.sequences
          = Function.update trace.engine.scheduler.memory.sequences seq sequence := by
      cases request <;>
        simp [LlmEngine.addRequest, LlmEngine.createSequences, addSequenceGroup,
          EngineRequest.sequenceGroup] at hgroup ⊢ <;>
        simp [hgroup]
    refine ⟨seq, ?_, ?_, ?_, ?_, ?_, promptTokenIds, ?_⟩
    . simp [refs, hgroup]
    . intro other hother
      rcases List.mem_flatMap.mp hother with ⟨group, harrives, hmem⟩
      exact hfresh group harrives other hmem
    . cases request <;> rfl
    . cases request <;> rfl
    . intro other hne
      rw [hheap, Function.update_of_ne hne]
    . rw [hheap, Function.update_self]
      exact (Sequence.of_new hnew).2.1

theorem Receives.cached (h : trace.Receives accepts instants event received)
    (hsound : trace.engine.scheduler.memory.Sound trace.refs)
    (hcached : trace.engine.scheduler.memory.Cached trace.refs cache)
    : received.engine.scheduler.memory.Cached received.refs cache := by
  rcases h.exists_seq with ⟨seq, hrefs, hfresh, -, hmanager, hframe, -⟩
  intro other hother
  rw [hrefs, List.mem_append, List.mem_singleton] at hother
  rcases hother with hother | rfl
  . have hne : other ≠ seq := fun heq => hfresh other hother (by rw [heq])
    refine (hcached other hother).of_eq ?_ (by rw [hmanager]) (by rw [hframe other hne])
      fun _ _ _ _ => rfl
    unfold Memory.table
    rw [hmanager]
  . -- a new sequence has no table yet
    refine .of_zero (.inl ?_)
    unfold Memory.table
    rw [hmanager]
    cases hlookup : trace.engine.scheduler.memory.blockManager.blockTables.lookup other.sequenceId with
    | none => rfl
    | some blockTable =>
      rcases hsound.known _ _ hlookup with ⟨known, hknown, hid⟩
      exact absurd hid (hfresh known hknown)

theorem sound_of_simulates (hscheduler : session.scheduler = trace.engine.scheduler)
    (harrived : session.arrived = trace.arrived) (hinv : session.Inv)
    : trace.engine.scheduler.memory.Sound trace.refs := by
  have hsound : session.scheduler.memory.Sound session.refs := hinv.ok.sound
  unfold Session.refs at hsound
  rwa [hscheduler, harrived] at hsound

section Batch

variable (hsimulates : trace.Simulates session) (hinv : session.Inv)
variable (hpending : session.pending
  = some (trace.engine.sequenceGroupsMetadata, trace.engine.schedulerOutputs))
include hsimulates hinv hpending

theorem Simulates.describes
    : List.Forall₂
        (fun scheduled metadata => ∃ seq ∈ trace.refs, ∃ blockTable,
          Describes trace.engine.scheduler.memory
            trace.engine.scheduler.schedulerConfig.enableChunkedPrefill scheduled metadata seq
            blockTable)
        trace.engine.schedulerOutputs.scheduledSequenceGroups
        trace.engine.sequenceGroupsMetadata := by
  have hdescribes := hinv.describes _ _ hpending
  unfold Session.refs at hdescribes
  rw [hsimulates.scheduler_eq, hsimulates.arrived_eq] at hdescribes
  exact hdescribes

/--
The sequences of the batch.
-/
theorem Simulates.exists_of_mem_sequencesOf
    {x : SequenceGroupMetadata × Sigma fun _ : Nat => SequenceData}
    (hx : x ∈ sequencesOf trace.engine.sequenceGroupsMetadata)
    : ∃ scheduled seq blockTable,
        (scheduled, x.1) ∈ trace.engine.schedulerOutputs.scheduledSequenceGroups.zip
            trace.engine.sequenceGroupsMetadata
          ∧ seq ∈ trace.refs
          ∧ Describes trace.engine.scheduler.memory
              trace.engine.scheduler.schedulerConfig.enableChunkedPrefill scheduled x.1 seq blockTable
          ∧ x.2 = ⟨seq.sequenceId, (trace.engine.scheduler.memory.sequences seq).sequenceData⟩ := by
  have hdescribes := hsimulates.describes hinv hpending
  rcases mem_of_mem_sequencesOf hx with ⟨hmetadata, hentry⟩
  rcases List.mem_iff_getElem?.mp hmetadata with ⟨i, hi⟩
  have hlt := (List.getElem?_eq_some_iff.mp hi).1
  have hlt' := hlt
  rw [← hdescribes.length_eq] at hlt'
  rcases (List.forall₂_iff_get.mp hdescribes).2 i hlt' hlt with ⟨seq, hseq, blockTable, hdesc⟩
  rw [List.getElem?_eq_getElem hlt, Option.some.injEq] at hi
  rw [List.get_eq_getElem, List.get_eq_getElem, hi] at hdesc
  refine ⟨_, seq, blockTable, ?_, hseq, hdesc, ?_⟩
  . apply List.mem_of_getElem? (i := i)
    rw [List.getElem?_zip_eq_some]
    exact ⟨List.getElem?_eq_getElem hlt', by rw [List.getElem?_eq_getElem hlt, hi]⟩
  . rw [hdesc.sequenceData_eq] at hentry
    exact List.mem_singleton.mp hentry

theorem Simulates.eq_of_sequenceId_eq
    (hsound : trace.engine.scheduler.memory.Sound trace.refs)
    {x x' : SequenceGroupMetadata × Sigma fun _ : Nat => SequenceData}
    (hx : x ∈ sequencesOf trace.engine.sequenceGroupsMetadata)
    (hx' : x' ∈ sequencesOf trace.engine.sequenceGroupsMetadata) (hid : x.2.1 = x'.2.1) : x = x' := by
  have hnodup := nodup_keys_of_describes hsound (hsimulates.describes hinv hpending)
    hsimulates.nodup
  have hkey : ∀ y ∈ sequencesOf trace.engine.sequenceGroupsMetadata,
      y.2.1 ∈ y.1.sequenceData.keys := by
    intro y hy
    exact List.mem_map_of_mem (mem_of_mem_sequencesOf hy).2
  have hmetadata : x.1 = x'.1 := List.eq_of_nodup_flatMap hnodup (mem_of_mem_sequencesOf hx).1
    (mem_of_mem_sequencesOf hx').1 (hkey x hx) (hid ▸ hkey x' hx')
  rcases hsimulates.exists_of_mem_sequencesOf hinv hpending hx
    with ⟨_, seq, _, -, hseq, -, hentry⟩
  rcases hsimulates.exists_of_mem_sequencesOf hinv hpending hx'
    with ⟨_, seq', _, -, hseq', -, hentry'⟩
  rw [hentry, hentry'] at hid
  have hsame : seq = seq' := hsound.eq_of_sequenceId_eq hseq' hseq hid
  subst hsame
  exact Prod.ext hmetadata (hentry.trans hentry'.symm)

theorem Simulates.exists_fits (hsound : trace.engine.scheduler.memory.Sound trace.refs)
    (hsize : worker.blockSize = trace.engine.scheduler.memory.blockManager.blockSize)
    {metadata : SequenceGroupMetadata}
    (hmetadata : metadata ∈ trace.engine.sequenceGroupsMetadata)
    : ∃ sequenceId data blockTable, worker.Fits metadata sequenceId data blockTable := by
  rcases (hsimulates.describes hinv hpending).flip.exists_of_mem hmetadata
    with ⟨scheduled, -, seq, hseq, blockTable, hdesc⟩
  exact ⟨_, _, _, hdesc.fits worker hsound hseq hsize⟩

theorem Simulates.placesBatch (hsound : trace.engine.scheduler.memory.Sound trace.refs)
    (hnone : trace.engine.scheduler.memory.Unwindowed)
    (hsize : worker.blockSize = trace.engine.scheduler.memory.blockManager.blockSize)
    (hne : trace.engine.sequenceGroupsMetadata ≠ [])
    : worker.PlacesBatch
        (fun sequenceId => trace.engine.scheduler.memory.blockManager.blockTables.lookup sequenceId)
        (sequencesOf trace.engine.sequenceGroupsMetadata) := by
  refine ⟨?_, ?_, (hsound.accounted hnone).nodup, hsound.unshared hnone, ?_⟩
  . rcases List.exists_mem_of_ne_nil _ hne with ⟨metadata, hmetadata⟩
    rcases hsimulates.exists_fits hinv hpending hsound hsize hmetadata with ⟨_, _, _, hfits⟩
    exact hfits.blockSize_pos
  . intro x hx
    rcases hsimulates.exists_of_mem_sequencesOf hinv hpending hx
      with ⟨scheduled, seq, blockTable, -, hseq, hdesc, hentry⟩
    rw [hentry]
    refine ⟨blockTable, hdesc.table_eq, ?_, ?_⟩
    . rw [hentry]
      exact hdesc.fits worker hsound hseq hsize
    . exact (hsound.onDevice_of_running hseq hdesc.status_eq).device_eq hnone _ hdesc.table_eq
  . intro x hx x' hx' hid
    exact hsimulates.eq_of_sequenceId_eq hinv hpending hsound hx hx' hid

/--
When the forward pass has written to the cache, the tokens of the batch are in it as well as those
that were computed before.
-/
theorem Simulates.holds_of_executesCache
    (hsound : trace.engine.scheduler.memory.Sound trace.refs)
    (hnone : trace.engine.scheduler.memory.Unwindowed)
    (hsize : worker.blockSize = trace.engine.scheduler.memory.blockManager.blockSize)
    (hwindow : worker.slidingWindow = none)
    (hcoherent : ∀ swapped, cache.Swaps trace.engine.currentRequest swapped →
      trace.engine.scheduler.memory.Cached trace.refs swapped)
    (hexecutes : worker.ExecutesCache trace.engine.currentRequest cache cache')
    : (∀ x ∈ sequencesOf trace.engine.sequenceGroupsMetadata, ∀ blockTable,
        trace.engine.scheduler.memory.blockManager.blockTables.lookup x.2.1 = some blockTable →
          cache'.Holds worker.blockSize x.2.1 blockTable x.2.2.getTokenIds
            (x.2.2.numComputedTokens + x.1.tokenChunkSize))
      ∧ ∀ seq ∈ trace.refs,
          (∀ x ∈ sequencesOf trace.engine.sequenceGroupsMetadata, x.2.1 ≠ seq.sequenceId) →
            trace.engine.scheduler.memory.CachedAt cache' seq := by
  cases hexecutes with
  | empty hswaps hempty =>
    refine ⟨?_, fun seq hseq _ => hcoherent _ hswaps seq hseq⟩
    have hempty : trace.engine.sequenceGroupsMetadata = [] := hempty
    rw [hempty]
    exact fun x hx => (nomatch hx)
  | @forward swapped input order hswaps hinput hslots horder =>
    have hcached := hcoherent _ hswaps
    have hinput : worker.prepareInputTensors trace.engine.sequenceGroupsMetadata = .ok input := hinput
    have hne : trace.engine.sequenceGroupsMetadata ≠ [] := by
      intro hnil
      rw [hnil] at hinput
      cases hinput
    have hplaces := hsimulates.placesBatch hinv hpending hsound hnone hsize hne
    have horder : order.Perm ((sequencesOf trace.engine.sequenceGroupsMetadata).flatMap
        worker.sequenceWrites) := by
      rw [← ModelWorker.writes_eq hwindow hplaces.allFit hinput]
      exact horder
    refine ⟨?_, ?_⟩
    . intro x hx blockTable htable
      refine hplaces.holds_of_mem horder hx htable ?_
      rcases hsimulates.exists_of_mem_sequencesOf hinv hpending hx
        with ⟨scheduled, seq, _, -, hseq, -, hentry⟩
      rw [hentry] at htable ⊢
      rw [hsize]
      exact hcached seq hseq blockTable htable
    . intro seq hseq hnotMem blockTable htable
      rw [← hsize]
      refine hplaces.holds_of_notMem horder hnotMem htable ?_
      rw [hsize]
      exact hcached seq hseq blockTable htable

end Batch

/--
The batch has advanced the sequences to where the cache is.
-/
theorem Processed.cached {heap : SequenceHeap} (h : trace.Processed called heap)
    (hsimulates : trace.Simulates session) (hinv : session.Inv)
    (hpending : session.pending
      = some (trace.engine.sequenceGroupsMetadata, trace.engine.schedulerOutputs))
    (hsize : worker.blockSize = trace.engine.scheduler.memory.blockManager.blockSize)
    (hbatch : ∀ x ∈ sequencesOf trace.engine.sequenceGroupsMetadata, ∀ blockTable,
      trace.engine.scheduler.memory.blockManager.blockTables.lookup x.2.1 = some blockTable →
        cache'.Holds worker.blockSize x.2.1 blockTable x.2.2.getTokenIds
          (x.2.2.numComputedTokens + x.1.tokenChunkSize))
    (hothers : ∀ seq ∈ trace.refs,
      (∀ x ∈ sequencesOf trace.engine.sequenceGroupsMetadata, x.2.1 ≠ seq.sequenceId) →
        trace.engine.scheduler.memory.CachedAt cache' seq)
    : called.engine.scheduler.memory.Cached called.refs cache' := by
  have hsound := sound_of_simulates hsimulates.scheduler_eq hsimulates.arrived_eq hinv
  have hrefs : called.refs = trace.refs := by
    unfold refs
    rw [h.arrived_eq]
  rw [hrefs, h.scheduler_eq]
  intro seq hseq
  by_cases hmem : ∃ x ∈ sequencesOf trace.engine.sequenceGroupsMetadata, x.2.1 = seq.sequenceId
  . rcases hmem with ⟨x, hx, hid⟩
    rcases hsimulates.exists_of_mem_sequencesOf hinv hpending hx
      with ⟨scheduled, seq', _, hzip, hseq', hdesc, hentry⟩
    have hsame : seq = seq' := by
      refine hsound.eq_of_sequenceId_eq hseq' hseq ?_
      rw [← hid, hentry]
    subst hsame
    rcases h.advances _ hzip seq (by rw [hdesc.sequences_eq]; exact List.mem_singleton_self _)
      with ⟨output, hadvances⟩
    intro blockTable htable
    have hholds := hbatch x hx blockTable (by rw [hid]; exact htable)
    rw [hentry, hdesc.tokenChunkSize_eq, hsize] at hholds
    change cache'.Holds trace.engine.scheduler.memory.blockManager.blockSize seq.sequenceId blockTable
      (heap seq).sequenceData.getTokenIds (heap seq).sequenceData.numComputedTokens
    rw [hadvances.numComputedTokens_eq]
    exact hholds.of_prefix hadvances.isPrefix_getTokenIds
  . have hnotMem : ∀ x ∈ sequencesOf trace.engine.sequenceGroupsMetadata,
        x.2.1 ≠ seq.sequenceId :=
      fun x hx hid => hmem ⟨x, hx, hid⟩
    have hheap : heap seq = trace.engine.scheduler.memory.sequences seq := by
      apply h.frame
      intro entry hentry hin
      rcases (List.forall₂_iff_zip.mp (hsimulates.describes hinv hpending)).2 hentry
        with ⟨seq', -, blockTable, hdesc⟩
      rw [hdesc.sequences_eq, List.mem_singleton] at hin
      subst hin
      refine hnotMem
        (entry.2, ⟨seq.sequenceId, (trace.engine.scheduler.memory.sequences seq).sequenceData⟩) ?_ rfl
      refine List.mem_flatMap.mpr ⟨entry.2, (List.of_mem_zip hentry).2, ?_⟩
      rw [hdesc.sequenceData_eq]
      exact List.mem_singleton_self _
    refine (hothers seq hseq hnotMem).of_eq rfl rfl ?_ fun _ _ _ _ => rfl
    change (heap seq).sequenceData = _
    rw [hheap]

end Trace

namespace CacheTrace

variable {accepts : Session.Accepts} {worker : ModelWorker} {run called : CacheTrace}
variable {config : SchedulerConfig} {blockSize numCpuBlocks numGpuBlocks : Nat}
variable {heap : SequenceHeap} {now : Nat} {tokenizer : List Nat → Except String String}
variable {initial : KvCache} {instants : Instants} {event : LlmEngine.Event}

/--
Whatever the order of the copies that the batch in flight asks for, after them the computed tokens of
every sequence are in the blocks of its table.
-/
def Coherent (run : CacheTrace) : Prop :=
  ∀ swapped, run.state.Swaps run.trace.engine.currentRequest swapped →
    run.trace.engine.scheduler.memory.Cached run.trace.refs swapped

/--
The computed tokens of every sequence are in the blocks of its table.
-/
def Settled (run : CacheTrace) : Prop :=
  run.trace.engine.scheduler.memory.Cached run.trace.refs run.state

theorem copiesNothing_of_isEmpty (h : run.trace.engine.schedulerOutputs.isEmpty = true)
    : run.trace.engine.currentRequest.CopiesNothing := by
  simp only [SchedulerOutputs.isEmpty, Bool.and_eq_true, List.isEmpty_iff] at h
  rcases h with ⟨⟨⟨-, hin⟩, hout⟩, hcopy⟩
  exact ⟨AList.ext hin, AList.ext hout, AList.ext hcopy⟩

/--
Of the worker only the block size of the cache matters, which is the one of the scheduler.
-/
structure Fits (worker : ModelWorker) (trace : Trace) : Prop where
  blockSize_eq : worker.blockSize = trace.engine.scheduler.memory.blockManager.blockSize
  unwindowed : trace.engine.scheduler.memory.Unwindowed

theorem fits_of_visits (hsize : worker.blockSize = blockSize) {trace : Trace}
    (h : Trace.Visits accepts
      (LlmEngine.new
        (Scheduler.new config blockSize numCpuBlocks numGpuBlocks none heap now) tokenizer)
      trace)
    : Fits worker trace := by
  have hstart := Session.inv_start config blockSize numCpuBlocks numGpuBlocks none heap now
  rcases h.exists_session hstart with ⟨session, hsteps, hscheduler, -⟩
  have hsame := (hsteps.sameConfig hstart).2
  rw [hscheduler] at hsame
  refine ⟨?_, hsame.blockSlidingWindow_eq⟩
  rw [hsize, hsame.blockSize_eq]
  rfl

theorem preserves (hsize : worker.blockSize = blockSize) (hwindow : worker.slidingWindow = none)
    : ThreadTrace.Preserves accepts worker.thread
        (LlmEngine.new
          (Scheduler.new config blockSize numCpuBlocks numGpuBlocks none heap now) tokenizer)
        Coherent Settled := by
  constructor
  . intro run session instants sequences request received _ hsimulates hinv hreceives hcoherent
      swapped hswaps
    rcases hreceives.exists_seq with ⟨-, -, -, hrequest, -⟩
    rw [hrequest] at hswaps
    have hsound := Trace.sound_of_simulates hsimulates.scheduler_eq hsimulates.arrived_eq hinv
    exact hreceives.cached hsound (hcoherent swapped hswaps)
  . intro run hidle hcoherent
    unfold LlmEngine.isIdle at hidle
    rw [Bool.and_eq_true] at hidle
    exact hcoherent run.state (KvCache.swaps_self (copiesNothing_of_isEmpty hidle.2) _)
  . intro run session instants created index receiver outputs cache' called hreach hsimulates hinv
      hreceiver hexecutes hprocesses hcoherent
    have hfits := fits_of_visits hsize (.between hreach)
    have hpending := hsimulates.pending_of_getElem? hreceiver
    rcases hsimulates.paired.of_getElem? hreceiver with ⟨-, rfl, -⟩
    have hsound := Trace.sound_of_simulates hsimulates.scheduler_eq hsimulates.arrived_eq hinv
    rcases hsimulates.holds_of_executesCache hinv hpending hsound hfits.unwindowed
      hfits.blockSize_eq hwindow hcoherent hexecutes with ⟨hbatch, hothers⟩
    rcases hprocesses.processed hsimulates hinv with ⟨heap', hprocessed⟩
    exact hprocessed.cached hsimulates hinv hpending hfits.blockSize_eq hbatch hothers
  . intro run session instants stepped next sampled responseSenders sent hvisits hbetween hinv hstep
      hnext hsettled swapped hswaps
    have hfits := fits_of_visits hsize hvisits
    rcases LlmEngine.step_eq_ok hstep
      with ⟨metadata, outputs, scheduler, hschedule, -, houtputs, -, hstepped⟩
    have hok : run.trace.engine.scheduler.config.OK false run.trace.refs := by
      have hok := hinv.ok
      unfold Session.refs at hok
      rwa [hbetween.scheduler_eq, hbetween.arrived_eq] at hok
    subst hnext
    rw [hstepped] at hswaps ⊢
    exact cached_of_schedule hok hfits.unwindowed hschedule hsettled rfl rfl rfl hswaps
  . intro run channel hcoherent
    exact hcoherent

def Reachable (accepts : Session.Accepts) (worker : ModelWorker) (engine : LlmEngine)
    (initial : KvCache) (run : CacheTrace) : Prop :=
  ThreadTrace.Reachable accepts worker.thread engine initial run

section Driven

/--
The blocks of the cache have one slot each.
-/
def smallWorker : ModelWorker where
  blockSize := 1
  slidingWindow := none
  enableChunkedPrefill := true

def answer (request : ExecuteModelRequest) (cache : KvCache)
    : Option (List SequenceGroupOutput × KvCache) :=
  (smallWorker.executeCache request cache).toOption.map fun cache' =>
    (ModelExecutor.sample (fun _ => ⟨9, 0, false⟩) request.sequenceGroupsMetadata, cache')

theorem isAnswer_answer : ThreadTrace.IsAnswer smallWorker.thread answer := by
  intro request cache outputs cache' hanswer
  rcases Option.map_eq_some_iff.mp hanswer with ⟨executed, hexecuted, heq⟩
  cases heq
  exact ⟨ModelWorker.executesCache_of_executeCache (Except.toOption_eq_some hexecuted), _, rfl⟩

/--
A prompt of three tokens, two of which fit into one batch.
-/
def smallRun (rounds : Nat) : Option CacheTrace :=
  ThreadTrace.driven smallWorker.thread (ThreadTrace.fresh ⟨2, 1, 8, 0, true⟩ 4) (fun _ _ => none)
    answer (singleGroup "a" 0 0) (waitingSequence [5, 6, 7]) rounds

theorem reachable_of_smallRun {rounds : Nat} {run : CacheTrace} (h : smallRun rounds = some run)
    : Reachable (fun _ _ _ => True) smallWorker (ThreadTrace.fresh ⟨2, 1, 8, 0, true⟩ 4)
        (fun _ _ => none) run := by
  have hnew : Sequence.new "" [5, 6, 7] 1 false = .ok (waitingSequence [5, 6, 7]) := by
    decide +kernel
  exact (ThreadTrace.reachable_of_driven isAnswer_answer rfl hnew h).1

end Driven

theorem coherent_start {engine : LlmEngine} : Coherent (ThreadTrace.start engine initial) := by
  intro swapped _ seq hseq
  cases hseq

section Reachable

variable (hsize : worker.blockSize = blockSize) (hwindow : worker.slidingWindow = none)
variable (h : Reachable accepts worker
  (LlmEngine.new (Scheduler.new config blockSize numCpuBlocks numGpuBlocks none heap now) tokenizer)
  initial run)
include hsize hwindow h

theorem Reachable.coherent : run.Coherent := by
  have hstart := Session.inv_start config blockSize numCpuBlocks numGpuBlocks none heap now
  exact (preserves hsize hwindow).between_of_reachable hstart coherent_start h

theorem Reachable.settled {called : CacheTrace}
    (hcalls : run.Calls accepts worker.thread instants event called) : Settled called := by
  have hstart := Session.inv_start config blockSize numCpuBlocks numGpuBlocks none heap now
  exact (preserves hsize hwindow).called_of_reachable hstart coherent_start h hcalls

end Reachable

/--
Without a sliding window no run loses or overwrites a computed token: between two batches each is in
the block that the table of its sequence names, and while a batch is in flight it is where the copies
of the batch take it.
-/
theorem coherent_of_reachable (hsize : worker.blockSize = blockSize)
    (hwindow : worker.slidingWindow = none)
    (h : Reachable accepts worker
      (LlmEngine.new
        (Scheduler.new config blockSize numCpuBlocks numGpuBlocks none heap now) tokenizer)
      initial run)
    : run.Coherent
        ∧ ∀ instants event called, run.Calls accepts worker.thread instants event called →
            Settled called := by
  exact ⟨h.coherent hsize hwindow, fun _ _ _ hcalls => h.settled hsize hwindow hcalls⟩

/--
Both batches of the prompt have been computed.
-/
theorem coherent_of_reachable_smallRun
    : ∃ run : CacheTrace,
        (run.trace.engine.scheduler.memory.sequences ⟨0, 0⟩).sequenceData.numComputedTokens = 3
          ∧ run.Coherent := by
  have hrun : (smallRun 2).any (fun run =>
      (run.trace.engine.scheduler.memory.sequences ⟨0, 0⟩).sequenceData.numComputedTokens = 3)
        = true := by
    decide +kernel
  rcases (Option.any_eq_true _ _).mp hrun with ⟨run, hsome, hcomputed⟩
  exact ⟨run, of_decide_eq_true hcomputed,
    (coherent_of_reachable rfl rfl (reachable_of_smallRun hsome)).1⟩

/--
The tokens that the attention reads for the sequences of a batch: all that the batch has computed of
them, in the blocks of the tables that the batch comes with.
-/
def ReadsTokens (worker : ModelWorker) (batch : List SequenceGroupMetadata) (cache : KvCache) : Prop :=
  ∀ metadata ∈ batch, ∀ sequenceId data,
    metadata.sequenceData.lookup sequenceId = some data →
      ∀ p < data.numComputedTokens + metadata.tokenChunkSize, ∃ blockTable blockNumber tokenId,
        metadata.blockTables.lookup sequenceId = some blockTable
          ∧ blockTable[p / worker.blockSize]? = some blockNumber
          ∧ data.getTokenIds[p]? = some tokenId
          ∧ cache ⟨.gpu, blockNumber⟩ (p % worker.blockSize) = some ⟨sequenceId, p, tokenId⟩

section Batch

variable (hsize : worker.blockSize = blockSize) (hwindow : worker.slidingWindow = none)
variable (h : Reachable accepts worker
  (LlmEngine.new (Scheduler.new config blockSize numCpuBlocks numGpuBlocks none heap now) tokenizer)
  initial run)
variable {index : Nat} {receiver : Receiver}
variable (hreceiver : run.trace.engine.responses[index]? = some receiver)
include hsize hwindow h hreceiver

theorem Reachable.exists_executeCache
    : ∃ cache, worker.executeCache receiver.request run.state = .ok cache := by
  have hstart := Session.inv_start config blockSize numCpuBlocks numGpuBlocks none heap now
  have hfits := fits_of_visits hsize (.between h.trace_reachable)
  rcases Trace.simulates_of_reachable hstart h.trace_reachable with ⟨session, hsteps, hsimulates⟩
  have hinv := hsteps.inv hstart
  have hpending := hsimulates.pending_of_getElem? hreceiver
  rcases hsimulates.paired.of_getElem? hreceiver with ⟨-, rfl, -⟩
  have hsound := Trace.sound_of_simulates hsimulates.scheduler_eq hsimulates.arrived_eq hinv
  exact ModelWorker.exists_executeCache hwindow
    (fun _ hmetadata => hsimulates.exists_fits hinv hpending hsound hfits.blockSize_eq hmetadata) _

theorem Reachable.readsTokens {cache : KvCache}
    (hexecutes : worker.ExecutesCache receiver.request run.state cache)
    : ReadsTokens worker receiver.request.sequenceGroupsMetadata cache := by
  have hstart := Session.inv_start config blockSize numCpuBlocks numGpuBlocks none heap now
  have hcoherent := h.coherent hsize hwindow
  have hfits := fits_of_visits hsize (.between h.trace_reachable)
  rcases Trace.simulates_of_reachable hstart h.trace_reachable with ⟨session, hsteps, hsimulates⟩
  have hinv := hsteps.inv hstart
  have hpending := hsimulates.pending_of_getElem? hreceiver
  rcases hsimulates.paired.of_getElem? hreceiver with ⟨-, rfl, -⟩
  have hsound := Trace.sound_of_simulates hsimulates.scheduler_eq hsimulates.arrived_eq hinv
  intro metadata hmetadata sequenceId data hdata p hp
  have hx : (metadata, (⟨sequenceId, data⟩ : Sigma fun _ : Nat => SequenceData))
      ∈ sequencesOf run.trace.engine.sequenceGroupsMetadata :=
    List.mem_flatMap.mpr ⟨metadata, hmetadata, List.mem_map_of_mem (AList.mem_lookup_iff.mp hdata)⟩
  rcases hsimulates.exists_of_mem_sequencesOf hinv hpending hx
    with ⟨scheduled, seq, blockTable, -, hseq, hdesc, hentry⟩
  cases hentry
  have hholds := (hsimulates.holds_of_executesCache hinv hpending hsound hfits.unwindowed
    hfits.blockSize_eq hwindow hcoherent hexecutes).1 _ hx blockTable hdesc.table_eq
  rcases hholds p hp with ⟨block, tokenId, hblock, htoken, hcell⟩
  have hdevice := (hsound.onDevice_of_running hseq hdesc.status_eq).device_eq hfits.unwindowed _
    hdesc.table_eq block (List.mem_of_getElem? hblock)
  refine ⟨blockTable.map (·.blockNumber), block.blockNumber, tokenId, ?_, ?_, htoken, ?_⟩
  . rw [hdesc.blockTables_eq]
    exact AList.lookup_insert _
  . rw [List.getElem?_map, hblock]
    rfl
  . rw [← hdevice]
    exact hcell

end Batch

/--
Every batch of a run can be executed, and whatever the order of its copies and writes is, the
attention finds the tokens of each sequence in its own blocks.
-/
theorem readsTokens_of_reachable (hsize : worker.blockSize = blockSize)
    (hwindow : worker.slidingWindow = none)
    (h : Reachable accepts worker
      (LlmEngine.new
        (Scheduler.new config blockSize numCpuBlocks numGpuBlocks none heap now) tokenizer)
      initial run)
    {index : Nat} {receiver : Receiver}
    (hreceiver : run.trace.engine.responses[index]? = some receiver)
    : (∃ cache, worker.executeCache receiver.request run.state = .ok cache)
        ∧ ∀ cache, worker.ExecutesCache receiver.request run.state cache →
            ReadsTokens worker receiver.request.sequenceGroupsMetadata cache := by
  exact ⟨h.exists_executeCache hsize hwindow hreceiver,
    fun _ hexecutes => h.readsTokens hsize hwindow hreceiver hexecutes⟩

/--
The second batch of the run: the last token of the prompt.
-/
theorem readsTokens_of_reachable_smallRun
    : ∃ (run : CacheTrace) (receiver : Receiver) (metadata : SequenceGroupMetadata),
        receiver ∈ run.trace.engine.responses
          ∧ receiver.request.sequenceGroupsMetadata = [metadata]
          ∧ metadata.tokenChunkSize = 1
          ∧ ∃ cache, smallWorker.executeCache receiver.request run.state = .ok cache
              ∧ ReadsTokens smallWorker [metadata] cache := by
  have hrun : (smallRun 1).any (fun run =>
      run.trace.engine.responses.any fun receiver =>
        receiver.request.sequenceGroupsMetadata.map (·.tokenChunkSize) = [1]) = true := by
    decide +kernel
  rcases (Option.any_eq_true _ _).mp hrun with ⟨run, hsome, hbatch⟩
  have hreach := reachable_of_smallRun hsome
  rcases List.any_eq_true.mp hbatch with ⟨receiver, hreceiver, hsize⟩
  rcases List.map_eq_singleton_iff.mp (of_decide_eq_true hsize) with ⟨metadata, hmetadata, hchunk⟩
  rcases List.mem_iff_getElem?.mp hreceiver with ⟨index, hindex⟩
  rcases readsTokens_of_reachable rfl rfl hreach hindex with ⟨⟨cache, hcache⟩, hreads⟩
  have hreads := hreads cache (ModelWorker.executesCache_of_executeCache hcache)
  rw [hmetadata] at hreads
  exact ⟨run, receiver, metadata, hreceiver, hmetadata, hchunk, cache, hcache, hreads⟩

/--
Every computed token of a sequence that has a block table is in the slot that the table names for it.
-/
def HoldsTokens (worker : ModelWorker) (run : CacheTrace) : Prop :=
  ∀ group ∈ run.trace.arrived, ∀ seq ∈ group.sequences, ∀ blockTable,
    run.trace.engine.scheduler.memory.blockManager.blockTables.lookup seq.sequenceId
        = some blockTable →
      ∀ p < (run.trace.engine.scheduler.memory.sequences seq).sequenceData.numComputedTokens,
        ∃ block tokenId,
          blockTable[p / worker.blockSize]? = some block
            ∧ (run.trace.engine.scheduler.memory.sequences seq).sequenceData.getTokenIds[p]?
                = some tokenId
            ∧ run.state block (p % worker.blockSize) = some ⟨seq.sequenceId, p, tokenId⟩

theorem Settled.holdsTokens (h : run.Settled) (hfits : Fits worker run.trace)
    : HoldsTokens worker run := by
  intro group hgroup seq hseq blockTable htable p hp
  rw [hfits.blockSize_eq]
  exact h seq (List.mem_flatMap.mpr ⟨group, hgroup, hseq⟩) blockTable htable p hp

/--
With nothing in flight there is nothing to copy.
-/
theorem Coherent.settled (h : run.Coherent) (hpaired : run.trace.engine.Paired)
    (hnone : run.trace.engine.responses = []) : run.Settled := by
  refine h run.state (KvCache.swaps_self (copiesNothing_of_isEmpty ?_) _)
  by_contra hbusy
  unfold LlmEngine.Paired at hpaired
  rw [hnone, if_neg hbusy] at hpaired
  cases hpaired

/--
Between the steps of a run, when nothing is in flight or the outputs of a batch have just been
processed, the computed tokens are in the blocks of the tables. Of a batch in flight the worker finds
the slot of every token.
-/
theorem holdsTokens_of_reachable (hsize : worker.blockSize = blockSize)
    (hwindow : worker.slidingWindow = none)
    (h : Reachable accepts worker
      (LlmEngine.new
        (Scheduler.new config blockSize numCpuBlocks numGpuBlocks none heap now) tokenizer)
      initial run)
    : (run.trace.engine.responses = [] → HoldsTokens worker run)
        ∧ (∀ instants event called, run.Calls accepts worker.thread instants event called →
            HoldsTokens worker called)
        ∧ ∀ receiver ∈ run.trace.engine.responses,
            ∃ cache, worker.executeCache receiver.request run.state = .ok cache := by
  have hstart := Session.inv_start config blockSize numCpuBlocks numGpuBlocks none heap now
  refine ⟨?_, ?_, ?_⟩
  . intro hnone
    rcases Trace.simulates_of_reachable hstart h.trace_reachable with ⟨session, -, hsimulates⟩
    exact ((h.coherent hsize hwindow).settled hsimulates.paired hnone).holdsTokens
      (fits_of_visits hsize (.between h.trace_reachable))
  . intro instants event called hcalls
    exact (h.settled hsize hwindow hcalls).holdsTokens
      (fits_of_visits hsize (.calls h.trace_reachable hcalls.trace_calls))
  . intro receiver hreceiver
    rcases List.mem_iff_getElem?.mp hreceiver with ⟨index, hindex⟩
    exact h.exists_executeCache hsize hwindow hindex

/--
The second batch of the run has been processed, and with it the prompt.
-/
theorem holdsTokens_of_reachable_smallRun
    : ∃ called : CacheTrace,
        (called.trace.engine.scheduler.memory.sequences ⟨0, 0⟩).sequenceData.numComputedTokens = 3
          ∧ (called.trace.engine.scheduler.memory.sequences ⟨0, 0⟩).isFinished = false
          ∧ called.trace.engine.scheduler.memory.blockManager.blockTables.lookup 0 ≠ none
          ∧ HoldsTokens smallWorker called := by
  have hcalled : ((smallRun 1).bind fun run => (ThreadTrace.process answer run)).any
      (fun processed =>
        (processed.2.trace.engine.scheduler.memory.sequences ⟨0, 0⟩).sequenceData.numComputedTokens
            = 3
          ∧ (processed.2.trace.engine.scheduler.memory.sequences ⟨0, 0⟩).isFinished = false
          ∧ processed.2.trace.engine.scheduler.memory.blockManager.blockTables.lookup 0 ≠ none)
        = true := by
    decide +kernel
  rcases (Option.any_eq_true _ _).mp hcalled with ⟨processed, hprocessed, hstate⟩
  rcases of_decide_eq_true hstate with ⟨hcomputed, hunfinished, htable⟩
  rcases Option.bind_eq_some_iff.mp hprocessed with ⟨run, hrun, hprocess⟩
  rcases ThreadTrace.calls_of_process isAnswer_answer hprocess with ⟨hcalls, -⟩
  exact ⟨processed.2, hcomputed, hunfinished, htable,
    (holdsTokens_of_reachable rfl rfl (reachable_of_smallRun hrun)).2.1 _ _ _ hcalls⟩

end CacheTrace

end AtomaInfer
