import AtomaInfer.Engine.Prompts
import AtomaInfer.Worker.Logits

/-!
Runs of the engine with a worker that computes the logits with its paged caches. Whatever the other
sequences, the batches and the blocks are, the logits of a sequence are those of the model for its
tokens alone, and so its output tokens are those that the model generates for its prompt.

The batches of these runs ask for no copies between blocks, and their prompts are not chunked.
-/

namespace AtomaInfer

open Scheduler
open ModelExecutor (sampleLogits)

namespace Trace

variable {accepts : Session.Accepts} {trace : Trace} {session : Session}
variable {config : SchedulerConfig} {blockSize numCpuBlocks numGpuBlocks : Nat}
variable {heap : SequenceHeap} {now : Nat} {tokenizer : List Nat → Except String String}

/--
The blocks of the tables are blocks of the GPU.
-/
theorem blockNumber_lt_of_visits
    (h : Visits accepts
      (LlmEngine.new
        (Scheduler.new config blockSize numCpuBlocks numGpuBlocks none heap now) tokenizer)
      trace)
    {sequenceId : Nat} {blockTable : BlockTable} {block : SyncPhysicalTokenBlock}
    (hlookup : trace.engine.scheduler.memory.blockManager.blockTables.lookup sequenceId
      = some blockTable)
    (hblock : block ∈ blockTable) (hdevice : block.device = .gpu)
    : block.blockNumber < numGpuBlocks := by
  have hstart := Session.inv_start config blockSize numCpuBlocks numGpuBlocks none heap now
  rcases h.exists_session hstart with ⟨session, hsteps, hscheduler, -⟩
  have hsame := (hsteps.sameConfig hstart).2
  have haccounted := (hsteps.inv hstart).ok.sound.accounted hsame.blockSlidingWindow_eq
  rw [hscheduler] at hsame haccounted
  have hcreated := haccounted.balanced.mem_univ block
    (BlockSpaceManager.mem_owned_of_mem hlookup hblock)
  have hlt : block.blockNumber < BlockAllocator.numCreated
      (trace.engine.scheduler.memory.blockManager.allocator block.device).numBlocks := hcreated
  rw [hdevice, hsame.numBlocks_eq .gpu] at hlt
  exact hlt.trans_le (Nat.mod_le _ _)

theorem length_le_of_nodup {blockTable : BlockTable} {n : Nat} (hnodup : blockTable.Nodup)
    (hdevice : ∀ block ∈ blockTable, block.device = .gpu)
    (hlt : ∀ block ∈ blockTable, block.blockNumber < n) : blockTable.length ≤ n := by
  have hnumbers : (blockTable.map (·.blockNumber)).Nodup := by
    apply hnodup.map_on
    intro block hblock block' hblock' hnumber
    exact SyncPhysicalTokenBlock.ext ((hdevice block hblock).trans (hdevice block' hblock').symm)
      hnumber
  have hsubset : (blockTable.map (·.blockNumber)).toFinset ⊆ Finset.range n := by
    intro number hnumber
    rw [List.mem_toFinset, List.mem_map] at hnumber
    rcases hnumber with ⟨block, hblock, rfl⟩
    exact Finset.mem_range.mpr (hlt block hblock)
  have hcard := Finset.card_le_card hsubset
  rwa [List.toFinset_card_of_nodup hnumbers, Finset.card_range, List.length_map] at hcard

end Trace

namespace CacheTrace

variable {accepts : Session.Accepts} {worker : ModelWorker} {run : CacheTrace}
variable {config : SchedulerConfig} {blockSize numCpuBlocks numGpuBlocks : Nat}
variable {heap : SequenceHeap} {now : Nat} {tokenizer : List Nat → Except String String}
variable {initial : KvCache} {index : Nat} {receiver : Receiver} {session : Session}

/--
What the layers get for the batch in flight.
-/
structure Feeds (worker : ModelWorker) (run : CacheTrace) (numGpuBlocks : Nat)
    (request : ExecuteModelRequest) (input : ModelInput) : Prop where
  input_eq : worker.prepareInputTensors request.sequenceGroupsMetadata = .ok input
  feeds : worker.Feeds (sequencesOf request.sequenceGroupsMetadata) run.state numGpuBlocks
    input.attentionMetadata
  lists : ModelWorker.Lists run.trace.tokenIds (sequencesOf request.sequenceGroupsMetadata)
  executes : worker.ExecutesCache request run.state
    (KvCache.reshapeAndCacheFlash worker.blockSize
      ((sequencesOf request.sequenceGroupsMetadata).flatMap worker.sequenceWrites) run.state)

theorem sequenceGroupsMetadata_ne_nil (hsimulates : run.trace.Simulates session)
    (hinv : session.Inv) (hreceiver : run.trace.engine.responses[index]? = some receiver)
    (hcopies : receiver.request.CopiesNothing)
    : run.trace.engine.sequenceGroupsMetadata ≠ [] := by
  have hpending := hsimulates.pending_of_getElem? hreceiver
  have hpaired := hsimulates.paired
  rcases hpaired.of_getElem? hreceiver with ⟨-, rfl, -⟩
  intro hnil
  have hscheduled : run.trace.engine.schedulerOutputs.scheduledSequenceGroups = [] := by
    have hdescribes := hsimulates.describes hinv hpending
    rw [hnil] at hdescribes
    exact List.forall₂_nil_right_iff.mp hdescribes
  have hempty : run.trace.engine.schedulerOutputs.isEmpty = true := by
    rcases hcopies with ⟨hin, hout, hcopy⟩
    have hin : run.trace.engine.schedulerOutputs.blocksToSwapIn = ∅ := hin
    have hout : run.trace.engine.schedulerOutputs.blocksToSwapOut = ∅ := hout
    have hcopy : run.trace.engine.schedulerOutputs.blocksToCopy = ∅ := hcopy
    unfold SchedulerOutputs.isEmpty
    rw [hscheduled, hin, hout, hcopy]
    rfl
  unfold LlmEngine.Paired at hpaired
  rw [if_pos hempty] at hpaired
  simp [hpaired] at hreceiver

/--
Nothing is computed of the prompts of the batch.
-/
theorem starts_of_isPrompt (hsimulates : run.trace.Simulates session) (hinv : session.Inv)
    (hpending : session.pending
      = some (run.trace.engine.sequenceGroupsMetadata, run.trace.engine.schedulerOutputs))
    (hwhole : run.trace.Whole) {x : SequenceGroupMetadata × Sigma fun _ : Nat => SequenceData}
    (hx : x ∈ sequencesOf run.trace.engine.sequenceGroupsMetadata) (hprompt : x.1.isPrompt = true)
    : x.2.2.numComputedTokens = 0 := by
  rcases hsimulates.exists_of_mem_sequencesOf hinv hpending hx
    with ⟨scheduled, seq, blockTable, -, hseq, hdesc, hentry⟩
  rw [hdesc.isPrompt_eq] at hprompt
  rw [hentry]
  exact hwhole.starts seq hseq (of_decide_eq_true hprompt)

section Reachable

variable (hsize : worker.blockSize = blockSize) (hwindow : worker.slidingWindow = none)
variable (h : Reachable accepts worker
  (LlmEngine.new (Scheduler.new config blockSize numCpuBlocks numGpuBlocks none heap now) tokenizer)
  initial run)
include hsize h

/--
The tokens of the sequences of the batch fit into the blocks of the GPU.
-/
theorem lists_of_reachable (hslots : numGpuBlocks * blockSize < 2 ^ 32)
    (hreceiver : run.trace.engine.responses[index]? = some receiver)
    : ModelWorker.Lists run.trace.tokenIds
        (sequencesOf receiver.request.sequenceGroupsMetadata) := by
  have hstart := Session.inv_start config blockSize numCpuBlocks numGpuBlocks none heap now
  have hvisits : Trace.Visits accepts _ run.trace := .between h.trace_reachable
  have hfits := fits_of_visits hsize hvisits
  rcases Trace.simulates_of_reachable hstart h.trace_reachable with ⟨session, hsteps, hsimulates⟩
  have hinv := hsteps.inv hstart
  have hpending := hsimulates.pending_of_getElem? hreceiver
  rcases hsimulates.paired.of_getElem? hreceiver with ⟨-, rfl, -⟩
  have hsound := Trace.sound_of_simulates hsimulates.scheduler_eq hsimulates.arrived_eq hinv
  constructor
  . intro x hx
    rcases hsimulates.exists_of_mem_sequencesOf hinv hpending hx
      with ⟨scheduled, seq, blockTable, -, hseq, hdesc, hentry⟩
    rw [hentry, Trace.tokenIds_eq hsound hseq]
  . intro x hx
    rcases hsimulates.exists_of_mem_sequencesOf hinv hpending hx
      with ⟨scheduled, seq, blockTable, -, hseq, hdesc, hentry⟩
    have hplaces := Session.places_of_describes hsound hseq hdesc
    have hdevice := (hsound.onDevice_of_running hseq hdesc.status_eq).device_eq hfits.unwindowed _
      hdesc.table_eq
    have hlength := Trace.length_le_of_nodup
      ((hsound.accounted hfits.unwindowed).nodup _ _ hdesc.table_eq) hdevice
      fun block hblock =>
        Trace.blockNumber_lt_of_visits hvisits hdesc.table_eq hblock (hdevice block hblock)
    rw [← hfits.blockSize_eq, hsize] at hplaces
    have hle := Nat.mul_le_mul_right blockSize hlength
    rw [hentry]
    change (run.trace.engine.scheduler.memory.sequences seq).length < _
    omega

include hwindow

theorem feeds_of_reachable (hslots : numGpuBlocks * blockSize < 2 ^ 32) (hwhole : run.trace.Whole)
    (hreceiver : run.trace.engine.responses[index]? = some receiver)
    (hcopies : receiver.request.CopiesNothing)
    : ∃ input, run.Feeds worker numGpuBlocks receiver.request input := by
  have hlists := lists_of_reachable hsize h hslots hreceiver
  have hstart := Session.inv_start config blockSize numCpuBlocks numGpuBlocks none heap now
  have hvisits : Trace.Visits accepts _ run.trace := .between h.trace_reachable
  have hfits := fits_of_visits hsize hvisits
  rcases Trace.simulates_of_reachable hstart h.trace_reachable with ⟨session, hsteps, hsimulates⟩
  have hinv := hsteps.inv hstart
  have hpending := hsimulates.pending_of_getElem? hreceiver
  have hne := sequenceGroupsMetadata_ne_nil hsimulates hinv hreceiver hcopies
  have hreads : ∀ cache, worker.ExecutesCache receiver.request run.state cache →
      ReadsTokens worker receiver.request.sequenceGroupsMetadata cache :=
    fun _ hexecutes => h.readsTokens hsize hwindow hreceiver hexecutes
  rcases hsimulates.paired.of_getElem? hreceiver with ⟨-, rfl, -⟩
  have hsound := Trace.sound_of_simulates hsimulates.scheduler_eq hsimulates.arrived_eq hinv
  have hmetadata : ∀ metadata ∈ run.trace.engine.sequenceGroupsMetadata,
      ∃ sequenceId data blockTable, worker.Fits metadata sequenceId data blockTable :=
    fun _ hmem => hsimulates.exists_fits hinv hpending hsound hfits.blockSize_eq hmem
  have hplaces := hsimulates.placesBatch hinv hpending hsound hfits.unwindowed hfits.blockSize_eq hne
  have hallFit := hplaces.allFit
  have hnonempty := ModelWorker.sequencesOf_ne_nil hmetadata hne
  have hbound : ∀ sequenceId blockTable,
      run.trace.engine.scheduler.memory.blockManager.blockTables.lookup sequenceId
          = some blockTable →
        ∀ block ∈ blockTable, block.device = .gpu → block.blockNumber < numGpuBlocks :=
    fun _ _ htable _ hblock hdevice => Trace.blockNumber_lt_of_visits hvisits htable hblock hdevice
  rcases ModelWorker.exists_prepareInputTensors hmetadata hne with ⟨input, hinput⟩
  have hwrites := ModelWorker.writes_eq hwindow hallFit hinput
  have hexecutes : worker.ExecutesCache run.trace.engine.currentRequest run.state
      (KvCache.reshapeAndCacheFlash worker.blockSize
        ((sequencesOf run.trace.engine.sequenceGroupsMetadata).flatMap worker.sequenceWrites)
        run.state) := by
    rw [← hwrites]
    exact .forward (KvCache.swaps_self hcopies _) hinput
      (ModelWorker.checkSlots_eq hwindow hallFit hinput) .rfl
  refine ⟨input, hinput, ⟨hnonempty, hallFit, ?_, ?_, hplaces.written_lt hbound, ?_⟩, hlists,
    hexecutes⟩
  . rcases hwhole.unmixed with hprompts | hdecodes
    . left
      refine ModelWorker.isPrefill_of_prepareInputTensors hwindow hallFit hprompts ?_ hnonempty
        (hlists.tokenChunkSize_lt hallFit) hinput
      exact fun x hx => starts_of_isPrompt hsimulates hinv hpending hwhole hx
        (hprompts x.1 (mem_of_mem_sequencesOf hx).1)
    . right
      exact ModelWorker.isDecode_of_prepareInputTensors hwindow hallFit hdecodes hnonempty
        (hlists.chunk_lt hallFit) hinput
  . exact (ModelWorker.input_eq hwindow hallFit hlists.getTokenIds_eq
      (hlists.tokenChunkSize_lt hallFit) hinput).2.2.2
  . intro x hx p hp
    rcases hreads _ hexecutes x.1 (mem_of_mem_sequencesOf hx).1 x.2.1 x.2.2
      (AList.mem_lookup_iff.mpr (mem_of_mem_sequencesOf hx).2) p hp
      with ⟨table, blockNumber, tokenId, htable, hblock, -, hslot⟩
    exact ⟨table, blockNumber, tokenId, htable, hblock,
      hplaces.blockNumber_lt hbound hx htable hblock, hslot⟩

end Reachable

end CacheTrace

variable {ρ σ : Type}

/--
What the thread keeps between the batches: the caches of the layers and the logits processors.
-/
structure PagedState (ρ σ : Type) where
  gpuCache : List (LayerCache ρ)
  processors : Nat → σ

inductive ExecuteModelError where
  | modelWorkerError (error : ModelWorkerError)
  | modelExecutorError (error : ModelExecutorError)

namespace ModelWorker

variable [Zero ρ] (worker : ModelWorker) (llama : Llama ρ) (executor : ModelExecutor σ)

/--
The caches on the GPU, one for each layer.
-/
def allocateBlocks (numBlocks : Nat) : List (LayerCache ρ) :=
  List.replicate llama.blocks.length {
    numBlocks
    blockSize := worker.blockSize
    rows := fun _ _ => (0, 0)
  }

variable [Add ρ] [Mul ρ]

/--
`execute_model` for a batch that copies nothing.
-/
def executeModel (request : ExecuteModelRequest) (state : PagedState ρ σ)
    : Except ExecuteModelError (List SequenceGroupOutput × PagedState ρ σ) := do
  if request.sequenceGroupsMetadata.isEmpty then
    return ([], state)
  let (logits, gpuCache) ←
    (worker.forward llama request.sequenceGroupsMetadata state.gpuCache).mapError .modelWorkerError
  let (outputs, processors) ←
    (executor.sampleLogits state.processors logits request.sequenceGroupsMetadata).mapError
      .modelExecutorError
  return (outputs, { gpuCache, processors })

def pagedThread : ModelThread (PagedState ρ σ) where
  register group state := { state with processors := executor.register group state.processors }
  Answers request state outputs state' :=
    request.CopiesNothing ∧ worker.executeModel llama executor request state = .ok (outputs, state')

variable {worker} {llama} {executor}

theorem executeModel_eq_ok {request : ExecuteModelRequest} {state state' : PagedState ρ σ}
    {outputs : List SequenceGroupOutput} (hne : request.sequenceGroupsMetadata ≠ [])
    (h : worker.executeModel llama executor request state = .ok (outputs, state'))
    : ∃ logits,
        worker.forward llama request.sequenceGroupsMetadata state.gpuCache
            = .ok (logits, state'.gpuCache)
          ∧ executor.sampleLogits state.processors logits request.sequenceGroupsMetadata
              = .ok (outputs, state'.processors) := by
  unfold executeModel at h
  rw [if_neg (by simpa using hne)] at h
  rcases Except.bind_eq_ok.mp h with ⟨-, -, h⟩
  rcases Except.bind_eq_ok.mp h with ⟨⟨logits, gpuCache⟩, hforward, h⟩
  rcases Except.bind_eq_ok.mp h with ⟨⟨outputs, processors⟩, hsample, hpure⟩
  cases hpure
  exact ⟨logits, Except.mapError_eq_ok.mp hforward, Except.mapError_eq_ok.mp hsample⟩

end ModelWorker

abbrev PagedTrace (ρ σ : Type) :=
  ThreadTrace (PagedState ρ σ)

namespace PagedTrace

open ModelWorker (Supports Represents)

variable [Zero ρ] [Add ρ] [Mul ρ] {accepts : Session.Accepts} {worker : ModelWorker} {llama : Llama ρ}
variable {executor : ModelExecutor σ} {run run' : PagedTrace ρ σ} {slots : KvCache}
variable {config : SchedulerConfig} {blockSize numCpuBlocks numGpuBlocks : Nat}
variable {heap : SequenceHeap} {now : Nat} {tokenizer : List Nat → Except String String}
variable {index : Nat} {receiver : Receiver}

def Reachable (accepts : Session.Accepts) (worker : ModelWorker) (llama : Llama ρ)
    (executor : ModelExecutor σ) (engine : LlmEngine) (numGpuBlocks : Nat) (run : PagedTrace ρ σ)
    : Prop :=
  ThreadTrace.Reachable accepts (worker.pagedThread llama executor) engine
    ⟨worker.allocateBlocks llama numGpuBlocks, executor.initialProcessors⟩ run

/--
All layers can compute the batch.
-/
def Supported (worker : ModelWorker) (llama : Llama ρ) (numGpuBlocks : Nat)
    (request : ExecuteModelRequest) : Prop :=
  ∀ block ∈ llama.blocks,
    Supports block.attn.attention numGpuBlocks worker.blockSize
      (sequencesOf request.sequenceGroupsMetadata)

/--
The logits of the model for each sequence of a batch on its own.
-/
def plainLogits (llama : Llama ρ) (request : ExecuteModelRequest) : List (List ℚ) :=
  (sequencesOf request.sequenceGroupsMetadata).map fun x => llama.logits (x.1.context x.2.2)

/--
The caches of the layers represent the slots of a run of the cache.
-/
structure Mirrors (accepts : Session.Accepts) (worker : ModelWorker) (llama : Llama ρ)
    (engine : LlmEngine) (numGpuBlocks : Nat) (run : PagedTrace ρ σ) (slots : KvCache) : Prop where
  reachable : CacheTrace.Reachable accepts worker engine (fun _ _ => none) ⟨run.trace, slots⟩
  represents : Represents slots numGpuBlocks worker.blockSize llama.blocks run.state.gpuCache
    fun sequenceId => (run.trace.tokenIds sequenceId).map llama.wte

theorem represents_allocateBlocks (rows : Nat → List ρ)
    : Represents (fun _ _ => none) numGpuBlocks worker.blockSize llama.blocks
        (worker.allocateBlocks llama numGpuBlocks) rows := by
  unfold ModelWorker.allocateBlocks
  induction llama.blocks generalizing rows with
  | nil => exact .nil
  | cons block blocks ih => exact .cons rfl rfl (fun _ _ _ hslot => (nomatch hslot)) (ih _)

section Driven

def pagedWorker : ModelWorker where
  blockSize := 16
  slidingWindow := none
  enableChunkedPrefill := false

/--
One layer, whose attention adds up.
-/
def summingLlama : Llama ℤ where
  wte tokenId := tokenId
  blocks := [{
    rms1 := id
    attn := {
      qProj := id
      kProj := fun x => x + 1
      vProj := fun x => 2 * x
      oProj := id
      rotaryEmbed := fun i x => x + i
      attention := {
        numHeads := 1
        numKvHeads := 1
        headDim := 64
        attend := fun query keysValues =>
          (keysValues.map fun (key, value) => query * key + value).sum
        numKvHeads_pos := by decide
        mod_eq_zero := by decide
        headDim_mem := by decide
      }
    }
    rms2 := id
    mlp := ⟨id, id, id, id⟩
  }]
  lnF := id
  lmHead row := (List.range 8).map fun tokenId => if row % 8 = tokenId then 1 else 0

/--
The most likely token is drawn.
-/
def summingExecutor : ModelExecutor Unit where
  forward := summingLlama.logits
  eosTokenIds := none
  fromSampling _ := ()
  applyRepeatPenalty row _ _ := .ok row
  draw processor row := .ok (row.idxOf 1, processor)

def pagedSequence : Sequence :=
  {
    waitingSequence [5, 6] with
    blockSize := 16
    logicalTokenBlocks := [
      { blockNumber := 0, blockSize := 16, tokenIds := [5, 6], numTokens := 2 }
    ]
  }

def pagedAnswer (request : ExecuteModelRequest) (state : PagedState ℤ Unit)
    : Option (List SequenceGroupOutput × PagedState ℤ Unit) :=
  if request.CopiesNothing then
    (pagedWorker.executeModel summingLlama summingExecutor request state).toOption
  else
    none

def pagedEngine : LlmEngine :=
  LlmEngine.new (Scheduler.new ⟨8, 2, 8, 0, false⟩ 16 4 4 none (fun _ => pagedSequence) 0)
    fun _ => .ok ""

def pagedRun (rounds : Nat) : Option (PagedTrace ℤ Unit) :=
  ThreadTrace.driven (pagedWorker.pagedThread summingLlama summingExecutor) pagedEngine
    ⟨pagedWorker.allocateBlocks summingLlama 4, summingExecutor.initialProcessors⟩ pagedAnswer
    (singleGroup "a" 0 0) pagedSequence rounds

theorem isAnswer_pagedAnswer
    : ThreadTrace.IsAnswer (pagedWorker.pagedThread summingLlama summingExecutor) pagedAnswer := by
  intro request state outputs state' hanswer
  unfold pagedAnswer at hanswer
  split at hanswer
  . next hcopies =>
    have hexecute := Except.toOption_eq_some hanswer
    refine ⟨⟨hcopies, hexecute⟩, ?_⟩
    by_cases hempty : request.sequenceGroupsMetadata = []
    . unfold ModelWorker.executeModel at hexecute
      rw [if_pos (by simp [hempty])] at hexecute
      cases hexecute
      exact ⟨fun _ => ⟨0, 0, false⟩, by rw [hempty]; rfl⟩
    . rcases ModelWorker.executeModel_eq_ok hempty hexecute with ⟨logits, -, hsample⟩
      rcases ModelExecutor.sampleLogits_eq_ok hsample with ⟨nexts, -, houtputs⟩
      exact ⟨_, houtputs⟩
  . cases hanswer

theorem reachable_of_pagedRun {rounds : Nat} {run : PagedTrace ℤ Unit}
    (h : pagedRun rounds = some run)
    : Reachable (fun _ _ _ => True) pagedWorker summingLlama summingExecutor pagedEngine 4 run
        ∧ run.trace.arrived = [singleGroup "a" 0 0] := by
  have hnew : Sequence.new "" [5, 6] 16 false = .ok pagedSequence := by decide +kernel
  exact ThreadTrace.reachable_of_driven isAnswer_pagedAnswer rfl hnew h

theorem supported_pagedWorker (request : ExecuteModelRequest)
    : Supported pagedWorker summingLlama 4 request := by
  intro block hblock
  rw [List.mem_singleton.mp hblock]
  exact ⟨by decide, fun _ _ _ _ => le_rfl, fun _ _ _ => rfl⟩

end Driven

section Run

variable (hsize : worker.blockSize = blockSize) (hwindow : worker.slidingWindow = none)
variable (hslots : numGpuBlocks * blockSize ≤ 2 ^ 24)
include hsize hwindow hslots

/--
What the forward pass of a batch in flight does.
-/
theorem Mirrors.forward
    (h : run.Mirrors accepts worker llama
      (LlmEngine.new
        (Scheduler.new config blockSize numCpuBlocks numGpuBlocks none heap now) tokenizer)
      numGpuBlocks slots)
    (hwhole : run.trace.Whole) (hreceiver : run.trace.engine.responses[index]? = some receiver)
    (hcopies : receiver.request.CopiesNothing)
    : (Supported worker llama numGpuBlocks receiver.request →
          ∃ slots' gpuCache',
            worker.forward llama receiver.request.sequenceGroupsMetadata run.state.gpuCache
                = .ok (plainLogits llama receiver.request, gpuCache')
              ∧ worker.ExecutesCache receiver.request slots slots'
              ∧ Represents slots' numGpuBlocks worker.blockSize llama.blocks gpuCache'
                  fun sequenceId => (run.trace.tokenIds sequenceId).map llama.wte)
        ∧ (¬ Supported worker llama numGpuBlocks receiver.request →
            ∃ e, worker.forward llama receiver.request.sequenceGroupsMetadata run.state.gpuCache
              = .error e) := by
  rcases CacheTrace.feeds_of_reachable hsize hwindow h.reachable (by omega) hwhole hreceiver hcopies
    with ⟨input, hfeeds⟩
  constructor
  . intro hsupported
    rcases hfeeds.feeds.forward_eq_ok hwindow hfeeds.lists hfeeds.input_eq h.represents hsupported
      with ⟨gpuCache', hforward, hrepresents⟩
    exact ⟨_, gpuCache', hforward, hfeeds.executes, hrepresents⟩
  . intro hnot
    exact hfeeds.feeds.forward_eq_error hwindow hfeeds.lists hfeeds.input_eq h.represents hnot

/--
When the batch is answered the forward pass has succeeded.
-/
theorem Mirrors.answers {outputs : List SequenceGroupOutput} {state' : PagedState ρ σ}
    (h : run.Mirrors accepts worker llama
      (LlmEngine.new
        (Scheduler.new config blockSize numCpuBlocks numGpuBlocks none heap now) tokenizer)
      numGpuBlocks slots)
    (hwhole : run.trace.Whole) (hreceiver : run.trace.engine.responses[index]? = some receiver)
    (hanswers : (worker.pagedThread llama executor).Answers receiver.request run.state outputs state')
    : ∃ slots',
        worker.ExecutesCache receiver.request slots slots'
          ∧ Represents slots' numGpuBlocks worker.blockSize llama.blocks state'.gpuCache
              (fun sequenceId => (run.trace.tokenIds sequenceId).map llama.wte)
          ∧ executor.sampleLogits run.state.processors (plainLogits llama receiver.request)
              receiver.request.sequenceGroupsMetadata = .ok (outputs, state'.processors) := by
  rcases hanswers with ⟨hcopies, hexecute⟩
  have hstart := Session.inv_start config blockSize numCpuBlocks numGpuBlocks none heap now
  rcases Trace.simulates_of_reachable hstart h.reachable.trace_reachable
    with ⟨session, hsteps, hsimulates⟩
  have hne := CacheTrace.sequenceGroupsMetadata_ne_nil hsimulates (hsteps.inv hstart) hreceiver hcopies
  have hrequest : receiver.request.sequenceGroupsMetadata ≠ [] := by
    rwa [(hsimulates.paired.of_getElem? hreceiver).2.1]
  rcases ModelWorker.executeModel_eq_ok hrequest hexecute with ⟨logits, hforward, hsample⟩
  rcases h.forward hsize hwindow hslots hwhole hreceiver hcopies with ⟨hok, herror⟩
  by_cases hsupported : Supported worker llama numGpuBlocks receiver.request
  . rcases hok hsupported with ⟨slots', gpuCache', hplain, hexecutes, hrepresents⟩
    rw [hplain] at hforward
    cases hforward
    exact ⟨slots', hexecutes, hrepresents, hsample⟩
  . rcases herror hsupported with ⟨e, hfails⟩
    rw [hfails] at hforward
    cases hforward

theorem Mirrors.step
    (h : run.Mirrors accepts worker llama
      (LlmEngine.new
        (Scheduler.new config blockSize numCpuBlocks numGpuBlocks none heap now) tokenizer)
      numGpuBlocks slots)
    (hwhole : run.trace.Whole)
    (hstep : ThreadTrace.Step accepts (worker.pagedThread llama executor) run run')
    : ∃ slots',
        run'.Mirrors accepts worker llama
          (LlmEngine.new
            (Scheduler.new config blockSize numCpuBlocks numGpuBlocks none heap now) tokenizer)
          numGpuBlocks slots' := by
  have hstart := Session.inv_start config blockSize numCpuBlocks numGpuBlocks none heap now
  rcases Trace.simulates_of_reachable hstart h.reachable.trace_reachable
    with ⟨session, hsteps, hsimulates⟩
  have hbegins := hstep.trace_step.isPrefix_tokenIds hsimulates (hsteps.inv hstart)
  let related (state : PagedState ρ σ) (slots : KvCache) : Prop :=
    Represents slots numGpuBlocks worker.blockSize llama.blocks state.gpuCache
      fun sequenceId => (run.trace.tokenIds sequenceId).map llama.wte
  have hregister : ∀ group,
      related ((worker.pagedThread llama executor).register group run.state)
        (worker.thread.register group slots) :=
    fun _ => h.represents
  have hanswers : ∀ (index : Nat) (receiver : Receiver) (outputs : List SequenceGroupOutput)
      (state' : PagedState ρ σ), run.trace.engine.responses[index]? = some receiver →
        (worker.pagedThread llama executor).Answers receiver.request run.state outputs state' →
          ∃ slots', worker.thread.Answers receiver.request slots outputs slots'
            ∧ related state' slots' := by
    intro index receiver outputs state' hreceiver hanswers
    rcases h.answers hsize hwindow hslots hwhole hreceiver hanswers
      with ⟨slots', hexecutes, hrepresents, -⟩
    exact ⟨slots', hexecutes, hrepresents⟩
  rcases hstep.exists_step hregister hanswers h.represents with ⟨slots', hcache, hrepresents⟩
  refine ⟨slots', h.reachable.tail hcache, hrepresents.of_isPrefix ?_⟩
  exact fun sequenceId => (hbegins sequenceId).map llama.wte

variable (hpolicy : config.enableChunkedPrefill = false)
variable (h : Reachable accepts worker llama executor
  (LlmEngine.new (Scheduler.new config blockSize numCpuBlocks numGpuBlocks none heap now) tokenizer)
  numGpuBlocks run)
include hpolicy h

theorem exists_mirrors_of_reachable
    : ∃ slots,
        run.Mirrors accepts worker llama
          (LlmEngine.new
            (Scheduler.new config blockSize numCpuBlocks numGpuBlocks none heap now) tokenizer)
          numGpuBlocks slots := by
  induction h with
  | refl => exact ⟨_, .refl, represents_allocateBlocks _⟩
  | tail hreach hstep ih =>
    rcases ih with ⟨slots, hmirrors⟩
    exact hmirrors.step hsize hwindow hslots (Trace.whole_of_reachable hpolicy hreach) hstep

/--
The logits of a batch in flight are those of the model for each of its sequences alone, whatever the
other sequences and the blocks are. They are computed if and only if the kernels take the batch.
-/
theorem forward_of_reachable (hreceiver : run.trace.engine.responses[index]? = some receiver)
    (hcopies : receiver.request.CopiesNothing)
    : ((∃ out,
          worker.forward llama receiver.request.sequenceGroupsMetadata run.state.gpuCache = .ok out)
          ↔ Supported worker llama numGpuBlocks receiver.request)
        ∧ ∀ logits gpuCache',
            worker.forward llama receiver.request.sequenceGroupsMetadata run.state.gpuCache
              = .ok (logits, gpuCache') → logits = plainLogits llama receiver.request := by
  rcases exists_mirrors_of_reachable hsize hwindow hslots hpolicy h with ⟨slots, hmirrors⟩
  have hwhole := Trace.whole_of_reachable hpolicy h
  rcases hmirrors.forward hsize hwindow hslots hwhole hreceiver hcopies with ⟨hok, herror⟩
  by_cases hsupported : Supported worker llama numGpuBlocks receiver.request
  . rcases hok hsupported with ⟨-, gpuCache', hforward, -⟩
    refine ⟨⟨fun _ => hsupported, fun _ => ⟨_, hforward⟩⟩, ?_⟩
    intro logits gpuCache'' hforward'
    rw [hforward] at hforward'
    cases hforward'
    rfl
  . rcases herror hsupported with ⟨e, hforward⟩
    refine ⟨⟨?_, fun habsurd => absurd habsurd hsupported⟩, ?_⟩
    . rintro ⟨out, hforward'⟩
      rw [hforward] at hforward'
      cases hforward'
    . intro logits gpuCache'' hforward'
      rw [hforward] at hforward'
      cases hforward'

end Run

/--
The second token: a decode, whose keys and values are read from the cache.
-/
theorem forward_of_reachable_pagedRun
    : ∃ (run : PagedTrace ℤ Unit) (receiver : Receiver),
        receiver ∈ run.trace.engine.responses
          ∧ receiver.request.sequenceGroupsMetadata.map (·.isPrompt) = [false]
          ∧ ∃ gpuCache',
              pagedWorker.forward summingLlama receiver.request.sequenceGroupsMetadata
                  run.state.gpuCache
                = .ok (plainLogits summingLlama receiver.request, gpuCache') := by
  have hrun : (pagedRun 1).any (fun run =>
      run.trace.engine.responses.any fun receiver =>
        receiver.request.sequenceGroupsMetadata.map (·.isPrompt) = [false]
          ∧ receiver.request.CopiesNothing) = true := by
    decide +kernel
  rcases (Option.any_eq_true _ _).mp hrun with ⟨run, hsome, hbatch⟩
  rcases List.any_eq_true.mp hbatch with ⟨receiver, hreceiver, hdecode⟩
  rcases of_decide_eq_true hdecode with ⟨hdecode, hcopies⟩
  rcases List.mem_iff_getElem?.mp hreceiver with ⟨index, hindex⟩
  rcases forward_of_reachable rfl rfl (by decide) rfl (reachable_of_pagedRun hsome).1 hindex hcopies
    with ⟨hok, hplain⟩
  rcases hok.mpr (supported_pagedWorker _) with ⟨⟨logits, gpuCache'⟩, hforward⟩
  refine ⟨run, receiver, hreceiver, hdecode, gpuCache', ?_⟩
  rw [← hplain _ _ hforward]
  exact hforward

section Run

variable (hsize : worker.blockSize = blockSize) (hwindow : worker.slidingWindow = none)
variable (hslots : numGpuBlocks * blockSize ≤ 2 ^ 24)
include hsize hwindow hslots

variable (hpolicy : config.enableChunkedPrefill = false)
variable (h : Reachable accepts worker llama executor
  (LlmEngine.new (Scheduler.new config blockSize numCpuBlocks numGpuBlocks none heap now) tokenizer)
  numGpuBlocks run)
include hpolicy h

/--
The run without the caches.
-/
theorem sampledTrace_reachable (hforward : executor.forward = llama.logits)
    : SampledTrace.Reachable accepts executor
        (LlmEngine.new
          (Scheduler.new config blockSize numCpuBlocks numGpuBlocks none heap now) tokenizer)
        ⟨run.trace, run.state.processors⟩ := by
  induction h with
  | refl => exact .refl
  | @tail run run' hreach hstep ih =>
    have hwhole := Trace.whole_of_reachable hpolicy hreach
    rcases exists_mirrors_of_reachable hsize hwindow hslots hpolicy hreach with ⟨slots, hmirrors⟩
    have hanswers : ∀ (index : Nat) (receiver : Receiver) (outputs : List SequenceGroupOutput)
        (state' : PagedState ρ σ), run.trace.engine.responses[index]? = some receiver →
          (worker.pagedThread llama executor).Answers receiver.request run.state outputs state' →
            ∃ processors', executor.thread.Answers receiver.request run.state.processors outputs
                processors'
              ∧ state'.processors = processors' := by
      intro index receiver outputs state' hreceiver hanswers
      rcases hmirrors.answers hsize hwindow hslots hwhole hreceiver hanswers
        with ⟨-, -, -, hsample⟩
      refine ⟨_, ?_, rfl⟩
      change executor.sampleLogits _ ((sequencesOf _).map fun x =>
        executor.forward (x.1.context x.2.2)) _ = _
      rw [hforward]
      exact hsample
    have hregister : ∀ group,
        ((worker.pagedThread llama executor).register group run.state).processors
          = executor.thread.register group run.state.processors :=
      fun _ => rfl
    rcases hstep.exists_step hregister hanswers rfl with ⟨processors', hsampled, heq⟩
    rw [heq]
    exact ih.tail hsampled

/--
Paged attention, batching and preemption leave no trace in what is generated: the output tokens of
each sequence are those that the model without a cache generates for its prompt alone.
-/
theorem generatedBy_of_reachable (hforward : executor.forward = llama.logits)
    {group : SequenceGroup} {seq : SequenceRef} (hgroup : group ∈ run.trace.arrived)
    (hseq : seq ∈ group.sequences)
    : SampledTrace.GeneratedBy executor Eq group (run.state.processors seq.sequenceId)
        (run.trace.engine.scheduler.memory.sequences seq).sequenceData := by
  have hsampled := sampledTrace_reachable hsize hwindow hslots hpolicy h hforward
  exact SampledTrace.generates_of_visits hpolicy executor.agrees_eq (.between hsampled) group hgroup rfl seq
    hseq

end Run

/--
The second token comes from the cache.
-/
theorem generatedBy_of_reachable_pagedRun
    : ∃ run : PagedTrace ℤ Unit,
        (run.trace.engine.scheduler.memory.sequences ⟨0, 0⟩).sequenceData.outputTokenIds = [2, 0]
          ∧ SampledTrace.GeneratedBy summingExecutor Eq (singleGroup "a" 0 0)
              (run.state.processors 0)
              (run.trace.engine.scheduler.memory.sequences ⟨0, 0⟩).sequenceData := by
  have hrun : (pagedRun 2).any (fun run =>
      (run.trace.engine.scheduler.memory.sequences ⟨0, 0⟩).sequenceData.outputTokenIds = [2, 0])
        = true := by
    decide +kernel
  rcases (Option.any_eq_true _ _).mp hrun with ⟨run, hsome, htokens⟩
  rcases reachable_of_pagedRun hsome with ⟨hreach, harrived⟩
  have hgroup : singleGroup "a" 0 0 ∈ run.trace.arrived := by simp [harrived]
  have hseq : ⟨0, 0⟩ ∈ (singleGroup "a" 0 0).sequences := by simp [singleGroup]
  exact ⟨run, of_decide_eq_true htokens,
    generatedBy_of_reachable rfl rfl (by decide) rfl hreach rfl hgroup hseq⟩

end PagedTrace

end AtomaInfer
