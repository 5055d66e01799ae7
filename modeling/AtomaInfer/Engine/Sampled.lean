import AtomaInfer.Engine.Thread
import AtomaInfer.Engine.Draws
import AtomaInfer.Worker.Generate

/-!
Runs of the engine with a given model, whose logits processors keep their state between the batches.
The tokens of a sequence are the ones that the model generates for its prompt alone, whatever the
other sequences and the batches of the run are.
-/

namespace AtomaInfer

open Scheduler
open ModelExecutor (NextToken sequenceOutput)

namespace Trace

/--
The groups that the scheduler holds have arrived, and so have those of the batch, whose metadata is
about them.
-/
structure Holds (trace : Trace) : Prop where
  held : ∀ group ∈ trace.engine.scheduler.config.held, group ∈ trace.arrived
  batch : List.Forall₂
    (fun scheduled metadata => scheduled.scheduledGroup ∈ trace.arrived
      ∧ metadata.nextTokenChooserParams = scheduled.scheduledGroup.nextTokenChooserParams)
    trace.engine.schedulerOutputs.scheduledSequenceGroups trace.engine.sequenceGroupsMetadata

variable {accepts : Session.Accepts} {trace trace' called received : Trace} {instants : Instants}
variable {event : LlmEngine.Event} {session : Session}

theorem Receives.batch_eq (h : trace.Receives accepts instants event received)
    : received.engine.schedulerOutputs = trace.engine.schedulerOutputs
        ∧ received.engine.sequenceGroupsMetadata = trace.engine.sequenceGroupsMetadata
        ∧ trace.arrived ⊆ received.arrived := by
  cases h with
  | intro request =>
    cases request <;> exact ⟨rfl, rfl, List.subset_append_left _ _⟩

theorem Receives.holds (h : trace.Receives accepts instants event received) (hholds : trace.Holds)
    : received.Holds := by
  rcases h.batch_eq with ⟨houtputs, hmetadata, hsubset⟩
  constructor
  . intro group hheld
    cases h with
    | intro request =>
      rw [List.mem_append, List.mem_singleton]
      have hmem : group ∈ trace.engine.scheduler.config.held ∨ group = request.sequenceGroup := by
        cases request <;>
          simp [LlmEngine.addRequest, LlmEngine.createSequences, addSequenceGroup, Config.held,
            Scheduler.config, EngineRequest.sequenceGroup] at hheld ⊢ <;>
          tauto
      exact hmem.imp_left (hholds.held group)
  . rw [houtputs, hmetadata]
    exact hholds.batch.imp fun _ _ hentry => ⟨hsubset hentry.1, hentry.2⟩

theorem Processes.held (h : trace.Processes instants event called)
    (hsimulates : trace.Simulates session) (hinv : session.Inv) (hholds : trace.Holds)
    : ∀ group ∈ called.engine.scheduler.config.held, group ∈ called.arrived := by
  rcases h.processed hsimulates hinv with ⟨heap, hprocessed⟩
  intro group hheld
  rw [hprocessed.arrived_eq]
  apply hholds.held
  rw [hprocessed.scheduler_eq] at hheld
  simp only [Config.held, Scheduler.config, removeFinishedSequences, Multiset.mem_add,
    Multiset.mem_coe, List.mem_filter] at hheld ⊢
  tauto

theorem nextTokenChooserParams_of_hasMetadata {scheduler : Scheduler} {now : Nat}
    {scheduled : ScheduledSequenceGroup} {metadata : SequenceGroupMetadata}
    (h : scheduler.HasMetadata now scheduled metadata)
    : metadata.nextTokenChooserParams = scheduled.scheduledGroup.nextTokenChooserParams := by
  rcases h with ⟨current, next, -, hmetadata⟩
  simp only [groupMetadata, Except.bind_eq_ok] at hmetadata
  rcases hmetadata with ⟨doSample, -, hpure⟩
  cases hpure
  rfl

/--
What `step` schedules are groups that it holds.
-/
theorem holds_of_step {stepped engine : LlmEngine} {sampled : SequenceRef → Bool}
    {responseSenders : AList fun _ : String => Channel} {sent : List (Channel × Message)}
    (hheld : ∀ group ∈ called.engine.scheduler.config.held, group ∈ called.arrived)
    (hbetween : called.Between session) (hinv : session.Inv)
    (hstep : called.engine.step instants = .ok stepped)
    (hengine : engine = { stepped with responseSenders, sent })
    : Holds { called with engine, sampled } := by
  rcases LlmEngine.step_eq_ok hstep
    with ⟨metadata, outputs, scheduler, hschedule, hmetadata, houtputs, -, hstepped⟩
  have hreschedules := hinv.reschedules (hbetween.scheduler_eq ▸ hschedule)
  rw [hbetween.scheduler_eq] at hreschedules
  rcases schedule_eq_ok hschedule with ⟨passed, -, -, hgroups⟩
  subst hengine
  constructor
  . intro group hmem
    apply hheld
    apply Multiset.mem_of_le hreschedules.held_le
    dsimp only at hmem
    rwa [hstepped] at hmem
  . dsimp only
    rw [hmetadata, houtputs, List.forall₂_iff_zip]
    refine ⟨hgroups.length_eq, ?_⟩
    intro scheduled metadata hentry
    refine ⟨hheld _ (hreschedules.groups scheduled (List.of_mem_zip hentry).1), ?_⟩
    exact nextTokenChooserParams_of_hasMetadata ((List.forall₂_iff_zip.mp hgroups).2 hentry)

theorem Step.holds (h : Step accepts trace trace') (hsimulates : trace.Simulates session)
    (hinv : session.Inv) (hholds : trace.Holds) : trace'.Holds := by
  cases h with
  | wait hreceives hbusy => exact hreceives.holds hholds
  | schedule hcalls hhandle =>
    rcases hcalls.exists_between hsimulates hinv with ⟨between, hsteps, hbetween, -⟩
    rcases hcalls.handle_eq hhandle with ⟨stepped, responseSenders, sent, hstep, hengine⟩
    refine holds_of_step ?_ hbetween (hsteps.inv hinv) hstep hengine
    cases hcalls with
    | request hreceives hidle => exact (hreceives.holds hholds).held
    | response hprocesses => exact hprocesses.held hsimulates hinv hholds
  | disconnect channel => exact ⟨hholds.held, hholds.batch⟩

theorem holds_of_reachable {scheduler : Scheduler} {tokenizer : List Nat → Except String String}
    (hinv : (Session.start scheduler).Inv) (hheld : scheduler.config.held = 0)
    (h : Reachable accepts (LlmEngine.new scheduler tokenizer) trace) : trace.Holds := by
  induction h with
  | refl =>
    refine ⟨?_, .nil⟩
    intro group hgroup
    have hgroup : group ∈ scheduler.config.held := hgroup
    rw [hheld] at hgroup
    exact absurd hgroup (Multiset.notMem_zero _)
  | tail hreach hstep ih =>
    rcases simulates_of_reachable hinv hreach with ⟨session, hsteps, hsimulates⟩
    exact hstep.holds hsimulates (hsteps.inv hinv) ih

end Trace

namespace Sequence

theorem addTokenId_promptTokenIds {sequence added : Sequence} {tokenId : Nat} {logprobs : LogProbs}
    (h : sequence.addTokenId tokenId logprobs = .ok added)
    : added.sequenceData.promptTokenIds = sequence.sequenceData.promptTokenIds := by
  unfold addTokenId at h
  split at h
  . cases h
    rfl
  . split at h
    . cases h
    . next appended happend =>
      cases h
      rw [appendTokensToBlocks_eq_ok happend]
      rfl

/--
A sampled token is added to the ones before; without sampling the tokens stay the same.
-/
theorem tokens_of_updated {engine : LlmEngine} {created : Nat} {entry : LlmEngine.Entry}
    {sequenceId : Nat} {next : NextToken} {sequence sequence' : Sequence}
    (h : engine.Updated created entry (sequenceOutput sequenceId next) sequence sequence')
    : sequence'.sequenceData.promptTokenIds = sequence.sequenceData.promptTokenIds
        ∧ sequence'.sequenceData.outputTokenIds
            = sequence.sequenceData.outputTokenIds
                ++ (if entry.2.1.doSample = true then [next.token] else []) := by
  unfold LlmEngine.Updated at h
  split at h
  . next hsample =>
    rcases h with ⟨responses, hresult⟩
    rcases LlmEngine.exists_of_sample hresult with ⟨added, text, -, hadd, -, rfl, -, -⟩
    rcases addTokenId_sequenceOutput hadd with ⟨-, houtput, -⟩
    rw [if_pos hsample]
    exact ⟨(addTokenId_promptTokenIds hadd :), houtput⟩
  . next hsample =>
    subst h
    rw [if_neg hsample, List.append_nil]
    exact ⟨rfl, rfl⟩

end Sequence

namespace ModelExecutor

variable {σ : Type} (executor : ModelExecutor σ)

/--
A group brings its own logits processor.
-/
def register (group : SequenceGroup) (processors : Nat → σ) : Nat → σ :=
  group.sequences.foldl
    (fun processors seq =>
      Function.update processors seq.sequenceId (executor.fromSampling group.logitsProcessor))
    processors

/--
The thread that samples: its state is that of the logits processors, by the identifiers of their
sequences.
-/
def thread : ModelThread (Nat → σ) where
  register := executor.register
  Answers request processors outputs processors' :=
    executor.execute processors request.sequenceGroupsMetadata = .ok (outputs, processors')

def initialProcessors : Nat → σ :=
  fun _ => executor.fromSampling ⟨0, .argMax⟩

end ModelExecutor

abbrev SampledTrace (σ : Type) :=
  ThreadTrace (Nat → σ)

namespace SampledTrace

variable {σ : Type} {executor : ModelExecutor σ} {run run' : SampledTrace σ}

def Reachable (accepts : Session.Accepts) (executor : ModelExecutor σ) (engine : LlmEngine)
    (run : SampledTrace σ) : Prop :=
  ThreadTrace.Reachable accepts executor.thread engine executor.initialProcessors run

/--
Any point of a run: between two events, or when the outputs of a batch have been processed.
-/
inductive Visits (accepts : Session.Accepts) (executor : ModelExecutor σ) (engine : LlmEngine)
    : SampledTrace σ → Prop where
  | between {run : SampledTrace σ} (h : Reachable accepts executor engine run)
    : Visits accepts executor engine run
  | calls {run called : SampledTrace σ} {instants : Instants} {event : LlmEngine.Event}
      (h : Reachable accepts executor engine run)
      (hcalls : run.Calls accepts executor.thread instants event called)
    : Visits accepts executor engine called

variable {accepts : Session.Accepts} {instants : Instants} {event : LlmEngine.Event}
variable {session : Session} {agree : σ → σ → Prop}

/--
The output tokens of the sequence are those that the model generates for its prompt, and its logits
processor draws the same tokens as the one in which this generation ends.
-/
def GeneratedBy (executor : ModelExecutor σ) (agree : σ → σ → Prop) (group : SequenceGroup)
    (processor : σ) (data : SequenceData) : Prop :=
  ∃ final,
    executor.generate group.nextTokenChooserParams data.promptTokenIds
        (executor.fromSampling group.logitsProcessor) data.outputTokenIds.length
      = .ok (data.outputTokenIds, final)
    ∧ agree processor final

/--
The sequences whose processors `agree` is about.
-/
def Generates (executor : ModelExecutor σ) (agree : σ → σ → Prop) (run : SampledTrace σ) : Prop :=
  ∀ group ∈ run.trace.arrived,
    agree (executor.fromSampling group.logitsProcessor)
      (executor.fromSampling group.logitsProcessor) →
    ∀ seq ∈ group.sequences,
      GeneratedBy executor agree group (run.state seq.sequenceId)
        (run.trace.engine.scheduler.memory.sequences seq).sequenceData

theorem receives_request {sequences : List Sequence} {request : EngineRequest} {received : Trace}
    (h : run.trace.Receives accepts instants (.request instants sequences request) received)
    : ∃ seq promptTokenIds,
        request.sequenceGroup.sequences = [seq]
          ∧ (∀ other ∈ run.trace.arrived, ∀ seq' ∈ other.sequences, seq'.sequenceId ≠ seq.sequenceId)
          ∧ received.arrived = run.trace.arrived ++ [request.sequenceGroup]
          ∧ (received.engine.scheduler.memory.sequences seq).sequenceData
              = SequenceData.new promptTokenIds []
          ∧ ∀ other, other ≠ seq →
              received.engine.scheduler.memory.sequences other
                = run.trace.engine.scheduler.memory.sequences other := by
  cases h with
  | intro request seq sequence prompt promptTokenIds returnFullText hgroup hfresh hnew haccepts =>
    have hheap : ((run.trace.engine.createSequences request.sequenceGroup [sequence]).addRequest
        request).scheduler.memory.sequences
          = Function.update run.trace.engine.scheduler.memory.sequences seq sequence := by
      cases request <;>
        simp [LlmEngine.addRequest, LlmEngine.createSequences, addSequenceGroup,
          EngineRequest.sequenceGroup] at hgroup ⊢ <;>
        simp [hgroup]
    refine ⟨seq, promptTokenIds, hgroup, hfresh, rfl, ?_, ?_⟩
    . rw [hheap, Function.update_self]
      exact (Sequence.of_new hnew).2.1
    . intro other hne
      rw [hheap, Function.update_of_ne hne]

/--
A new sequence has generated nothing, and its processor is new.
-/
theorem Generates.receives {sequences : List Sequence} {request : EngineRequest} {received : Trace}
    (hgenerates : run.Generates executor agree)
    (h : run.trace.Receives accepts instants (.request instants sequences request) received)
    : Generates executor agree ⟨received, executor.register request.sequenceGroup run.state⟩ := by
  rcases receives_request h
    with ⟨seq, promptTokenIds, hgroup, hfresh, harrived, hdata, hframe⟩
  have hregister : executor.register request.sequenceGroup run.state
      = Function.update run.state seq.sequenceId
          (executor.fromSampling request.sequenceGroup.logitsProcessor) := by
    unfold ModelExecutor.register
    rw [hgroup]
    rfl
  intro group hmem hagree other hother
  dsimp only at hmem ⊢
  rw [harrived, List.mem_append, List.mem_singleton] at hmem
  rw [hregister]
  rcases hmem with hmem | rfl
  . have hid := hfresh group hmem other hother
    rw [Function.update_of_ne hid, hframe other fun heq => hid (by rw [heq])]
    exact hgenerates group hmem hagree other hother
  . rw [hgroup, List.mem_singleton] at hother
    subst hother
    rw [Function.update_self, hdata]
    exact ⟨_, rfl, hagree⟩

/--
The tokens and the processor of a sequence after a batch that lists it.
-/
theorem GeneratedBy.updated {engine : LlmEngine} {created : Nat} {entry : LlmEngine.Entry}
    {group : SequenceGroup} {seq : SequenceRef} {memory : Memory}
    {blockTable : BlockTable} {next : NextToken} {processor processor' : σ}
    {numComputedTokens : Nat} {stage : SequenceStage} {sequence' : Sequence}
    (hdraws : executor.Agrees agree)
    (hdesc : Describes memory false entry.2.2 entry.2.1 seq blockTable)
    (hparams : entry.2.1.nextTokenChooserParams = group.nextTokenChooserParams)
    (hrow : executor.sampleRow entry.2.1.nextTokenChooserParams
        (memory.sequences seq).sequenceData.getTokenIds processor
        (executor.forward (entry.2.1.context (memory.sequences seq).sequenceData))
      = .ok (next, processor'))
    (hupdated : engine.Updated created entry (sequenceOutput seq.sequenceId next)
      ((memory.sequences seq).recount numComputedTokens stage) sequence')
    (h : GeneratedBy executor agree group processor (memory.sequences seq).sequenceData)
    : GeneratedBy executor agree group processor' sequence'.sequenceData := by
  rcases Sequence.tokens_of_updated hupdated with ⟨hprompt, houtput⟩
  rcases h with ⟨final, hgenerate, hagree⟩
  have hprompt : sequence'.sequenceData.promptTokenIds
      = (memory.sequences seq).sequenceData.promptTokenIds := hprompt
  have houtput : sequence'.sequenceData.outputTokenIds
      = (memory.sequences seq).sequenceData.outputTokenIds
          ++ (if entry.2.1.doSample = true then [next.token] else []) := houtput
  -- the batch computes the tokens up to the last one
  have hreaches := hdesc.chunk.2.2 rfl
  have hsample : entry.2.1.doSample = true := by
    rw [hdesc.doSample_eq, decide_eq_true_eq]
    exact hreaches
  have hcontext : entry.2.1.context (memory.sequences seq).sequenceData
      = (memory.sequences seq).sequenceData.getTokenIds := by
    unfold SequenceGroupMetadata.context
    rw [hdesc.tokenChunkSize_eq, hreaches]
    apply List.take_of_length_le
    unfold SequenceData.length SequenceData.getTokenIds
    rw [List.length_append]
  rw [hcontext, hparams] at hrow
  rcases hdraws.sampleRow hagree hrow with ⟨final', hrow', hagree'⟩
  unfold GeneratedBy
  rw [hprompt, houtput, if_pos hsample, List.length_append]
  exact ⟨final', ModelExecutor.generate_succ hgenerate hrow', hagree'⟩

section Batch

variable {receiver : Receiver} {outputs : List SequenceGroupOutput} {processors : Nat → σ}
variable {index : Nat} (hsimulates : run.trace.Simulates session) (hinv : session.Inv)
include hsimulates hinv

theorem executes_of_response (hreceiver : run.trace.engine.responses[index]? = some receiver)
    (hexecute : executor.execute run.state receiver.request.sequenceGroupsMetadata
      = .ok (outputs, processors))
    : executor.Executes run.state processors receiver.request.sequenceGroupsMetadata outputs := by
  have hdescribes := hinv.describes _ _ (hsimulates.pending_of_getElem? hreceiver)
  rcases hsimulates.paired.of_getElem? hreceiver with ⟨-, rfl, -⟩
  refine ModelExecutor.executes_of_execute hexecute ?_
    (Scheduler.nodup_keys_of_describes hinv.ok.sound hdescribes hsimulates.nodup)
  intro metadata hmetadata
  rcases Execution.exists_describes_of_mem hdescribes hmetadata
    with ⟨scheduled, -, seq, -, blockTable, hdesc⟩
  exact ⟨_, _, hdesc.sequenceData_eq⟩

/--
The batch lists a sequence with the parameters of the group that it arrived in.
-/
theorem nextTokenChooserParams_of_mem_batch (hholds : run.trace.Holds)
    {scheduled : ScheduledSequenceGroup} {metadata : SequenceGroupMetadata}
    (hentry : (scheduled, metadata) ∈ run.trace.engine.schedulerOutputs.scheduledSequenceGroups.zip
      run.trace.engine.sequenceGroupsMetadata)
    {group : SequenceGroup} (hgroup : group ∈ run.trace.arrived) {seq : SequenceRef}
    (hseq : seq ∈ group.sequences) (hown : seq ∈ scheduled.scheduledGroup.sequences)
    : metadata.nextTokenChooserParams = group.nextTokenChooserParams := by
  have hrefs : (run.trace.arrived.flatMap (·.sequences)).Nodup := by
    rw [← hsimulates.arrived_eq]
    exact hinv.ok.sound.nodup.of_map
  rcases (List.forall₂_iff_zip.mp hholds.batch).2 hentry with ⟨harrived, hparams⟩
  rw [hparams, List.eq_of_nodup_flatMap hrefs hgroup harrived hseq hown]

end Batch

/--
The sequences of a batch generate their next tokens, and the other ones nothing.
-/
theorem Generates.processes {created : SequenceRef → Nat} {index : Nat} {receiver : Receiver}
    {outputs : List SequenceGroupOutput} {processors : Nat → σ} {called : Trace}
    (hgenerates : run.Generates executor agree) (hholds : run.trace.Holds)
    (hsimulates : run.trace.Simulates session) (hinv : session.Inv)
    (hdraws : executor.Agrees agree)
    (hpolicy : run.trace.engine.scheduler.schedulerConfig.enableChunkedPrefill = false)
    (hreceiver : run.trace.engine.responses[index]? = some receiver)
    (hexecute : executor.execute run.state receiver.request.sequenceGroupsMetadata
      = .ok (outputs, processors))
    (h : run.trace.Processes instants (.response instants created index (some outputs)) called)
    : Generates executor agree ⟨called, processors⟩ := by
  have hexecutes := executes_of_response hsimulates hinv hreceiver hexecute
  have hsound : session.scheduler.memory.Sound session.refs := hinv.ok.sound
  have hdescribes := hinv.describes _ _ (hsimulates.pending_of_getElem? hreceiver)
  rw [hsimulates.scheduler_eq] at hdescribes hsound
  rw [hpolicy] at hdescribes
  have hmetadata : receiver.request.sequenceGroupsMetadata
      = run.trace.engine.sequenceGroupsMetadata := by
    rw [(hsimulates.paired.of_getElem? hreceiver).2.1]
    rfl
  rw [hmetadata] at hexecutes
  cases h with
  | intro created index receiver' next requestOutputs engine hreceiver' hprocess =>
    cases hreceiver.symm.trans hreceiver'
    rw [hmetadata] at hprocess
    have hbatch : (((run.trace.engine.takeResponse index).batch (ModelExecutor.sample next
        run.trace.engine.sequenceGroupsMetadata)).flatMap
          (·.2.2.scheduledGroup.sequences)).Nodup :=
      LlmEngine.nodup_batch _ hsimulates.nodup
    rcases LlmEngine.entryApplies_of_processGeneratedOutputs hbatch hprocess
      with ⟨happlies, hframe⟩
    intro group hgroup hagree seq hseq
    have hold := hgenerates group hgroup hagree seq hseq
    by_cases hin : ∃ entry ∈ run.trace.engine.schedulerOutputs.scheduledSequenceGroups.zip
        run.trace.engine.sequenceGroupsMetadata, seq ∈ entry.1.scheduledGroup.sequences
    . rcases hin with ⟨⟨scheduled, metadata⟩, hentry, hown⟩
      rcases (List.forall₂_iff_zip.mp hdescribes).2 hentry with ⟨seq', -, blockTable, hdesc⟩
      have hsame := hown
      rw [hdesc.sequences_eq, List.mem_singleton] at hsame
      subst hsame
      have hparams := nextTokenChooserParams_of_mem_batch hsimulates hinv hholds hentry hgroup hseq
        hown
      rcases List.mem_iff_getElem?.mp hentry with ⟨i, hi⟩
      rcases List.getElem?_zip_eq_some.mp hi with ⟨hscheduled, hlisted⟩
      rcases hexecutes.samples i metadata _ _ hlisted hdesc.sequenceData_eq
        with ⟨next', output, hrow, houtput, hlookup⟩
      have hbatched : (output, metadata, scheduled)
          ∈ (run.trace.engine.takeResponse index).batch (ModelExecutor.sample next
              run.trace.engine.sequenceGroupsMetadata) := by
        rw [hmetadata] at houtput
        exact List.mem_of_getElem? (List.getElem?_zip_eq_some.mpr
          ⟨houtput, List.getElem?_zip_eq_some.mpr ⟨hlisted, hscheduled⟩⟩)
      rcases happlies _ hbatched seq hown with ⟨output', houtput', numComputedTokens, stage, hupdated⟩
      cases hlookup.symm.trans houtput'
      exact hold.updated hdraws hdesc hparams hrow hupdated
    . have hmem : seq ∈ session.refs := by
        dsimp only at hgroup
        rw [← hsimulates.arrived_eq] at hgroup
        exact List.mem_flatMap.mpr ⟨group, hgroup, hseq⟩
      have hnot := Execution.not_listed_of_describes hsound hdescribes hmem hin
      have hout := hframe seq (by
        intro hlists
        rcases List.mem_flatMap.mp hlists with ⟨entry, hentry, hown⟩
        exact hin ⟨_, Trace.mem_zip_of_entry hentry, hown⟩)
      dsimp only
      rw [hout, hexecutes.frame]
      . exact hold
      . intro hlists
        rcases List.mem_flatMap.mp hlists with ⟨metadata, hmetadata, hlists⟩
        exact hnot metadata hmetadata (AList.mem_keys.mpr hlists)

theorem GeneratedBy.of_keepsTokens {group : SequenceGroup} {processor : σ}
    {sequence sequence' : Sequence}
    (h : GeneratedBy executor agree group processor sequence.sequenceData)
    (hkeeps : sequence.KeepsTokens sequence')
    : GeneratedBy executor agree group processor sequence'.sequenceData := by
  unfold GeneratedBy
  rw [hkeeps.promptTokenIds_eq, hkeeps.outputTokenIds_eq]
  exact h

theorem Generates.step {stepped engine : LlmEngine} {sampled : SequenceRef → Bool}
    {responseSenders : AList fun _ : String => Channel} {sent : List (Channel × Message)}
    (h : run.Generates executor agree) (hbetween : run.trace.Between session)
    (hinv : session.Inv) (hstep : run.trace.engine.step instants = .ok stepped)
    (hengine : engine = { stepped with responseSenders, sent })
    : Generates executor agree { run with trace.engine := engine, trace.sampled := sampled } := by
  rcases LlmEngine.step_eq_ok hstep
    with ⟨metadata, outputs, scheduler, hschedule, -, -, -, hstepped⟩
  have hreschedules := hinv.reschedules (hbetween.scheduler_eq ▸ hschedule)
  rw [hbetween.scheduler_eq] at hreschedules
  have hscheduler : engine.scheduler = scheduler := by
    rw [hengine, hstepped]
  intro group hgroup hagree seq hseq
  dsimp only
  rw [hscheduler]
  exact (h group hgroup hagree seq hseq).of_keepsTokens (hreschedules.keepsTokens seq)

section Run

variable {config config' : SchedulerConfig} {blockSize blockSize' numCpuBlocks numCpuBlocks' : Nat}
variable {numGpuBlocks numGpuBlocks' : Nat} {slidingWindow slidingWindow' : Option Nat}
variable {heap heap' : SequenceHeap} {now now' : Nat}
variable {tokenizer tokenizer' : List Nat → Except String String} {accepts' : Session.Accepts}

theorem preserves_generates (hpolicy : config.enableChunkedPrefill = false)
    (hdraws : executor.Agrees agree)
    : ThreadTrace.Preserves accepts executor.thread
        (LlmEngine.new
          (Scheduler.new config blockSize numCpuBlocks numGpuBlocks slidingWindow heap now) tokenizer)
        (Generates executor agree) (Generates executor agree) := by
  have hstart := Session.inv_start config blockSize numCpuBlocks numGpuBlocks slidingWindow heap now
  constructor
  . intro run session instants sequences request received _ _ _ hreceives hgenerates
    exact hgenerates.receives hreceives
  . exact fun _ hgenerates => hgenerates
  . intro run session instants created index receiver outputs state called hreach hsimulates hinv
      hreceiver hanswers hprocesses hgenerates
    refine hgenerates.processes (Trace.holds_of_reachable hstart rfl hreach) hsimulates hinv hdraws
      ?_ hreceiver hanswers hprocesses
    rcases Trace.simulates_of_reachable hstart hreach with ⟨session', hsteps, hsimulates'⟩
    rw [← hsimulates'.scheduler_eq, (hsteps.sameConfig hstart).1]
    exact hpolicy
  . intro run session instants stepped next sampled responseSenders sent _ hbetween hinv hstep
      hengine hgenerates
    exact hgenerates.step hbetween hinv hstep hengine
  . exact fun _ hgenerates => hgenerates

theorem generates_of_visits (hpolicy : config.enableChunkedPrefill = false)
    (hdraws : executor.Agrees agree)
    (h : Visits accepts executor
      (LlmEngine.new
        (Scheduler.new config blockSize numCpuBlocks numGpuBlocks slidingWindow heap now) tokenizer)
      run)
    : run.Generates executor agree := by
  have hstart := Session.inv_start config blockSize numCpuBlocks numGpuBlocks slidingWindow heap now
  have hinitial : Generates executor agree (ThreadTrace.start (LlmEngine.new
      (Scheduler.new config blockSize numCpuBlocks numGpuBlocks slidingWindow heap now) tokenizer)
        executor.initialProcessors) := fun _ hgroup => (nomatch hgroup)
  cases h with
  | between h =>
    exact (preserves_generates hpolicy hdraws).between_of_reachable hstart hinitial h
  | calls h hcalls =>
    exact (preserves_generates hpolicy hdraws).called_of_reachable hstart hinitial h hcalls

/--
Two lists of generated tokens, one of which goes on where the other ends.
-/
def Comparable (data data' : SequenceData) : Prop :=
  data.outputTokenIds <+: data'.outputTokenIds ∨ data'.outputTokenIds <+: data.outputTokenIds

theorem comparable_of_generate {params : NextTokenChooserParameters} {promptTokenIds : List Nat}
    {processor final final' : σ} {data data' : SequenceData}
    (h : executor.generate params promptTokenIds processor data.outputTokenIds.length
      = .ok (data.outputTokenIds, final))
    (h' : executor.generate params promptTokenIds processor data'.outputTokenIds.length
      = .ok (data'.outputTokenIds, final'))
    : Comparable data data' := by
  rcases Nat.le_total data.outputTokenIds.length data'.outputTokenIds.length with hle | hle
  . exact .inl (ModelExecutor.isPrefix_generate h h' hle)
  . exact .inr (ModelExecutor.isPrefix_generate h' h hle)

/--
Two requests with the same prompt and the same parameters.
-/
structure SameRequest (group group' : SequenceGroup) (data data' : SequenceData) : Prop where
  nextTokenChooserParams_eq : group.nextTokenChooserParams = group'.nextTokenChooserParams
  logitsProcessor_eq : group.logitsProcessor = group'.logitsProcessor
  promptTokenIds_eq : data.promptTokenIds = data'.promptTokenIds

theorem Generates.comparable (h : run.Generates executor (· = ·))
    (h' : run'.Generates executor (· = ·)) {group group' : SequenceGroup} {seq seq' : SequenceRef}
    (hgroup : group ∈ run.trace.arrived) (hgroup' : group' ∈ run'.trace.arrived)
    (hseq : seq ∈ group.sequences) (hseq' : seq' ∈ group'.sequences)
    (hsame : SameRequest group group'
      (run.trace.engine.scheduler.memory.sequences seq).sequenceData
      (run'.trace.engine.scheduler.memory.sequences seq').sequenceData)
    : Comparable (run.trace.engine.scheduler.memory.sequences seq).sequenceData
        (run'.trace.engine.scheduler.memory.sequences seq').sequenceData := by
  rcases h group hgroup rfl seq hseq with ⟨final, hgenerate, -⟩
  rcases h' group' hgroup' rfl seq' hseq' with ⟨final', hgenerate', -⟩
  rw [← hsame.nextTokenChooserParams_eq, ← hsame.logitsProcessor_eq,
    ← hsame.promptTokenIds_eq] at hgenerate'
  exact comparable_of_generate hgenerate hgenerate'

/--
Without chunked prefill what is generated for a request does not depend on the other requests, on the
limits, the blocks and the batches: in any two runs it is the beginning of one list of tokens.
-/
theorem comparable_of_reachable (hpolicy : config.enableChunkedPrefill = false)
    (hpolicy' : config'.enableChunkedPrefill = false)
    (h : Reachable accepts executor
      (LlmEngine.new
        (Scheduler.new config blockSize numCpuBlocks numGpuBlocks slidingWindow heap now) tokenizer)
      run)
    (h' : Reachable accepts' executor
      (LlmEngine.new
        (Scheduler.new config' blockSize' numCpuBlocks' numGpuBlocks' slidingWindow' heap' now')
        tokenizer')
      run')
    {group group' : SequenceGroup} {seq seq' : SequenceRef} (hgroup : group ∈ run.trace.arrived)
    (hgroup' : group' ∈ run'.trace.arrived) (hseq : seq ∈ group.sequences)
    (hseq' : seq' ∈ group'.sequences)
    (hsame : SameRequest group group'
      (run.trace.engine.scheduler.memory.sequences seq).sequenceData
      (run'.trace.engine.scheduler.memory.sequences seq').sequenceData)
    : Comparable (run.trace.engine.scheduler.memory.sequences seq).sequenceData
        (run'.trace.engine.scheduler.memory.sequences seq').sequenceData := by
  exact (generates_of_visits hpolicy executor.agrees_eq (.between h)).comparable
    (generates_of_visits hpolicy' executor.agrees_eq (.between h')) hgroup hgroup' hseq hseq' hsame

/--
This holds at any point of the one run and at any point of the other.
-/
theorem comparable_of_visits (hpolicy : config.enableChunkedPrefill = false)
    (hpolicy' : config'.enableChunkedPrefill = false)
    (h : Visits accepts executor
      (LlmEngine.new
        (Scheduler.new config blockSize numCpuBlocks numGpuBlocks slidingWindow heap now) tokenizer)
      run)
    (h' : Visits accepts' executor
      (LlmEngine.new
        (Scheduler.new config' blockSize' numCpuBlocks' numGpuBlocks' slidingWindow' heap' now')
        tokenizer')
      run')
    {group group' : SequenceGroup} {seq seq' : SequenceRef} (hgroup : group ∈ run.trace.arrived)
    (hgroup' : group' ∈ run'.trace.arrived) (hseq : seq ∈ group.sequences)
    (hseq' : seq' ∈ group'.sequences)
    (hsame : SameRequest group group'
      (run.trace.engine.scheduler.memory.sequences seq).sequenceData
      (run'.trace.engine.scheduler.memory.sequences seq').sequenceData)
    : Comparable (run.trace.engine.scheduler.memory.sequences seq).sequenceData
        (run'.trace.engine.scheduler.memory.sequences seq').sequenceData := by
  exact (generates_of_visits hpolicy executor.agrees_eq h).comparable
    (generates_of_visits hpolicy' executor.agrees_eq h') hgroup hgroup' hseq hseq' hsame

/--
Two requests with the same prompt, the same penalty and the same repeat window that take the most
likely token.
-/
structure SameArgMax (group group' : SequenceGroup) (data data' : SequenceData) : Prop where
  sampling_eq : group.logitsProcessor.sampling = .argMax
  sampling_eq' : group'.logitsProcessor.sampling = .argMax
  repetitionPenalty_eq : group.nextTokenChooserParams.repetitionPenalty
    = group'.nextTokenChooserParams.repetitionPenalty
  repeatLastN_eq :
    group.nextTokenChooserParams.repeatLastN = group'.nextTokenChooserParams.repeatLastN
  promptTokenIds_eq : data.promptTokenIds = data'.promptTokenIds

/--
For requests that take the most likely token this holds whatever their seeds and their other
parameters are.
-/
theorem comparable_of_takesArgMax {greedy : σ → Prop} (hargMax : executor.TakesArgMax greedy)
    (hpolicy : config.enableChunkedPrefill = false)
    (hpolicy' : config'.enableChunkedPrefill = false)
    (h : Reachable accepts executor
      (LlmEngine.new
        (Scheduler.new config blockSize numCpuBlocks numGpuBlocks slidingWindow heap now) tokenizer)
      run)
    (h' : Reachable accepts' executor
      (LlmEngine.new
        (Scheduler.new config' blockSize' numCpuBlocks' numGpuBlocks' slidingWindow' heap' now')
        tokenizer')
      run')
    {group group' : SequenceGroup} {seq seq' : SequenceRef} (hgroup : group ∈ run.trace.arrived)
    (hgroup' : group' ∈ run'.trace.arrived) (hseq : seq ∈ group.sequences)
    (hseq' : seq' ∈ group'.sequences)
    (hsame : SameArgMax group group'
      (run.trace.engine.scheduler.memory.sequences seq).sequenceData
      (run'.trace.engine.scheduler.memory.sequences seq').sequenceData)
    : Comparable (run.trace.engine.scheduler.memory.sequences seq).sequenceData
        (run'.trace.engine.scheduler.memory.sequences seq').sequenceData := by
  have hgreedy : ∀ group : SequenceGroup, group.logitsProcessor.sampling = .argMax →
      greedy (executor.fromSampling group.logitsProcessor) := by
    intro group hsampling
    have hprocessor : group.logitsProcessor = ⟨group.logitsProcessor.seed, .argMax⟩ := by
      rw [← hsampling]
    rw [hprocessor]
    exact hargMax.fromSampling _
  have hstart := hgreedy group hsame.sampling_eq
  have hstart' := hgreedy group' hsame.sampling_eq'
  rcases generates_of_visits hpolicy hargMax.agrees (.between h) group hgroup ⟨hstart, hstart⟩ seq hseq
    with ⟨final, hgenerate, -⟩
  rcases generates_of_visits hpolicy' hargMax.agrees (.between h') group' hgroup' ⟨hstart', hstart'⟩ seq'
    hseq' with ⟨final', hgenerate', -⟩
  rcases hargMax.agrees.generate hsame.repetitionPenalty_eq.symm hsame.repeatLastN_eq.symm
    ⟨hstart', hstart⟩ hgenerate' with ⟨final, hgenerate', -⟩
  rw [← hsame.promptTokenIds_eq] at hgenerate'
  exact comparable_of_generate hgenerate hgenerate'

end Run

section Driven

variable (executor) (group : SequenceGroup) (promptTokenIds : List Nat)

def answer (request : ExecuteModelRequest) (processors : Nat → σ)
    : Option (List SequenceGroupOutput × (Nat → σ)) :=
  (executor.execute processors request.sequenceGroupsMetadata).toOption

/--
The prompt of the request and the tokens that are generated for it.
-/
def drivenTokens (engine : LlmEngine) (rounds : Nat) : Option (List Nat × List Nat) :=
  (ThreadTrace.driven executor.thread engine executor.initialProcessors (answer executor) group
      (waitingSequence promptTokenIds) rounds).map fun run =>
    let data := (run.trace.engine.scheduler.memory.sequences ⟨0, 0⟩).sequenceData
    (data.promptTokenIds, data.outputTokenIds)

variable {executor} {group} {promptTokenIds}

theorem isAnswer_answer : ThreadTrace.IsAnswer executor.thread (answer executor) := by
  intro request processors outputs processors' hexecute
  have hexecute := Except.toOption_eq_some hexecute
  rcases ModelExecutor.execute_eq_ok hexecute with ⟨nexts, -, houtputs⟩
  exact ⟨hexecute, _, houtputs⟩

theorem exists_reachable_of_drivenTokens {config : SchedulerConfig} {numGpuBlocks rounds : Nat}
    {tokens : List Nat × List Nat} (hgroup : group.sequences = [⟨0, 0⟩])
    (hnew : Sequence.new "" promptTokenIds 1 false = .ok (waitingSequence promptTokenIds))
    (h : drivenTokens executor group promptTokenIds (ThreadTrace.fresh config numGpuBlocks) rounds
      = some tokens)
    : ∃ run,
        Reachable (fun _ _ _ => True) executor (ThreadTrace.fresh config numGpuBlocks) run
          ∧ run.trace.arrived = [group]
          ∧ (run.trace.engine.scheduler.memory.sequences ⟨0, 0⟩).sequenceData.promptTokenIds = tokens.1
          ∧ (run.trace.engine.scheduler.memory.sequences ⟨0, 0⟩).sequenceData.outputTokenIds
              = tokens.2 := by
  rcases Option.map_eq_some_iff.mp h with ⟨run, hrun, rfl⟩
  rcases ThreadTrace.reachable_of_driven isAnswer_answer hgroup hnew hrun with ⟨hreach, harrived⟩
  exact ⟨run, hreach, harrived, rfl, rfl⟩

end Driven

/--
A processor that draws the numbers from its seed on.
-/
def counting : ModelExecutor Nat where
  forward _ := List.replicate 8 0
  eosTokenIds := none
  fromSampling processor := processor.seed
  applyRepeatPenalty row _ _ := .ok row
  draw processor _ := .ok (processor, processor + 1)

/--
Two engines with different limits and blocks; in one of them a token more is generated.
-/
theorem comparable_of_reachable_counting
    : ∃ run run' : SampledTrace Nat,
        (run.trace.engine.scheduler.memory.sequences ⟨0, 0⟩).sequenceData.outputTokenIds = [0, 1]
          ∧ (run'.trace.engine.scheduler.memory.sequences ⟨0, 0⟩).sequenceData.outputTokenIds = [0]
          ∧ Comparable (run.trace.engine.scheduler.memory.sequences ⟨0, 0⟩).sequenceData
              (run'.trace.engine.scheduler.memory.sequences ⟨0, 0⟩).sequenceData := by
  rcases @exists_reachable_of_drivenTokens _ counting (singleGroup "a" 0 0) [5, 6]
    ⟨8, 2, 8, 0, false⟩ 8 2 ([5, 6], [0, 1]) rfl (by decide +kernel) (by decide +kernel)
    with ⟨run, hreach, harrived, hprompt, houtput⟩
  rcases @exists_reachable_of_drivenTokens _ counting (singleGroup "a" 0 0) [5, 6]
    ⟨4, 1, 8, 0, false⟩ 4 1 ([5, 6], [0]) rfl (by decide +kernel) (by decide +kernel)
    with ⟨run', hreach', harrived', hprompt', houtput'⟩
  have hgroup : singleGroup "a" 0 0 ∈ run.trace.arrived := by simp [harrived]
  have hgroup' : singleGroup "a" 0 0 ∈ run'.trace.arrived := by simp [harrived']
  have hseq : ⟨0, 0⟩ ∈ (singleGroup "a" 0 0).sequences := by simp [singleGroup]
  refine ⟨run, run', houtput, houtput', ?_⟩
  refine comparable_of_reachable rfl rfl hreach hreach' hgroup hgroup' hseq hseq ⟨rfl, rfl, ?_⟩
  rw [hprompt, hprompt']

/--
Two requests. There are six blocks for seven tokens, so the second one is preempted.
-/
def preemptedRun : Option (SampledTrace Nat) :=
  (((ThreadTrace.driven counting.thread (ThreadTrace.fresh ⟨8, 2, 8, 0, false⟩ 6)
      counting.initialProcessors (answer counting) (singleGroup "a" 0 0) (waitingSequence [5, 6])
      0).bind (ThreadTrace.join counting.thread "b" 1 [5, 6, 7])).bind
        (ThreadTrace.respond (answer counting))).bind (ThreadTrace.respond (answer counting))

theorem reachable_of_preemptedRun {run : SampledTrace Nat} (h : preemptedRun = some run)
    : Reachable (fun _ _ _ => True) counting (ThreadTrace.fresh ⟨8, 2, 8, 0, false⟩ 6) run
        ∧ run.trace.arrived = [singleGroup "a" 0 0, singleGroup "b" 1 0] := by
  rcases Option.bind_eq_some_iff.mp h with ⟨between, hbetween, hrespond'⟩
  rcases Option.bind_eq_some_iff.mp hbetween with ⟨joined, hjoined, hrespond⟩
  rcases Option.bind_eq_some_iff.mp hjoined with ⟨first, hfirst, hjoin⟩
  have hnew : Sequence.new "" [5, 6] 1 false = .ok (waitingSequence [5, 6]) := by decide +kernel
  rcases ThreadTrace.reachable_of_driven isAnswer_answer rfl hnew hfirst with ⟨hreach, harrived⟩
  rcases ThreadTrace.step_of_join hjoin with ⟨hjoins, hsecond⟩
  rcases ThreadTrace.step_of_respond isAnswer_answer hrespond with ⟨hresponds, hsame⟩
  rcases ThreadTrace.step_of_respond isAnswer_answer hrespond' with ⟨hresponds', hsame'⟩
  refine ⟨((hreach.tail hjoins).tail hresponds).tail hresponds', ?_⟩
  rw [hsame', hsame, hsecond, harrived]
  rfl

/--
One request alone, and one with the same prompt that comes second and is preempted.
-/
theorem comparable_of_visits_preempted
    : ∃ run run' : SampledTrace Nat,
        run'.trace.engine.scheduler.numCumulativePreemption = 1
          ∧ (run.trace.engine.scheduler.memory.sequences ⟨0, 0⟩).sequenceData.outputTokenIds = [0, 1]
          ∧ (run'.trace.engine.scheduler.memory.sequences ⟨1, 1⟩).sequenceData.outputTokenIds = [0]
          ∧ Comparable (run.trace.engine.scheduler.memory.sequences ⟨0, 0⟩).sequenceData
              (run'.trace.engine.scheduler.memory.sequences ⟨1, 1⟩).sequenceData := by
  rcases @exists_reachable_of_drivenTokens _ counting (singleGroup "b" 0 0) [5, 6, 7]
    ⟨8, 2, 8, 0, false⟩ 8 2 ([5, 6, 7], [0, 1]) rfl (by decide +kernel) (by decide +kernel)
    with ⟨run, hreach, harrived, hprompt, houtput⟩
  have hsecond : preemptedRun.any (fun run' =>
      run'.trace.engine.scheduler.numCumulativePreemption = 1
        ∧ (run'.trace.engine.scheduler.memory.sequences ⟨1, 1⟩).sequenceData.promptTokenIds
            = [5, 6, 7]
        ∧ (run'.trace.engine.scheduler.memory.sequences ⟨1, 1⟩).sequenceData.outputTokenIds = [0])
      = true := by
    decide +kernel
  rcases (Option.any_eq_true _ _).mp hsecond with ⟨run', hrun', hstate⟩
  rcases of_decide_eq_true hstate with ⟨hpreempted, hprompt', houtput'⟩
  rcases reachable_of_preemptedRun hrun' with ⟨hreach', harrived'⟩
  have hgroup : singleGroup "b" 0 0 ∈ run.trace.arrived := by simp [harrived]
  have hgroup' : singleGroup "b" 1 0 ∈ run'.trace.arrived := by simp [harrived']
  have hseq : ∀ sequenceId, ⟨sequenceId, sequenceId⟩ ∈ (singleGroup "b" sequenceId 0).sequences :=
    fun _ => List.mem_singleton_self _
  refine ⟨run, run', hpreempted, houtput, houtput', ?_⟩
  refine comparable_of_visits rfl rfl (.between hreach) (.between hreach') hgroup hgroup' (hseq 0)
    (hseq 1) ⟨rfl, rfl, ?_⟩
  rw [hprompt, hprompt']

/--
Every processor draws the number of tokens that its row is for, and its state goes on from the seed.
-/
def lengths : ModelExecutor Nat where
  forward tokenIds := List.replicate (tokenIds.length + 1) 0
  eosTokenIds := none
  fromSampling processor := processor.seed
  applyRepeatPenalty row _ _ := .ok row
  draw processor row := .ok (row.length - 1, processor + 1)

def seededGroup (seed : Nat) : SequenceGroup :=
  { singleGroup "a" 0 0 with logitsProcessor := { seed, sampling := .argMax } }

/--
Two engines with different limits and blocks, and two seeds.
-/
theorem comparable_of_takesArgMax_lengths
    : ∃ run run' : SampledTrace Nat,
        (run.trace.engine.scheduler.memory.sequences ⟨0, 0⟩).sequenceData.outputTokenIds = [3, 4]
          ∧ (run'.trace.engine.scheduler.memory.sequences ⟨0, 0⟩).sequenceData.outputTokenIds = [3]
          ∧ Comparable (run.trace.engine.scheduler.memory.sequences ⟨0, 0⟩).sequenceData
              (run'.trace.engine.scheduler.memory.sequences ⟨0, 0⟩).sequenceData := by
  rcases @exists_reachable_of_drivenTokens _ lengths (seededGroup 1) [5, 6, 7]
    ⟨8, 2, 8, 0, false⟩ 8 2 ([5, 6, 7], [3, 4]) rfl (by decide +kernel) (by decide +kernel)
    with ⟨run, hreach, harrived, hprompt, houtput⟩
  rcases @exists_reachable_of_drivenTokens _ lengths (seededGroup 2) [5, 6, 7]
    ⟨4, 1, 8, 0, false⟩ 4 1 ([5, 6, 7], [3]) rfl (by decide +kernel) (by decide +kernel)
    with ⟨run', hreach', harrived', hprompt', houtput'⟩
  have hargMax : lengths.TakesArgMax fun _ => True :=
    ⟨fun _ => trivial, fun _ _ _ _ _ _ => trivial, by
      rintro processor processor' row token next - - hdraw
      cases hdraw
      exact ⟨_, rfl⟩⟩
  have hgroup : seededGroup 1 ∈ run.trace.arrived := by simp [harrived]
  have hgroup' : seededGroup 2 ∈ run'.trace.arrived := by simp [harrived']
  have hseq : ∀ seed, ⟨0, 0⟩ ∈ (seededGroup seed).sequences := fun _ => List.mem_singleton_self _
  refine ⟨run, run', houtput, houtput', ?_⟩
  refine comparable_of_takesArgMax hargMax rfl rfl hreach hreach' hgroup hgroup' (hseq 1) (hseq 2)
    ⟨rfl, rfl, rfl, rfl, ?_⟩
  rw [hprompt, hprompt']

end SampledTrace

end AtomaInfer
