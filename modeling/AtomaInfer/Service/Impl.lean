import AtomaInfer.Scheduler.Impl

/-!
The service that turns requests into sequence groups (`llm_service.rs`).
-/

namespace AtomaInfer

inductive LlmServiceError where
  | validationError (message : String)
  | sequenceError (error : SequenceError)
  deriving DecidableEq, Repr

/--
`encoding` holds the token ids of the encoding. The fields that nothing reads are left out.
-/
structure ValidGenerateRequest where
  inputs : String
  encoding : List Nat
  parameters : NextTokenChooserParameters
  stoppingParameters : StoppingCriteriaParameters
  returnFullText : Bool
  deriving DecidableEq

structure LlmService where
  blockSize : Nat
  requestCounter : Nat
  deriving DecidableEq

namespace LlmService

def start (blockSize : Nat) : LlmService where
  blockSize
  requestCounter := 0

def samplingOf (parameters : NextTokenChooserParameters) : Sampling :=
  if !parameters.doSample || parameters.temperature = 1 then
    .argMax
  else if parameters.topP = 1 && parameters.topK = 0 then
    .all parameters.temperature
  else if parameters.topK = 0 && parameters.topP < 1 then
    .topP parameters.topP parameters.temperature
  else if parameters.topK ≠ 0 && parameters.topP = 1 then
    .topK parameters.topK parameters.temperature
  else
    .topKThenTopP parameters.topK parameters.topP parameters.temperature

/--
`validated` is the result of `process_received_request`. The new sequence is returned with the
group that refers to it; `addr` is where it is allocated.
-/
def handleRequest (service : LlmService) (requestId : String) (arrivalTime addr : Nat)
    (validated : Except LlmServiceError ValidGenerateRequest)
    : Except LlmServiceError (SequenceGroup × Sequence × LlmService) := do
  let validRequest ← validated
  let sequenceId := service.requestCounter
  let logitsProcessor : LogitsProcessor := {
    seed := validRequest.parameters.randomSeed
    sampling := samplingOf validRequest.parameters
  }
  let sequence ←
    (Sequence.new validRequest.inputs validRequest.encoding service.blockSize
      validRequest.returnFullText).mapError .sequenceError
  let sequenceGroup ←
    (SequenceGroup.new requestId [⟨sequenceId, addr⟩] arrivalTime validRequest.parameters
      validRequest.stoppingParameters logitsProcessor).mapError .sequenceError
  return (sequenceGroup, sequence, service)

theorem handleRequest_eq_ok {service service' : LlmService} {requestId : String}
    {arrivalTime addr : Nat} {validated : Except LlmServiceError ValidGenerateRequest}
    {group : SequenceGroup} {sequence : Sequence}
    (h : service.handleRequest requestId arrivalTime addr validated
      = .ok (group, sequence, service'))
    : service' = service ∧ group.sequences = [⟨service.requestCounter, addr⟩] := by
  simp only [handleRequest, Except.bind_eq_ok] at h
  rcases h with ⟨validRequest, -, sequence', -, group', hgroup, hpure⟩
  cases hpure
  refine ⟨rfl, ?_⟩
  simp only [SequenceGroup.new, List.isEmpty_cons, Bool.false_eq_true, if_false] at hgroup
  cases hgroup
  rfl

end LlmService

end AtomaInfer
