import AtomaInfer.Server.Impl
import Mathlib.Logic.Relation

/-!
Runs of a stream: the engine sends messages and drops its sender while the server polls.
-/

namespace AtomaInfer

variable {Value Event Error : Type}
variable (format : EventFormat Value Event Error (ChatCompletionChunk Value))

/--
The messages that a client has to see: those up to the first that ends the stream.
-/
def StreamResponse.untilFinished (responses : List StreamResponse) : List StreamResponse :=
  match responses with
  | [] => []
  | .finished :: _ => [.finished]
  | response :: responses => response :: untilFinished responses

/--
The status of the streamer after it has received the message.
-/
def StreamResponse.status (response : StreamResponse) : StreamStatus :=
  match response with
  | .chunk _ => .started
  | .finished => .completed
  | .error message => .failed message

/--
What a poll yields for a message.
-/
def StreamResponse.item (model : String) (response : StreamResponse) : Option (Except Error Event) :=
  match response with
  | .chunk output =>
    some (((ChatCompletionChunk.tryFrom format model output).mapError format.newError).bind
      format.jsonData)
  | .finished => (format.data "[DONE]").map .ok
  | .error message => (format.data message).map .ok

/--
A streamer, the messages that have yet to be sent to it and the items that it has yielded.
-/
structure Connection (Event Error : Type) where
  streamer : Streamer
  unsent : List StreamResponse
  items : List (Except Error Event)

section Responses

variable {responses : List StreamResponse}

theorem StreamResponse.untilFinished_append (h : .finished ∉ responses)
    (responses' : List StreamResponse)
    : untilFinished (responses ++ responses') = responses ++ untilFinished responses' := by
  induction responses with
  | nil => rfl
  | cons response responses ih =>
    rw [List.mem_cons, not_or] at h
    cases response with
    | chunk output => exact congrArg (_ :: ·) (ih h.2)
    | error message => exact congrArg (_ :: ·) (ih h.2)
    | finished => exact absurd rfl h.1

theorem StreamResponse.exists_of_finished_mem (h : .finished ∈ responses)
    : ∃ before after,
        responses = before ++ .finished :: after
          ∧ .finished ∉ before
          ∧ untilFinished responses = before ++ [.finished] := by
  rcases List.eq_append_cons_of_mem h with ⟨before, after, rfl, hbefore⟩
  exact ⟨before, after, rfl, hbefore, untilFinished_append hbefore _⟩

theorem StreamResponse.status_eq_completed_iff (response : StreamResponse)
    : response.status = .completed ↔ response = .finished := by
  cases response <;> simp [status]

end Responses

namespace Streamer

variable {format} {streamer : Streamer}

theorem pollNext_of_completed (h : streamer.status = .completed)
    : streamer.pollNext format = (some (.ready none), streamer) :=
  if_pos h

theorem pollNext_of_queue {response : StreamResponse} {queue : List StreamResponse}
    (hstatus : streamer.status ≠ .completed) (hqueue : streamer.receiver.queue = response :: queue)
    : streamer.pollNext format
        = (
            (response.item format streamer.model).map fun item => .ready (some item),
            { streamer with receiver.queue := queue, status := response.status }) := by
  unfold pollNext StreamReceiver.tryRecv
  rw [if_neg hstatus, hqueue]
  cases response with
  | chunk output =>
    dsimp only [StreamResponse.item, StreamResponse.status]
    by_cases hstarted : streamer.status = .started
    . simp only [hstarted, ne_eq, not_true_eq_false, if_false]
      cases ChatCompletionChunk.tryFrom format streamer.model output <;> simp [Except.mapError, Except.bind]
    . simp only [ne_eq, hstarted, not_false_eq_true, if_true]
      cases ChatCompletionChunk.tryFrom format streamer.model output <;> simp [Except.mapError, Except.bind]
  | finished => simp [StreamResponse.item, StreamResponse.status, Function.comp_def]
  | error message => simp [StreamResponse.item, StreamResponse.status, Function.comp_def]

theorem pollNext_of_empty (hstatus : streamer.status ≠ .completed)
    (hqueue : streamer.receiver.queue = [])
    : streamer.pollNext format
        = if streamer.status = .started ∧ streamer.receiver.disconnected = true then
            (
              some (.ready none),
              { streamer with status := .interrupted "Stream disconnected" })
          else
            (some .pending, streamer) := by
  unfold pollNext StreamReceiver.tryRecv
  rw [if_neg hstatus, hqueue]
  cases hdisconnected : streamer.receiver.disconnected <;> simp

end Streamer

namespace Connection

def start (model : String) (messages : List StreamResponse) : Connection Event Error where
  streamer := Streamer.new ⟨[], false⟩ model
  unsent := messages
  items := []

inductive Step (connection : Connection Event Error) : Connection Event Error → Prop where
  | send {response : StreamResponse} {unsent : List StreamResponse}
      (h : connection.unsent = response :: unsent)
    : Step connection {
        connection with
        streamer.receiver.queue := connection.streamer.receiver.queue ++ [response]
        unsent }
  | drop (h : connection.unsent = [])
    : Step connection { connection with streamer.receiver.disconnected := true }
  | pending {streamer : Streamer}
      (h : connection.streamer.pollNext format = (some .pending, streamer))
    : Step connection { connection with streamer }
  | ready {item : Option (Except Error Event)} {streamer : Streamer}
      (h : connection.streamer.pollNext format = (some (.ready item), streamer))
    : Step connection { connection with streamer, items := connection.items ++ item.toList }

def Reachable (model : String) (messages : List StreamResponse)
    (connection : Connection Event Error) : Prop :=
  Relation.ReflTransGen (Step format) (start model messages) connection

/--
The items so far are those of the first messages, and the next poll yields the item of the next
message, or ends the stream when there is none.
-/
structure Ends (messages : List StreamResponse) (connection : Connection Event Error) : Prop where
  inOrder : connection.items.map some
    = ((StreamResponse.untilFinished messages).take connection.items.length).map
        (StreamResponse.item format connection.streamer.model)
  next : ∃ item, (connection.streamer.pollNext format).1 = some (.ready item)
    ∧ item.map some = (StreamResponse.untilFinished messages)[connection.items.length]?.map
        (StreamResponse.item format connection.streamer.model)

variable {format} {model : String} {messages consumed : List StreamResponse}
variable {connection connection' : Connection Event Error}

variable (format) in
/--
The streamer has received `consumed`. Only the last of these messages may end the stream.
-/
structure Consumed (messages consumed : List StreamResponse) (connection : Connection Event Error)
    : Prop where
  split : messages = consumed ++ connection.streamer.receiver.queue ++ connection.unsent
  items : connection.items.map some
    = consumed.map (StreamResponse.item format connection.streamer.model)
  unsent : connection.streamer.receiver.disconnected = true → connection.unsent = []
  completed : connection.streamer.status = .completed →
    ∃ before, consumed = before ++ [.finished] ∧ .finished ∉ before
  notCompleted : connection.streamer.status ≠ .completed → .finished ∉ consumed

theorem consumed_start : Consumed format messages [] (start model messages) where
  split := rfl
  items := rfl
  unsent h := nomatch h
  completed h := nomatch h
  notCompleted _ := List.not_mem_nil

/--
Without a message to receive, a poll leaves the connection as it is but for the status.
-/
theorem Consumed.of_streamer (h : Consumed format messages consumed connection)
    (streamer : Streamer) (hreceiver : streamer.receiver = connection.streamer.receiver)
    (hmodel : streamer.model = connection.streamer.model)
    (hstatus : streamer.status = .completed ↔ connection.streamer.status = .completed)
    : Consumed format messages consumed { connection with streamer } where
  split := by
    dsimp only
    rw [hreceiver]
    exact h.split
  items := by
    dsimp only
    rw [hmodel]
    exact h.items
  unsent hdisconnected := h.unsent (by rw [← hreceiver]; exact hdisconnected)
  completed hcompleted := h.completed (hstatus.mp hcompleted)
  notCompleted hnot := h.notCompleted fun hcompleted => hnot (hstatus.mpr hcompleted)

/--
A poll of a stream that has not ended receives the next message.
-/
theorem Consumed.receive (h : Consumed format messages consumed connection)
    {response : StreamResponse} {queue : List StreamResponse} {item : Except Error Event}
    (hstatus : connection.streamer.status ≠ .completed)
    (hqueue : connection.streamer.receiver.queue = response :: queue)
    (hitem : response.item format connection.streamer.model = some item)
    : Consumed format messages (consumed ++ [response]) {
        connection with
        streamer := {
          connection.streamer with
          receiver.queue := queue
          status := response.status
        }
        items := connection.items ++ [item] } where
  split := by
    rw [h.split, hqueue]
    simp
  items := by
    simp [h.items, hitem]
  unsent := h.unsent
  completed hcompleted := by
    rw [(StreamResponse.status_eq_completed_iff response).mp hcompleted]
    exact ⟨consumed, rfl, h.notCompleted hstatus⟩
  notCompleted hnot := by
    have hresponse : response ≠ .finished := fun heq =>
      hnot ((StreamResponse.status_eq_completed_iff response).mpr heq)
    simp [h.notCompleted hstatus, hresponse.symm]

theorem Consumed.step (h : Consumed format messages consumed connection)
    (hstep : Step format connection connection')
    : connection'.streamer.model = connection.streamer.model
        ∧ ∃ consumed', Consumed format messages consumed' connection' := by
  -- what a poll does, by the status and the first message of the queue
  have hpoll : ∀ {result streamer},
      connection.streamer.pollNext format = (some result, streamer) →
        streamer.model = connection.streamer.model
          ∧ (result = .pending →
              ∃ consumed', Consumed format messages consumed' { connection with streamer })
          ∧ ∀ item, result = .ready item →
              ∃ consumed', Consumed format messages consumed' {
                connection with streamer, items := connection.items ++ item.toList } := by
    intro result streamer hresult
    by_cases hstatus : connection.streamer.status = .completed
    . rw [Streamer.pollNext_of_completed hstatus] at hresult
      cases hresult
      refine ⟨rfl, nofun, ?_⟩
      rintro item ⟨⟩
      refine ⟨consumed, ?_⟩
      simpa using h
    . cases hqueue : connection.streamer.receiver.queue with
      | nil =>
        rw [Streamer.pollNext_of_empty hstatus hqueue] at hresult
        split at hresult
        . cases hresult
          refine ⟨rfl, nofun, ?_⟩
          rintro item ⟨⟩
          refine ⟨consumed, ?_⟩
          simpa using h.of_streamer
            { connection.streamer with status := .interrupted "Stream disconnected" } rfl rfl
            (by simp [hstatus])
        . cases hresult
          exact ⟨rfl, fun _ => ⟨consumed, h⟩, nofun⟩
      | cons response queue =>
        rw [Streamer.pollNext_of_queue hstatus hqueue] at hresult
        cases hitem : response.item format connection.streamer.model with
        | none =>
          rw [hitem] at hresult
          cases hresult
        | some item =>
          rw [hitem] at hresult
          cases hresult
          refine ⟨rfl, nofun, ?_⟩
          rintro item ⟨⟩
          exact ⟨consumed ++ [response], h.receive hstatus hqueue hitem⟩
  cases hstep with
  | send hunsent =>
    refine ⟨rfl, consumed, ⟨?_, h.items, ?_, h.completed, h.notCompleted⟩⟩
    . rw [h.split, hunsent]
      simp
    . intro hdisconnected
      rw [h.unsent hdisconnected] at hunsent
      cases hunsent
  | drop hunsent =>
    exact ⟨rfl, consumed, ⟨h.split, h.items, fun _ => hunsent, h.completed, h.notCompleted⟩⟩
  | pending hresult =>
    rcases hpoll hresult with ⟨hmodel, hpending, -⟩
    exact ⟨hmodel, hpending rfl⟩
  | ready hresult =>
    rcases hpoll hresult with ⟨hmodel, -, hready⟩
    exact ⟨hmodel, hready _ rfl⟩

theorem consumed_of_reachable (h : Reachable format model messages connection)
    : connection.streamer.model = model
        ∧ ∃ consumed, Consumed format messages consumed connection := by
  induction h with
  | refl => exact ⟨rfl, [], consumed_start⟩
  | tail hreachable hstep ih =>
    rcases ih with ⟨hmodel, consumed, hconsumed⟩
    rcases hconsumed.step hstep with ⟨hmodel', hconsumed'⟩
    exact ⟨hmodel'.trans hmodel, hconsumed'⟩

theorem Consumed.length_items (h : Consumed format messages consumed connection)
    : connection.items.length = consumed.length := by
  have hlength := congrArg List.length h.items
  simpa using hlength

/--
All senders are gone, so what is left is in the queue.
-/
theorem Consumed.ends (h : Consumed format messages consumed connection)
    (hdisconnected : connection.streamer.receiver.disconnected = true)
    (hfinished : .finished ∈ messages)
    (hdata : ∀ response ∈ StreamResponse.untilFinished messages,
      (response.item format connection.streamer.model).isSome = true)
    : Ends format messages connection := by
  have hsplit := h.split
  rw [h.unsent hdisconnected, List.append_nil] at hsplit
  by_cases hstatus : connection.streamer.status = .completed
  . rcases h.completed hstatus with ⟨before, hconsumed, hbefore⟩
    have huntil : StreamResponse.untilFinished messages = consumed := by
      rw [hsplit, hconsumed, List.append_assoc, StreamResponse.untilFinished_append hbefore]
      rfl
    constructor
    . rw [huntil, h.length_items, List.take_length]
      exact h.items
    . refine ⟨none, by rw [Streamer.pollNext_of_completed hstatus], ?_⟩
      rw [huntil, h.length_items]
      simp
  . have hbefore := h.notCompleted hstatus
    have huntil : StreamResponse.untilFinished messages
        = consumed ++ StreamResponse.untilFinished connection.streamer.receiver.queue := by
      rw [hsplit, StreamResponse.untilFinished_append hbefore]
    have hqueued : .finished ∈ connection.streamer.receiver.queue := by
      rw [hsplit, List.mem_append] at hfinished
      exact hfinished.resolve_left hbefore
    constructor
    . rw [huntil, h.length_items, List.take_left']
      . exact h.items
      . rfl
    . cases hqueue : connection.streamer.receiver.queue with
      | nil =>
        rw [hqueue] at hqueued
        cases hqueued
      | cons response queue =>
        have hnext : (StreamResponse.untilFinished messages)[consumed.length]? = some response := by
          rw [huntil, hqueue, List.getElem?_append_right (Nat.le_refl _), Nat.sub_self]
          cases response <;> rfl
        rcases Option.isSome_iff_exists.mp (hdata response (List.mem_of_getElem? hnext))
          with ⟨item, hitem⟩
        refine ⟨some item, ?_, ?_⟩
        . rw [Streamer.pollNext_of_queue hstatus hqueue, hitem]
          rfl
        . rw [h.length_items, hnext, Option.map_some, Option.map_some, hitem]

/--
All messages can be sent and the senders dropped before the first poll.
-/
theorem exists_reachable_sent (model : String) (messages : List StreamResponse)
    : Reachable format model messages {
        streamer := Streamer.new ⟨messages, true⟩ model
        unsent := []
        items := [] } := by
  have hsend : ∀ unsent queue,
      Relation.ReflTransGen (Step format)
        { streamer := Streamer.new ⟨queue, false⟩ model, unsent, items := [] }
        { streamer := Streamer.new ⟨queue ++ unsent, false⟩ model, unsent := [], items := [] } := by
    intro unsent
    induction unsent with
    | nil =>
      intro queue
      rw [List.append_nil]
    | cons response unsent ih =>
      intro queue
      refine .head (.send rfl) ?_
      have hrest := ih (queue ++ [response])
      rw [List.append_assoc] at hrest
      exact hrest
  exact (hsend messages []).tail (.drop rfl)

/--
While the messages do not end the stream, polls that yield their items receive them all.
-/
theorem exists_reachable_received (consumed queue : List StreamResponse)
    (hends : ∀ connection, Reachable format model (consumed ++ queue) connection →
      connection.streamer.receiver.disconnected = true →
        Ends format (consumed ++ queue) connection)
    (hfinished : .finished ∉ consumed)
    : ∃ status items,
        status ≠ .completed
          ∧ Reachable format model (consumed ++ queue) {
              streamer := ⟨⟨queue, true⟩, status, model⟩
              unsent := []
              items } := by
  induction consumed using List.reverseRecOn generalizing queue with
  | nil => exact ⟨.notStarted, [], nofun, exists_reachable_sent model queue⟩
  | append_singleton consumed response ih =>
    rw [List.append_assoc, List.singleton_append] at hends ⊢
    rw [List.mem_append, List.mem_singleton, not_or] at hfinished
    rcases ih (response :: queue) hends hfinished.1 with ⟨status, items, hstatus, hreachable⟩
    rcases (hends _ hreachable rfl).next with ⟨item, hpoll, -⟩
    rw [Streamer.pollNext_of_queue hstatus rfl] at hpoll
    cases hitem : response.item format model with
    | none =>
      rw [hitem] at hpoll
      cases hpoll
    | some item' =>
      have hready : Streamer.pollNext format ⟨⟨response :: queue, true⟩, status, model⟩
          = (some (.ready (some item')), ⟨⟨queue, true⟩, response.status, model⟩) := by
        rw [Streamer.pollNext_of_queue hstatus rfl]
        dsimp only
        rw [hitem]
        rfl
      have hstep : Step format
          ({ streamer := ⟨⟨response :: queue, true⟩, status, model⟩, unsent := [], items } :
            Connection Event Error)
          {
            streamer := ⟨⟨queue, true⟩, response.status, model⟩
            unsent := []
            items := items ++ (some item').toList } :=
        .ready hready
      refine ⟨response.status, items ++ [item'], ?_, hreachable.tail hstep⟩
      rw [ne_eq, StreamResponse.status_eq_completed_iff]
      exact Ne.symm hfinished.2

/--
Without a message that ends the stream, the polls end up pending: at once, or after they have
ended the stream.
-/
theorem finished_mem_of_ends
    (hends : ∀ connection, Reachable format model messages connection →
      connection.streamer.receiver.disconnected = true → Ends format messages connection)
    : .finished ∈ messages := by
  by_contra hnot
  have hends' := hends
  rw [← List.append_nil messages] at hends'
  rcases exists_reachable_received messages [] hends' hnot with ⟨status, items, hstatus, hreachable⟩
  rw [List.append_nil] at hreachable
  rcases (hends _ hreachable rfl).next with ⟨item, hpoll, -⟩
  rw [Streamer.pollNext_of_empty hstatus rfl] at hpoll
  by_cases hstarted : status = .started
  . have hinterrupted : Streamer.pollNext format ⟨⟨[], true⟩, status, model⟩
        = (some (.ready none), ⟨⟨[], true⟩, .interrupted "Stream disconnected", model⟩) := by
      rw [Streamer.pollNext_of_empty hstatus rfl]
      exact if_pos ⟨hstarted, rfl⟩
    rcases (hends _ (hreachable.tail (.ready hinterrupted)) rfl).next with ⟨item', hpoll', -⟩
    rw [Streamer.pollNext_of_empty StreamStatus.noConfusion rfl] at hpoll'
    cases hpoll'
  . rw [if_neg fun h => hstarted h.1] at hpoll
    cases hpoll

theorem data_isSome_of_ends
    (hends : ∀ connection, Reachable format model messages connection →
      connection.streamer.receiver.disconnected = true → Ends format messages connection)
    {message : String} (hmessage : .error message ∈ StreamResponse.untilFinished messages)
    : (format.data message).isSome = true := by
  rcases StreamResponse.exists_of_finished_mem (finished_mem_of_ends hends)
    with ⟨before, after, rfl, hbefore, huntil⟩
  rw [huntil, List.mem_append, List.mem_singleton] at hmessage
  rcases List.mem_iff_append.mp (hmessage.resolve_right nofun) with ⟨consumed, rest, rfl⟩
  rw [List.append_assoc] at hends
  have hconsumed : .finished ∉ consumed := fun h => hbefore (List.mem_append_left _ h)
  rcases exists_reachable_received consumed _ hends hconsumed
    with ⟨status, items, hstatus, hreachable⟩
  rcases (hends _ hreachable rfl).next with ⟨item, hpoll, -⟩
  rw [List.cons_append, Streamer.pollNext_of_queue hstatus rfl] at hpoll
  cases hdata : format.data message with
  | some event => rfl
  | none => simp [StreamResponse.item, hdata] at hpoll

/--
At whatever points the server polls: once the senders are gone, the polls yield one item for each
message up to the first that ends the stream and then nothing more, exactly for messages of which
one ends the stream, with no error before it that cannot be the data of an event.
-/
theorem ends_iff (format : EventFormat Value Event Error (ChatCompletionChunk Value))
    (hdone : (format.data "[DONE]").isSome = true) (model : String)
    (messages : List StreamResponse)
    : (∀ connection, Reachable format model messages connection →
        connection.streamer.receiver.disconnected = true → Ends format messages connection)
      ↔ .finished ∈ messages
        ∧ ∀ message, .error message ∈ StreamResponse.untilFinished messages →
            (format.data message).isSome = true := by
  constructor
  . intro hends
    exact ⟨finished_mem_of_ends hends, fun message => data_isSome_of_ends hends⟩
  . rintro ⟨hfinished, hdata⟩ connection hreachable hdisconnected
    rcases consumed_of_reachable hreachable with ⟨-, consumed, hconsumed⟩
    refine hconsumed.ends hdisconnected hfinished ?_
    intro response hresponse
    cases response with
    | chunk output => rfl
    | finished => simpa [StreamResponse.item] using hdone
    | error message => simpa [StreamResponse.item] using hdata message hresponse

/--
Events as the lines that are sent. A chunk is sent as its text.
-/
def lines : EventFormat Unit String String (ChatCompletionChunk Unit) where
  toValue _ := .ok ()
  jsonData chunk := .ok ("data: " ++ chunk.content ++ "\n")
  data text := if '\r' ∈ text.toList then none else some ("data: " ++ text ++ "\n")
  newError message := message

theorem ends_iff_error_finished
    : (lines.data "[DONE]").isSome = true
      ∧ ∀ connection, Reachable lines "llama" [.error "out of memory", .finished] connection →
          connection.streamer.receiver.disconnected = true →
            Ends lines [.error "out of memory", .finished] connection := by
  have hdata : ∀ message,
      .error message ∈ StreamResponse.untilFinished [.error "out of memory", .finished] →
        (lines.data message).isSome = true := by
    intro message hmessage
    simp only [StreamResponse.untilFinished, List.mem_cons, StreamResponse.error.injEq,
      List.not_mem_nil, or_false, reduceCtorEq] at hmessage
    subst hmessage
    decide
  refine ⟨by decide, ?_⟩
  exact (ends_iff lines (by decide) "llama" [.error "out of memory", .finished]).mpr
    ⟨by decide, hdata⟩

/--
A stream that is told of an error and then left by the engine does not end.
-/
theorem not_ends_error
    : ¬ ∀ connection, Reachable lines "llama" [.error "out of memory"] connection →
        connection.streamer.receiver.disconnected = true →
          Ends lines [.error "out of memory"] connection := by
  intro hends
  have hfinished := finished_mem_of_ends hends
  cases hfinished with
  | tail _ h => cases h

end Connection

end AtomaInfer
