import AtomaInfer.Engine.Impl
import AtomaInfer.Util.Replica
import Mathlib.Data.List.Nodup
import Mathlib.Logic.Relation

/-!
The threads that execute the batches, one for each GPU (`model_executor.rs`), and the dispatcher that
sends them the requests. All of them execute a request, and the first one answers it over a one-shot
channel.

A one-shot channel is a number. What a thread does with a request is a parameter.
-/

namespace AtomaInfer

structure ModelThreadCommand where
  request : ExecuteModelRequest
  sender : Option Nat

/--
The sender of a channel has not been used yet, it has been used, or it has been dropped before.
-/
inductive OneShot where
  | waiting
  | sent (output : List SequenceGroupOutput)
  | closed

/--
How `run` of a thread ends: it fails with an error, it panics since there is no sender, or it
finishes when the dispatcher is gone.
-/
inductive ThreadStatus where
  | running
  | failed
  | panicked
  | finished
  deriving DecidableEq

namespace ModelThreadDispatcher

structure ModelThread (δ : Type) where
  worker : δ
  receiver : List ModelThreadCommand
  status : ThreadStatus

end ModelThreadDispatcher

/--
`outgoing` are the commands that a call of `send` still has to send, each with the rank of its thread.
For the theorems `requests` lists what was sent so far, and `received` the channels whose response
was taken.
-/
structure ModelThreadDispatcher (δ : Type) where
  numShards : Nat
  threads : Nat → ModelThreadDispatcher.ModelThread δ
  channels : Nat → OneShot
  responses : List Nat
  outgoing : List (Nat × ModelThreadCommand)
  dropped : Bool
  requests : List ExecuteModelRequest
  received : List Nat

namespace ModelThreadDispatcher

variable {δ : Type}

def start (numShards : Nat) (workers : Nat → δ) : ModelThreadDispatcher δ where
  numShards
  threads rank := { worker := workers rank, receiver := [], status := .running }
  channels _ := .waiting
  responses := []
  outgoing := []
  dropped := false
  requests := []
  received := []

/--
The senders of the commands are dropped.
-/
def close (channels : Nat → OneShot) (commands : List ModelThreadCommand) (channel : Nat) : OneShot :=
  if some channel ∈ commands.map (·.sender) then .closed else channels channel

variable (dispatcher : ModelThreadDispatcher δ)

/--
The first thread gets the sender of a new channel, the others none.
-/
def send (request : ExecuteModelRequest) : ModelThreadDispatcher δ :=
  let channel := dispatcher.requests.length
  {
    dispatcher with
    outgoing :=
      (0, { request, sender := some channel })
        :: (List.range' 1 (dispatcher.numShards - 1)).map fun rank => (rank, { request, sender := none })
    responses := dispatcher.responses ++ [channel]
    requests := dispatcher.requests ++ [request]
  }

/--
The next command of `send`. It is dropped when the thread has ended.
-/
def deliver (rank : Nat) (command : ModelThreadCommand) (rest : List (Nat × ModelThreadCommand))
    : ModelThreadDispatcher δ :=
  let thread := dispatcher.threads rank
  if thread.status = .running then
    {
      dispatcher with
      outgoing := rest
      threads :=
        Function.update dispatcher.threads rank
          { thread with receiver := thread.receiver ++ [command] }
    }
  else
    { dispatcher with outgoing := rest, channels := close dispatcher.channels [command] }

/--
The thread ends, and the commands that it holds are dropped.
-/
def stop (rank : Nat) (status : ThreadStatus) : ModelThreadDispatcher δ :=
  let thread := dispatcher.threads rank
  {
    dispatcher with
    threads := Function.update dispatcher.threads rank { thread with receiver := [], status }
    channels := close dispatcher.channels thread.receiver
  }

/--
The thread has executed `command`, the first of its receiver, with this output. Only the output of
rank 0 is sent.
-/
def reply (rank : Nat) (command : ModelThreadCommand) (commands : List ModelThreadCommand)
    (output : List SequenceGroupOutput) (worker : δ) : ModelThreadDispatcher δ :=
  let thread := dispatcher.threads rank
  if rank = 0 then
    match command.sender with
    | some channel =>
      {
        dispatcher with
        threads := Function.update dispatcher.threads rank { thread with worker, receiver := commands }
        channels := Function.update dispatcher.channels channel (.sent output)
      }
    | none => dispatcher.stop rank .panicked
  else
    {
      dispatcher with
      threads := Function.update dispatcher.threads rank { thread with worker, receiver := commands }
      channels := close dispatcher.channels [command]
    }

/--
The response at `index`, which is `channel`, is taken.
-/
def receive (index channel : Nat) : ModelThreadDispatcher δ :=
  {
    dispatcher with
    responses := dispatcher.responses.eraseIdx index
    received := dispatcher.received ++ [channel]
  }

/--
The threads take turns in any order, also with the sending of the commands. `Exec rank` is what the
worker of a rank may do with a request.
-/
inductive Turn (Exec : Nat → ExecuteModelRequest → δ → List SequenceGroupOutput → δ → Prop)
    (dispatcher : ModelThreadDispatcher δ) : ModelThreadDispatcher δ → Prop where
  | deliver {rank : Nat} {command : ModelThreadCommand} {rest : List (Nat × ModelThreadCommand)}
      (h : dispatcher.outgoing = (rank, command) :: rest)
    : Turn Exec dispatcher (dispatcher.deliver rank command rest)
  | execute {rank : Nat} {command : ModelThreadCommand} {commands : List ModelThreadCommand}
      {output : List SequenceGroupOutput} {worker : δ} (hrank : rank < dispatcher.numShards)
      (hrunning : (dispatcher.threads rank).status = .running)
      (h : (dispatcher.threads rank).receiver = command :: commands)
      (hexec : Exec rank command.request (dispatcher.threads rank).worker output worker)
    : Turn Exec dispatcher (dispatcher.reply rank command commands output worker)
  | fail {rank : Nat} (hrank : rank < dispatcher.numShards)
      (hrunning : (dispatcher.threads rank).status = .running)
    : Turn Exec dispatcher (dispatcher.stop rank .failed)
  | finish {rank : Nat} (hrank : rank < dispatcher.numShards)
      (hrunning : (dispatcher.threads rank).status = .running)
      (hdropped : dispatcher.dropped = true) (h : (dispatcher.threads rank).receiver = [])
    : Turn Exec dispatcher (dispatcher.stop rank .finished)

/--
Between two calls of `send` the task of the engine takes responses, and at the end it drops the
dispatcher.
-/
inductive Step (Exec : Nat → ExecuteModelRequest → δ → List SequenceGroupOutput → δ → Prop)
    (dispatcher : ModelThreadDispatcher δ) : ModelThreadDispatcher δ → Prop where
  | send (request : ExecuteModelRequest) (hshards : 0 < dispatcher.numShards)
      (hidle : dispatcher.outgoing = []) (hopen : dispatcher.dropped = false)
    : Step Exec dispatcher (dispatcher.send request)
  | turn {dispatcher' : ModelThreadDispatcher δ} (h : Turn Exec dispatcher dispatcher')
    : Step Exec dispatcher dispatcher'
  | receive {index channel : Nat} (hidle : dispatcher.outgoing = [])
      (hresponse : dispatcher.responses[index]? = some channel)
      (hready : dispatcher.channels channel ≠ .waiting)
    : Step Exec dispatcher (dispatcher.receive index channel)
  | drop (hidle : dispatcher.outgoing = [])
    : Step Exec dispatcher { dispatcher with responses := [], dropped := true }

def Reachable (Exec : Nat → ExecuteModelRequest → δ → List SequenceGroupOutput → δ → Prop)
    (numShards : Nat) (workers : Nat → δ) (dispatcher : ModelThreadDispatcher δ) : Prop :=
  Relation.ReflTransGen (Step Exec) (start numShards workers) dispatcher

section Invariant

variable {Exec : Nat → ExecuteModelRequest → δ → List SequenceGroupOutput → δ → Prop}
variable {workers : Nat → δ} {rank rank' : Nat} {pending : List ModelThreadCommand}
variable {outputs : List (List SequenceGroupOutput)} {command : ModelThreadCommand}
variable {dispatcher dispatcher' : ModelThreadDispatcher δ}

def commandFor (rank channel : Nat) (request : ExecuteModelRequest) : ModelThreadCommand where
  request
  sender := if rank = 0 then some channel else none

/--
The commands for a rank, in the order of the requests.
-/
def log (dispatcher : ModelThreadDispatcher δ) (rank : Nat) : List ModelThreadCommand :=
  dispatcher.requests.mapIdx (commandFor rank)

def outgoingOf (dispatcher : ModelThreadDispatcher δ) (rank : Nat) : List ModelThreadCommand :=
  (dispatcher.outgoing.filter (·.1 = rank)).map (·.2)

theorem map_request_log : (dispatcher.log rank).map (·.request) = dispatcher.requests := by
  unfold log
  apply List.ext_getElem? fun i => ?_
  rw [List.getElem?_map, List.getElem?_mapIdx, Option.map_map]
  exact congrFun Option.map_id _

/--
What the channels hold when the thread of rank 0 has answered the first requests with `outputs`, and
`pending` have arrived after them.
-/
structure Channels (dispatcher : ModelThreadDispatcher δ) (pending : List ModelThreadCommand)
    (outputs : List (List SequenceGroupOutput)) : Prop where
  sent : ∀ channel output, outputs[channel]? = some output →
    dispatcher.channels channel = .sent output
  unanswered : ∀ channel, outputs.length ≤ channel → channel < outputs.length + pending.length →
    dispatcher.channels channel
      = if (dispatcher.threads 0).status = .running then .waiting else .closed
  later : ∀ channel, outputs.length + pending.length ≤ channel →
    dispatcher.channels channel = .waiting

/--
The thread of a rank has executed the requests that it has answered. The commands that it has got and
not executed are in its receiver, or were dropped with it.
-/
structure Rank (Exec : Nat → ExecuteModelRequest → δ → List SequenceGroupOutput → δ → Prop)
    (workers : Nat → δ) (dispatcher : ModelThreadDispatcher δ) (rank : Nat)
    (pending : List ModelThreadCommand) (outputs : List (List SequenceGroupOutput)) : Prop where
  follows : Replica.Follows (fun command => Exec rank command.request) (workers rank)
    (dispatcher.log rank) (pending ++ dispatcher.outgoingOf rank) outputs
    (dispatcher.threads rank).worker
  receiver_eq : (dispatcher.threads rank).receiver
    = if (dispatcher.threads rank).status = .running then pending else []
  not_panicked : (dispatcher.threads rank).status ≠ .panicked
  finished : (dispatcher.threads rank).status = .finished →
    pending = [] ∧ dispatcher.dropped = true
  channels : rank = 0 → dispatcher.Channels pending outputs

structure Inv (Exec : Nat → ExecuteModelRequest → δ → List SequenceGroupOutput → δ → Prop)
    (workers : Nat → δ) (dispatcher : ModelThreadDispatcher δ) : Prop where
  rank : ∀ rank < dispatcher.numShards, ∃ pending outputs,
    dispatcher.Rank Exec workers rank pending outputs
  outgoing_lt : ∀ entry ∈ dispatcher.outgoing, entry.1 < dispatcher.numShards
  idle_of_dropped : dispatcher.dropped = true → dispatcher.outgoing = []
  numShards_pos : dispatcher.requests ≠ [] → 0 < dispatcher.numShards
  balanced : ∃ lost,
    (dispatcher.dropped = false → lost = [])
      ∧ (lost ++ (dispatcher.responses ++ dispatcher.received)).Perm
          (List.range dispatcher.requests.length)

theorem close_of_forall {channels : Nat → OneShot} {commands : List ModelThreadCommand}
    (h : ∀ command ∈ commands, command.sender = none) : close channels commands = channels := by
  funext channel
  unfold close
  rw [if_neg]
  intro hmem
  rcases List.mem_map.mp hmem with ⟨command, hcommand, hsender⟩
  rw [h command hcommand] at hsender
  cases hsender

theorem close_eq_closed {channels : Nat → OneShot} {channel : Nat}
    (h : channels channel = .closed) (commands : List ModelThreadCommand)
    : close channels commands channel = .closed := by
  unfold close
  split
  . rfl
  . exact h

theorem Rank.sender_eq (h : dispatcher.Rank Exec workers rank pending outputs) {i : Nat}
    (hcommand : (pending ++ dispatcher.outgoingOf rank)[i]? = some command)
    : command.sender = if rank = 0 then some (outputs.length + i) else none := by
  rw [h.follows.queue_eq, List.getElem?_drop] at hcommand
  unfold log at hcommand
  rw [List.getElem?_mapIdx] at hcommand
  rcases Option.map_eq_some_iff.mp hcommand with ⟨request, -, rfl⟩
  rfl

theorem Rank.sender_eq_none (h : dispatcher.Rank Exec workers rank pending outputs)
    (hrank : rank ≠ 0) (hcommand : command ∈ pending ++ dispatcher.outgoingOf rank)
    : command.sender = none := by
  rcases List.mem_iff_getElem?.mp hcommand with ⟨i, hi⟩
  rw [h.sender_eq hi, if_neg hrank]

theorem Rank.mem_sender_iff (h : dispatcher.Rank Exec workers 0 pending outputs) {channel : Nat}
    : some channel ∈ pending.map (·.sender)
        ↔ outputs.length ≤ channel ∧ channel < outputs.length + pending.length := by
  have hget : ∀ {i : Nat} {command : ModelThreadCommand}, pending[i]? = some command →
      command.sender = some (outputs.length + i) := by
    intro i command hi
    have hlt := (List.getElem?_eq_some_iff.mp hi).1
    exact h.sender_eq (by rw [List.getElem?_append_left hlt, hi])
  rw [List.mem_map]
  constructor
  . rintro ⟨command, hcommand, hsender⟩
    rcases List.mem_iff_getElem?.mp hcommand with ⟨i, hi⟩
    have hlt := (List.getElem?_eq_some_iff.mp hi).1
    rw [hget hi] at hsender
    cases hsender
    omega
  . rintro ⟨hlow, hhigh⟩
    have hi : pending[channel - outputs.length]? = some pending[channel - outputs.length] :=
      List.getElem?_eq_getElem (by omega)
    refine ⟨_, List.mem_of_getElem? hi, ?_⟩
    rw [hget hi, Nat.add_sub_cancel' hlow]

/--
What a step leaves as it is for the rank.
-/
theorem Rank.of_eq (h : dispatcher.Rank Exec workers rank pending outputs)
    (hrequests : dispatcher'.requests = dispatcher.requests)
    (hthread : dispatcher'.threads rank = dispatcher.threads rank)
    (houtgoing : dispatcher'.outgoingOf rank = dispatcher.outgoingOf rank)
    (hchannels : rank = 0 → dispatcher'.channels = dispatcher.channels)
    (hdropped : dispatcher.dropped = true → dispatcher'.dropped = true)
    : dispatcher'.Rank Exec workers rank pending outputs := by
  refine ⟨?_, ?_, ?_, ?_, ?_⟩
  . unfold log
    rw [hrequests, houtgoing, hthread]
    exact h.follows
  . rw [hthread]
    exact h.receiver_eq
  . rw [hthread]
    exact h.not_panicked
  . rw [hthread]
    exact fun hfinished => ⟨(h.finished hfinished).1, hdropped (h.finished hfinished).2⟩
  . rintro rfl
    rcases h.channels rfl with ⟨hsent, hunanswered, hlater⟩
    refine ⟨?_, ?_, ?_⟩
    . rwa [hchannels rfl]
    . rwa [hchannels rfl, hthread]
    . rwa [hchannels rfl]

section Send

variable {request : ExecuteModelRequest} {rest : List (Nat × ModelThreadCommand)}

theorem outgoingOf_send (hrank : rank < dispatcher.numShards)
    : (dispatcher.send request).outgoingOf rank
        = [commandFor rank dispatcher.requests.length request] := by
  unfold outgoingOf send commandFor
  dsimp only
  by_cases hzero : rank = 0
  . subst hzero
    rw [List.filter_cons_of_pos (by simp), List.filter_eq_nil_iff.mpr]
    . rfl
    . intro entry hentry
      rcases List.mem_map.mp hentry with ⟨other, hother, rfl⟩
      have hlow := (List.mem_range'_1.mp hother).1
      simp
      omega
  . rw [List.filter_cons_of_neg (by simpa using Ne.symm hzero), List.filter_map, List.map_map]
    have hfilter : (List.range' 1 (dispatcher.numShards - 1)).filter
        ((fun entry : Nat × ModelThreadCommand => decide (entry.1 = rank)) ∘ fun other =>
          (other, { request, sender := none }))
          = [rank] := by
      change (List.range' 1 (dispatcher.numShards - 1)).filter (fun other => decide (other = rank)) = _
      rw [List.filter_eq, List.count_eq_one_of_mem List.nodup_range']
      . rfl
      . rw [List.mem_range'_1]
        omega
    rw [hfilter, if_neg hzero]
    rfl

theorem Rank.send (h : dispatcher.Rank Exec workers rank pending outputs)
    (hidle : dispatcher.outgoing = []) (hrank : rank < dispatcher.numShards)
    : (dispatcher.send request).Rank Exec workers rank pending outputs := by
  have hnone : dispatcher.outgoingOf rank = [] := by
    unfold outgoingOf
    rw [hidle]
    rfl
  refine ⟨?_, h.receiver_eq, h.not_panicked, h.finished, ?_⟩
  . have hfollows := h.follows.send (commandFor rank dispatcher.requests.length request)
    rw [hnone, List.append_nil] at hfollows
    rw [outgoingOf_send hrank]
    unfold log at hfollows ⊢
    rwa [← List.mapIdx_concat] at hfollows
  . intro hzero
    rcases h.channels hzero with ⟨hsent, hunanswered, hlater⟩
    exact ⟨hsent, hunanswered, hlater⟩

theorem outgoingOf_deliver (rank' : Nat)
    : (dispatcher.deliver rank command rest).outgoingOf rank'
        = (rest.filter (·.1 = rank')).map (·.2) := by
  unfold outgoingOf deliver
  dsimp only
  split <;> rfl

theorem outgoingOf_of_eq_cons (hout : dispatcher.outgoing = (rank, command) :: rest) (rank' : Nat)
    : dispatcher.outgoingOf rank'
        = if rank = rank' then
            command :: (dispatcher.deliver rank command rest).outgoingOf rank'
          else
            (dispatcher.deliver rank command rest).outgoingOf rank' := by
  rw [outgoingOf_deliver]
  unfold outgoingOf
  rw [hout, List.filter_cons]
  by_cases hrank : rank = rank'
  . simp [hrank]
  . simp [hrank]

section Deliver

variable (h : dispatcher.Rank Exec workers rank pending outputs)
variable (hout : dispatcher.outgoing = (rank, command) :: rest)
include h hout

theorem Rank.follows_deliver
    : Replica.Follows (fun command => Exec rank command.request) (workers rank)
        (dispatcher.log rank)
        ((pending ++ [command]) ++ (dispatcher.deliver rank command rest).outgoingOf rank) outputs
        (dispatcher.threads rank).worker := by
  have houtgoing := outgoingOf_of_eq_cons hout rank
  rw [if_pos rfl] at houtgoing
  have hfollows := h.follows
  rwa [houtgoing, List.append_cons] at hfollows

/--
A thread that runs gets the command.
-/
theorem Rank.deliver_running (hrunning : (dispatcher.threads rank).status = .running)
    : (dispatcher.deliver rank command rest).Rank Exec workers rank (pending ++ [command])
        outputs := by
  have hfollows := h.follows_deliver hout
  have heq : dispatcher.deliver rank command rest = {
      dispatcher with
      outgoing := rest
      threads := Function.update dispatcher.threads rank {
        dispatcher.threads rank with
        receiver := (dispatcher.threads rank).receiver ++ [command] } } := by
    unfold deliver
    rw [if_pos hrunning]
  rw [heq] at hfollows ⊢
  refine ⟨?_, ?_, ?_, ?_, ?_⟩
  . change Replica.Follows _ _ (dispatcher.log rank) _ outputs
      (Function.update dispatcher.threads rank _ rank).worker
    rw [Function.update_self]
    exact hfollows
  . simp [hrunning, h.receiver_eq]
  . simp [hrunning]
  . simp [hrunning]
  . rintro rfl
    rcases h.channels rfl with ⟨hsent, hunanswered, hlater⟩
    refine ⟨hsent, ?_, ?_⟩
    . intro channel hlow hhigh
      simp only [Function.update_self, hrunning, if_true]
      by_cases hlt : channel < outputs.length + pending.length
      . rw [hunanswered channel hlow hlt, if_pos hrunning]
      . exact hlater channel (by omega)
    . intro channel hlow
      exact hlater channel (by rw [List.length_append] at hlow; omega)

/--
A command for a thread that has stopped is lost, and its channel is closed.
-/
theorem Rank.deliver_stopped (hstopped : (dispatcher.threads rank).status ≠ .running)
    (hopen : dispatcher.dropped = false)
    : (dispatcher.deliver rank command rest).Rank Exec workers rank (pending ++ [command])
        outputs := by
  have hfollows := h.follows_deliver hout
  have hsender : rank = 0 → command.sender = some (outputs.length + pending.length) := by
    intro hzero
    rw [h.sender_eq (i := pending.length) (by rw [outgoingOf_of_eq_cons hout rank]; simp),
      if_pos hzero]
  have heq : dispatcher.deliver rank command rest = {
      dispatcher with
      outgoing := rest
      channels := close dispatcher.channels [command] } := by
    unfold deliver
    rw [if_neg hstopped]
  rw [heq] at hfollows ⊢
  refine ⟨hfollows, ?_, h.not_panicked, ?_, ?_⟩
  . rw [h.receiver_eq, if_neg hstopped, if_neg hstopped]
  . intro hfinished
    have hdropped := (h.finished hfinished).2
    rw [hopen] at hdropped
    cases hdropped
  . intro hzero
    have hsender := hsender hzero
    subst hzero
    rcases h.channels rfl with ⟨hsent, hunanswered, hlater⟩
    have hclose : ∀ channel, channel ≠ outputs.length + pending.length →
        close dispatcher.channels [command] channel = dispatcher.channels channel := by
      intro channel hne
      unfold close
      rw [if_neg]
      simp [hsender, hne]
    refine ⟨?_, ?_, ?_⟩
    . intro channel output houtput
      have hlt := (List.getElem?_eq_some_iff.mp houtput).1
      exact (hclose channel (by omega)).trans (hsent channel output houtput)
    . intro channel hlow hhigh
      rw [if_neg hstopped]
      by_cases hlt : channel < outputs.length + pending.length
      . refine (hclose channel (by omega)).trans ?_
        rw [hunanswered channel hlow hlt, if_neg hstopped]
      . have hlast : channel = outputs.length + pending.length := by
          rw [List.length_append, List.length_singleton] at hhigh
          omega
        change close dispatcher.channels [command] channel = _
        unfold close
        rw [if_pos]
        simp [hsender, hlast]
    . intro channel hlow
      rw [List.length_append, List.length_singleton] at hlow
      exact (hclose channel (by omega)).trans (hlater channel (by omega))

theorem Rank.deliver_self (hopen : dispatcher.dropped = false)
    : (dispatcher.deliver rank command rest).Rank Exec workers rank (pending ++ [command])
        outputs := by
  by_cases hrunning : (dispatcher.threads rank).status = .running
  . exact h.deliver_running hout hrunning
  . exact h.deliver_stopped hout hrunning hopen

end Deliver

theorem Rank.deliver_other (h : dispatcher.Rank Exec workers rank' pending outputs)
    (hout : dispatcher.outgoing = (rank, command) :: rest) (hne : rank ≠ rank')
    (hsender : rank ≠ 0 → command.sender = none)
    : (dispatcher.deliver rank command rest).Rank Exec workers rank' pending outputs := by
  have houtgoing := outgoingOf_of_eq_cons hout rank'
  rw [if_neg hne] at houtgoing
  refine h.of_eq ?_ ?_ houtgoing.symm ?_ ?_
  . unfold deliver
    dsimp only
    split <;> rfl
  . unfold deliver
    dsimp only
    split
    . exact Function.update_of_ne hne.symm _ _
    . rfl
  . rintro rfl
    unfold deliver
    dsimp only
    split
    . rfl
    . apply close_of_forall
      simpa using hsender hne
  . unfold deliver
    dsimp only
    split <;> exact id

end Send

section Turn

variable {commands : List ModelThreadCommand} {output : List SequenceGroupOutput} {worker : δ}
variable {status : ThreadStatus}

section Reply

variable (h : dispatcher.Rank Exec workers rank (command :: commands) outputs)
variable (hrunning : (dispatcher.threads rank).status = .running)
variable (hexec : Exec rank command.request (dispatcher.threads rank).worker output worker)
include h hrunning hexec

/--
The first thread answers on the channel of the command.
-/
theorem Rank.reply_first (hzero : rank = 0)
    : (dispatcher.reply rank command commands output worker).Rank Exec workers rank commands
        (outputs ++ [output]) := by
  have hfollows := h.follows.turn hexec
  have hsender : command.sender = if rank = 0 then some outputs.length else none :=
    h.sender_eq (i := 0) rfl
  rw [if_pos hzero] at hsender
  have heq : dispatcher.reply rank command commands output worker = {
      dispatcher with
      threads := Function.update dispatcher.threads rank {
        dispatcher.threads rank with
        worker
        receiver := commands }
      channels := Function.update dispatcher.channels outputs.length (.sent output) } := by
    unfold reply
    simp only [if_pos hzero, hsender]
  rw [heq]
  refine ⟨?_, ?_, ?_, ?_, ?_⟩
  . change Replica.Follows _ _ (dispatcher.log rank) (commands ++ dispatcher.outgoingOf rank) _
      (Function.update dispatcher.threads rank _ rank).worker
    rw [Function.update_self]
    exact hfollows
  . simp [hrunning]
  . simp [hrunning]
  . simp [hrunning]
  . intro _
    subst hzero
    rcases h.channels rfl with ⟨hsent, hunanswered, hlater⟩
    refine ⟨?_, ?_, ?_⟩
    . intro channel output' houtput
      change Function.update dispatcher.channels outputs.length (.sent output) channel = _
      rcases Nat.lt_trichotomy channel outputs.length with hlt | rfl | hgt
      . rw [Function.update_of_ne hlt.ne]
        rw [List.getElem?_append_left hlt] at houtput
        exact hsent channel output' houtput
      . rw [Function.update_self]
        simp only [List.getElem?_concat_length, Option.some.injEq] at houtput
        rw [houtput]
      . rw [List.getElem?_eq_none (by simp; omega)] at houtput
        cases houtput
    . intro channel hlow hhigh
      rw [List.length_append, List.length_singleton] at hlow hhigh
      change Function.update dispatcher.channels outputs.length (.sent output) channel
        = if (Function.update dispatcher.threads 0 _ 0).status = .running then .waiting else .closed
      rw [Function.update_of_ne (by omega), Function.update_self]
      exact hunanswered channel (by omega) (by rw [List.length_cons]; omega)
    . intro channel hlow
      rw [List.length_append, List.length_singleton] at hlow
      change Function.update dispatcher.channels outputs.length (.sent output) channel = _
      rw [Function.update_of_ne (by omega)]
      exact hlater channel (by rw [List.length_cons]; omega)

theorem Rank.reply_later (hzero : rank ≠ 0)
    : (dispatcher.reply rank command commands output worker).Rank Exec workers rank commands
        (outputs ++ [output]) := by
  have hfollows := h.follows.turn hexec
  have heq : dispatcher.reply rank command commands output worker = {
      dispatcher with
      threads := Function.update dispatcher.threads rank {
        dispatcher.threads rank with
        worker
        receiver := commands }
      channels := close dispatcher.channels [command] } := by
    unfold reply
    simp only [if_neg hzero]
  rw [heq]
  refine ⟨?_, ?_, ?_, ?_, fun h0 => absurd h0 hzero⟩
  . change Replica.Follows _ _ (dispatcher.log rank) (commands ++ dispatcher.outgoingOf rank) _
      (Function.update dispatcher.threads rank _ rank).worker
    rw [Function.update_self]
    exact hfollows
  . simp [hrunning]
  . simp [hrunning]
  . simp [hrunning]

theorem Rank.reply_self
    : (dispatcher.reply rank command commands output worker).Rank Exec workers rank commands
        (outputs ++ [output]) := by
  by_cases hzero : rank = 0
  . exact h.reply_first hrunning hexec hzero
  . exact h.reply_later hrunning hexec hzero

end Reply

theorem Rank.stop_self (h : dispatcher.Rank Exec workers rank pending outputs)
    (hrunning : (dispatcher.threads rank).status = .running)
    (hstatus : status = .failed ∨ status = .finished ∧ pending = [] ∧ dispatcher.dropped = true)
    : (dispatcher.stop rank status).Rank Exec workers rank pending outputs := by
  have hne : status ≠ .running := by
    rcases hstatus with rfl | ⟨rfl, -⟩ <;> simp
  have hreceiver := h.receiver_eq
  rw [if_pos hrunning] at hreceiver
  have hthread : (dispatcher.stop rank status).threads rank
      = { dispatcher.threads rank with receiver := [], status } :=
    Function.update_self ..
  refine ⟨?_, ?_, ?_, ?_, ?_⟩
  . rw [hthread]
    exact h.follows
  . rw [hthread, if_neg hne]
  . rw [hthread]
    rcases hstatus with rfl | ⟨rfl, -⟩ <;> simp
  . rw [hthread]
    rintro rfl
    rcases hstatus with hfailed | ⟨-, hend⟩
    . cases hfailed
    . exact hend
  . rintro rfl
    rcases h.channels rfl with ⟨hsent, hunanswered, hlater⟩
    have hclose : ∀ channel, (dispatcher.stop 0 status).channels channel
        = if outputs.length ≤ channel ∧ channel < outputs.length + pending.length then .closed
          else dispatcher.channels channel := by
      intro channel
      change close dispatcher.channels (dispatcher.threads 0).receiver channel = _
      unfold close
      rw [hreceiver]
      simp only [h.mem_sender_iff]
    refine ⟨?_, ?_, ?_⟩
    . intro channel output houtput
      have hlt := (List.getElem?_eq_some_iff.mp houtput).1
      rw [hclose, if_neg (by omega), hsent channel output houtput]
    . intro channel hlow hhigh
      rw [hclose, if_pos ⟨hlow, hhigh⟩, hthread, if_neg hne]
    . intro channel hlow
      rw [hclose, if_neg (by omega), hlater channel hlow]

theorem Rank.stop_other (h : dispatcher.Rank Exec workers rank' pending outputs)
    (hne : rank ≠ rank')
    (hsenders : rank ≠ 0 → ∀ command ∈ (dispatcher.threads rank).receiver, command.sender = none)
    : (dispatcher.stop rank status).Rank Exec workers rank' pending outputs := by
  refine h.of_eq rfl (Function.update_of_ne hne.symm _ _) rfl ?_ id
  rintro rfl
  exact close_of_forall (hsenders hne)

theorem Rank.reply_other (h : dispatcher.Rank Exec workers rank' pending outputs)
    (hne : rank ≠ rank') (hsender : rank ≠ 0 → command.sender = none)
    : (dispatcher.reply rank command commands output worker).Rank Exec workers rank' pending
        outputs := by
  unfold reply
  dsimp only
  split
  . next hzero =>
    split
    . exact h.of_eq rfl (Function.update_of_ne hne.symm _ _) rfl
        (fun h0 => absurd (hzero.trans h0.symm) hne) id
    . exact h.stop_other hne fun hrank => absurd hzero hrank
  . next hzero =>
    refine h.of_eq rfl (Function.update_of_ne hne.symm _ _) rfl ?_ id
    intro _
    exact close_of_forall (by simpa using hsender hzero)

end Turn

theorem inv_start (numShards : Nat) (workers : Nat → δ)
    : (start numShards workers).Inv Exec workers := by
  refine ⟨?_, ?_, fun _ => rfl, fun hne => absurd rfl hne, [], fun _ => rfl, .refl _⟩
  . intro rank _
    refine ⟨[], [], ⟨.start, rfl, nofun, nofun, fun _ => ⟨nofun, ?_, fun _ _ => rfl⟩⟩⟩
    intro channel hlow hhigh
    exact absurd hhigh (Nat.not_lt.mpr hlow)
  . intro entry hentry
    cases hentry

/--
What a turn of a thread and a message to it leave as it is.
-/
structure SameTask (dispatcher dispatcher' : ModelThreadDispatcher δ) : Prop where
  numShards_eq : dispatcher'.numShards = dispatcher.numShards
  outgoing_subset : dispatcher'.outgoing ⊆ dispatcher.outgoing
  dropped_eq : dispatcher'.dropped = dispatcher.dropped
  responses_eq : dispatcher'.responses = dispatcher.responses
  received_eq : dispatcher'.received = dispatcher.received
  requests_eq : dispatcher'.requests = dispatcher.requests

theorem sameTask_stop {status : ThreadStatus} : SameTask dispatcher (dispatcher.stop rank status) :=
  ⟨rfl, List.Subset.refl _, rfl, rfl, rfl, rfl⟩

theorem sameTask_reply {commands : List ModelThreadCommand} {output : List SequenceGroupOutput}
    {worker : δ} : SameTask dispatcher (dispatcher.reply rank command commands output worker) := by
  unfold reply
  dsimp only
  split
  . split
    . exact ⟨rfl, List.Subset.refl _, rfl, rfl, rfl, rfl⟩
    . exact sameTask_stop
  . exact ⟨rfl, List.Subset.refl _, rfl, rfl, rfl, rfl⟩

theorem sameTask_deliver {rest : List (Nat × ModelThreadCommand)}
    (hout : dispatcher.outgoing = (rank, command) :: rest)
    : SameTask dispatcher (dispatcher.deliver rank command rest) := by
  have hsubset : rest ⊆ dispatcher.outgoing := by
    rw [hout]
    exact List.subset_cons_self _ _
  unfold deliver
  dsimp only
  split <;> exact ⟨rfl, hsubset, rfl, rfl, rfl, rfl⟩

theorem Inv.of_sameTask (hinv : dispatcher.Inv Exec workers) (hsame : SameTask dispatcher dispatcher')
    (hrank : ∀ rank < dispatcher.numShards, ∃ pending outputs,
      dispatcher'.Rank Exec workers rank pending outputs) : dispatcher'.Inv Exec workers := by
  refine ⟨?_, ?_, ?_, ?_, ?_⟩
  . rwa [hsame.numShards_eq]
  . intro entry hentry
    rw [hsame.numShards_eq]
    exact hinv.outgoing_lt entry (hsame.outgoing_subset hentry)
  . intro hdropped
    rw [hsame.dropped_eq] at hdropped
    apply List.subset_nil.mp
    rw [← hinv.idle_of_dropped hdropped]
    exact hsame.outgoing_subset
  . rw [hsame.requests_eq, hsame.numShards_eq]
    exact hinv.numShards_pos
  . rw [hsame.dropped_eq, hsame.responses_eq, hsame.received_eq, hsame.requests_eq]
    exact hinv.balanced

/--
When the thread of one rank changes, the others have their invariant still.
-/
theorem Inv.of_rank (hinv : dispatcher.Inv Exec workers) (hsame : SameTask dispatcher dispatcher')
    (hself : ∃ pending outputs, dispatcher'.Rank Exec workers rank pending outputs)
    (hothers : ∀ rank' pending outputs, rank ≠ rank' →
      dispatcher.Rank Exec workers rank' pending outputs →
        dispatcher'.Rank Exec workers rank' pending outputs)
    : dispatcher'.Inv Exec workers := by
  refine hinv.of_sameTask hsame ?_
  intro rank' hlt
  by_cases hne : rank = rank'
  . rw [← hne]
    exact hself
  . rcases hinv.rank rank' hlt with ⟨pending, outputs, hrank⟩
    exact ⟨pending, outputs, hothers rank' pending outputs hne hrank⟩

theorem Rank.sender_eq_none_of_mem_receiver (h : dispatcher.Rank Exec workers rank pending outputs)
    (hrank : rank ≠ 0) (hcommand : command ∈ (dispatcher.threads rank).receiver)
    : command.sender = none := by
  rw [h.receiver_eq] at hcommand
  split at hcommand
  . exact h.sender_eq_none hrank (List.mem_append_left _ hcommand)
  . cases hcommand

theorem Inv.turn (hinv : dispatcher.Inv Exec workers) (hturn : Turn Exec dispatcher dispatcher')
    : dispatcher'.Inv Exec workers := by
  cases hturn with
  | @deliver rank command rest hout =>
    have hopen : dispatcher.dropped = false := by
      cases hdropped : dispatcher.dropped with
      | true => rw [hinv.idle_of_dropped hdropped] at hout; cases hout
      | false => rfl
    rcases hinv.rank rank (hinv.outgoing_lt (rank, command) (by simp [hout]))
      with ⟨pending, outputs, hself⟩
    refine hinv.of_rank (sameTask_deliver hout) ⟨_, _, hself.deliver_self hout hopen⟩ ?_
    intro rank' pending' outputs' hne hother
    refine hother.deliver_other hout hne fun hzero => hself.sender_eq_none hzero ?_
    rw [outgoingOf_of_eq_cons hout rank, if_pos rfl]
    simp
  | @execute rank command commands output worker hlt hrunning hreceiver hexec =>
    rcases hinv.rank rank hlt with ⟨pending, outputs, hself⟩
    have hpending := hself.receiver_eq
    rw [if_pos hrunning, hreceiver] at hpending
    subst hpending
    refine hinv.of_rank sameTask_reply ⟨_, _, hself.reply_self hrunning hexec⟩ ?_
    intro rank' pending' outputs' hne hother
    exact hother.reply_other hne fun hzero =>
      hself.sender_eq_none_of_mem_receiver hzero (by simp [hreceiver])
  | @fail rank hlt hrunning =>
    rcases hinv.rank rank hlt with ⟨pending, outputs, hself⟩
    refine hinv.of_rank sameTask_stop ⟨_, _, hself.stop_self hrunning (.inl rfl)⟩ ?_
    intro rank' pending' outputs' hne hother
    exact hother.stop_other hne fun hzero command => hself.sender_eq_none_of_mem_receiver hzero
  | @finish rank hlt hrunning hdropped hreceiver =>
    rcases hinv.rank rank hlt with ⟨pending, outputs, hself⟩
    have hpending := hself.receiver_eq
    rw [if_pos hrunning, hreceiver] at hpending
    refine hinv.of_rank sameTask_stop
      ⟨_, _, hself.stop_self hrunning (.inr ⟨rfl, hpending.symm, hdropped⟩)⟩ ?_
    intro rank' pending' outputs' hne hother
    exact hother.stop_other hne fun hzero command => hself.sender_eq_none_of_mem_receiver hzero

theorem Turn.sameTask (h : Turn Exec dispatcher dispatcher') : SameTask dispatcher dispatcher' := by
  cases h with
  | deliver hout => exact sameTask_deliver hout
  | execute => exact sameTask_reply
  | fail => exact sameTask_stop
  | finish => exact sameTask_stop

theorem Inv.step (hinv : dispatcher.Inv Exec workers) (hstep : Step Exec dispatcher dispatcher')
    : dispatcher'.Inv Exec workers := by
  rcases hinv.balanced with ⟨lost, hlost, hperm⟩
  cases hstep with
  | turn hturn => exact hinv.turn hturn
  | send request hshards hidle hopen =>
    refine ⟨?_, ?_, ?_, fun _ => hshards, [], fun _ => rfl, ?_⟩
    . intro rank hrank
      rcases hinv.rank rank hrank with ⟨pending, outputs, hrank'⟩
      exact ⟨pending, outputs, hrank'.send hidle hrank⟩
    . intro entry hentry
      rcases List.mem_cons.mp hentry with rfl | hentry
      . exact hshards
      . rcases List.mem_map.mp hentry with ⟨rank, hrank, rfl⟩
        have hrank := List.mem_range'_1.mp hrank
        change rank < dispatcher.numShards
        omega
    . intro hdropped
      rw [show dispatcher.dropped = true from hdropped] at hopen
      cases hopen
    . rw [hlost hopen, List.nil_append] at hperm
      change ((dispatcher.responses ++ [dispatcher.requests.length]) ++ dispatcher.received).Perm
        (List.range (dispatcher.requests ++ [request]).length)
      rw [List.length_append, List.length_singleton, List.range_succ]
      refine .trans ?_ (hperm.append_right _)
      rw [List.append_assoc, List.append_assoc]
      exact List.perm_append_comm.append_left _
  | @receive index channel hidle hresponse hready =>
    refine ⟨?_, hinv.outgoing_lt, hinv.idle_of_dropped, hinv.numShards_pos, lost, hlost, ?_⟩
    . intro rank hlt
      rcases hinv.rank rank hlt with ⟨pending, outputs, hrank⟩
      exact ⟨_, _, hrank.of_eq rfl rfl rfl (fun _ => rfl) id⟩
    . have hlt := (List.getElem?_eq_some_iff.mp hresponse).1
      have htaken := List.getElem_cons_eraseIdx_perm hlt
      rw [(List.getElem?_eq_some_iff.mp hresponse).2] at htaken
      refine .trans (.append_left _ ?_) hperm
      refine .trans ?_ (htaken.append_right _)
      change (dispatcher.responses.eraseIdx index ++ (dispatcher.received ++ [channel])).Perm _
      rw [← List.append_assoc]
      exact List.perm_append_singleton _ _
  | drop hidle =>
    refine ⟨?_, hinv.outgoing_lt, fun _ => hidle, hinv.numShards_pos, lost ++ dispatcher.responses,
      nofun, ?_⟩
    . intro rank hlt
      rcases hinv.rank rank hlt with ⟨pending, outputs, hrank⟩
      exact ⟨_, _, hrank.of_eq rfl rfl rfl (fun _ => rfl) fun _ => rfl⟩
    . rwa [List.nil_append, List.append_assoc]

theorem inv_of_reachable {numShards : Nat} (h : Reachable Exec numShards workers dispatcher)
    : dispatcher.Inv Exec workers := by
  induction h with
  | refl => exact inv_start numShards workers
  | tail _ hstep ih => exact ih.step hstep

theorem outgoing_deliver {rest : List (Nat × ModelThreadCommand)}
    : (dispatcher.deliver rank command rest).outgoing = rest := by
  unfold deliver
  dsimp only
  split <;> rfl

theorem status_deliver {rest : List (Nat × ModelThreadCommand)}
    : ((dispatcher.deliver rank command rest).threads rank').status
        = (dispatcher.threads rank').status := by
  unfold deliver
  dsimp only
  split
  . by_cases hrank : rank' = rank
    . simp [hrank]
    . simp [Function.update_of_ne hrank]
  . rfl

theorem length_receiver_deliver (dispatcher : ModelThreadDispatcher δ) (rank rank' : Nat)
    (command : ModelThreadCommand) (rest : List (Nat × ModelThreadCommand))
    : ((dispatcher.deliver rank command rest).threads rank').receiver.length
        ≤ (dispatcher.threads rank').receiver.length + 1 := by
  unfold deliver
  dsimp only
  split
  . by_cases hrank : rank' = rank
    . simp [hrank]
    . simp [Function.update_of_ne hrank]
  . exact Nat.le_succ _

theorem outgoing_reply {commands : List ModelThreadCommand} {output : List SequenceGroupOutput}
    {worker : δ}
    : (dispatcher.reply rank command commands output worker).outgoing = dispatcher.outgoing := by
  unfold reply stop
  dsimp only
  split
  . split <;> rfl
  . rfl

/--
The first thread goes on after its answer.
-/
theorem Inv.threads_reply {commands : List ModelThreadCommand}
    (hinv : dispatcher.Inv Exec workers) (hpos : 0 < dispatcher.numShards)
    (hrunning : (dispatcher.threads 0).status = .running)
    (hreceiver : (dispatcher.threads 0).receiver = command :: commands)
    (output : List SequenceGroupOutput) (worker : δ)
    : (dispatcher.reply 0 command commands output worker).threads 0
        = { dispatcher.threads 0 with worker, receiver := commands } := by
  rcases hinv.rank 0 hpos with ⟨pending, outputs, hself⟩
  have hpending := hself.receiver_eq
  rw [if_pos hrunning, hreceiver] at hpending
  have hsender : command.sender = some (outputs.length + 0) := by
    rw [hself.sender_eq (i := 0) (by rw [← hpending]; rfl), if_pos rfl]
  unfold reply
  simp only [if_true, hsender, Function.update_self]

theorem numShards_eq {numShards : Nat} (h : Reachable Exec numShards workers dispatcher)
    : dispatcher.numShards = numShards := by
  induction h with
  | refl => rfl
  | tail _ hstep ih =>
    rw [← ih]
    cases hstep with
    | turn hturn => exact hturn.sameTask.numShards_eq
    | _ => rfl

theorem Rank.executes (h : dispatcher.Rank Exec workers rank pending outputs)
    : Replica.Executes (Exec rank) (workers rank) (dispatcher.requests.take outputs.length) outputs
        (dispatcher.threads rank).worker := by
  have hexecutes := h.follows.executes.map
  rwa [List.map_take, map_request_log] at hexecutes

section Lagging

/--
A worker that counts the requests that it has executed.
-/
def Counts (_rank : Nat) (_request : ExecuteModelRequest) (worker : Nat)
    (output : List SequenceGroupOutput) (worker' : Nat) : Prop :=
  output = [] ∧ worker' = worker + 1

def emptyRequest : ExecuteModelRequest where
  sequenceGroupsMetadata := []
  blocksToSwapIn := ∅
  blocksToSwapOut := ∅
  blocksToCopy := ∅
  runningQueueSize := 0

def delivered : ModelThreadDispatcher Nat :=
  (((start 2 fun _ => 0).send emptyRequest).deliver 0 (commandFor 0 0 emptyRequest)
    [(1, commandFor 1 0 emptyRequest)]).deliver 1 (commandFor 1 0 emptyRequest) []

/--
The first of two threads has answered a request that the second has not executed.
-/
def lagging : ModelThreadDispatcher Nat :=
  delivered.reply 0 (commandFor 0 0 emptyRequest) [] [] 1

theorem reachable_lagging : Reachable Counts 2 (fun _ => 0) lagging := by
  have hsent : Reachable Counts 2 (fun _ => 0) ((start 2 fun _ => 0).send emptyRequest) :=
    .single (.send emptyRequest (by decide) rfl rfl)
  have hdelivered : Reachable Counts 2 (fun _ => 0) delivered :=
    (hsent.tail (.turn (.deliver rfl))).tail (.turn (.deliver rfl))
  exact hdelivered.tail (.turn (.execute (by decide) rfl rfl ⟨rfl, rfl⟩))

end Lagging

/--
Each thread has executed the first requests in the order in which they were sent, every one of them
once. No other request is lost to it while it runs, and when it finishes it has executed all of them.
The thread of rank 0 never lacks a sender.
-/
theorem executes_of_reachable {numShards : Nat} (h : Reachable Exec numShards workers dispatcher)
    (hrank : rank < numShards)
    : ∃ outputs,
        Replica.Executes (Exec rank) (workers rank) (dispatcher.requests.take outputs.length) outputs
            (dispatcher.threads rank).worker
          ∧ (dispatcher.threads rank).status ≠ .panicked
          ∧ ((dispatcher.threads rank).status = .running →
              dispatcher.requests.drop outputs.length
                = ((dispatcher.threads rank).receiver ++ dispatcher.outgoingOf rank).map (·.request))
          ∧ ((dispatcher.threads rank).status = .finished →
              outputs.length = dispatcher.requests.length) := by
  have hinv := inv_of_reachable h
  rcases hinv.rank rank (by rwa [numShards_eq h]) with ⟨pending, outputs, hself⟩
  refine ⟨outputs, hself.executes, hself.not_panicked, ?_, ?_⟩
  . intro hrunning
    rw [hself.receiver_eq, if_pos hrunning, hself.follows.queue_eq, List.map_drop, map_request_log]
  . intro hfinished
    rcases hself.finished hfinished with ⟨hpending, hdropped⟩
    have hlength := hself.follows.length_eq
    have houtgoing : dispatcher.outgoingOf rank = [] := by
      unfold outgoingOf
      rw [hinv.idle_of_dropped hdropped]
      rfl
    rw [hpending, houtgoing] at hlength
    unfold log at hlength
    simpa using hlength

theorem executes_of_reachable_lagging
    : (lagging.threads 1).receiver.length = 1
        ∧ ∃ outputs, Replica.Executes (Counts 1) 0 (lagging.requests.take outputs.length) outputs
            (lagging.threads 1).worker := by
  rcases executes_of_reachable reachable_lagging (show 1 < 2 by decide) with ⟨outputs, hexecutes, -⟩
  exact ⟨rfl, outputs, hexecutes⟩

/--
The output is one that the worker of rank 0 gives to the request of the channel when it has executed
those before it.
-/
def Answers (Exec : Nat → ExecuteModelRequest → δ → List SequenceGroupOutput → δ → Prop)
    (workers : Nat → δ) (dispatcher : ModelThreadDispatcher δ) (channel : Nat)
    (output : List SequenceGroupOutput) : Prop :=
  ∃ request earlier before after,
    dispatcher.requests[channel]? = some request
      ∧ Replica.Executes (Exec 0) (workers 0) (dispatcher.requests.take channel) earlier before
      ∧ Exec 0 request before output after

section Channels

variable {channel : Nat} (hinv : dispatcher.Inv Exec workers)
variable (hchannel : channel < dispatcher.requests.length)
include hinv hchannel

/--
A response is the output of the first thread at the same position.
-/
theorem Inv.exists_outputs_of_sent {output : List SequenceGroupOutput}
    (houtput : dispatcher.channels channel = .sent output)
    : ∃ pending outputs,
        dispatcher.Rank Exec workers 0 pending outputs ∧ outputs[channel]? = some output := by
  have hpos := hinv.numShards_pos (List.ne_nil_of_length_pos (by omega))
  rcases hinv.rank 0 hpos with ⟨pending, outputs, hself⟩
  rcases hself.channels rfl with ⟨hsent, hunanswered, hlater⟩
  have hlt : channel < outputs.length := by
    rcases Nat.lt_or_ge channel outputs.length with hlt | hge
    . exact hlt
    . by_cases hpending : channel < outputs.length + pending.length
      . rw [hunanswered channel hge hpending] at houtput
        split at houtput <;> cases houtput
      . rw [hlater channel (by omega)] at houtput
        cases houtput
  have hget := List.getElem?_eq_getElem hlt
  rw [hsent channel _ hget] at houtput
  cases houtput
  exact ⟨pending, outputs, hself, hget⟩

theorem Inv.answers_of_sent {output : List SequenceGroupOutput}
    (houtput : dispatcher.channels channel = .sent output)
    : dispatcher.Answers Exec workers channel output := by
  rcases hinv.exists_outputs_of_sent hchannel houtput with ⟨pending, outputs, hself, hget⟩
  have hlt := (List.getElem?_eq_some_iff.mp hget).1
  rcases hself.executes.exists_of_getElem? hget
    with ⟨request, before, after, hrequest, hexecutes, hexec⟩
  rw [List.getElem?_take_of_lt hlt] at hrequest
  rw [List.take_take, Nat.min_eq_left hlt.le] at hexecutes
  exact ⟨request, _, before, after, hrequest, hexecutes, hexec⟩

theorem Inv.exists_sent_of_lt {output : List SequenceGroupOutput}
    (houtput : dispatcher.channels channel = .sent output) {earlier : Nat}
    (hearlier : earlier < channel) : ∃ output', dispatcher.channels earlier = .sent output' := by
  rcases hinv.exists_outputs_of_sent hchannel houtput with ⟨pending, outputs, hself, hget⟩
  have hlt := (List.getElem?_eq_some_iff.mp hget).1
  exact ⟨_, (hself.channels rfl).1 earlier _ (List.getElem?_eq_getElem (by omega))⟩

theorem Inv.failed_of_closed (hclosed : dispatcher.channels channel = .closed)
    : (dispatcher.threads 0).status = .failed := by
  have hpos := hinv.numShards_pos (List.ne_nil_of_length_pos (by omega))
  rcases hinv.rank 0 hpos with ⟨pending, outputs, hself⟩
  rcases hself.channels rfl with ⟨hsent, hunanswered, hlater⟩
  rcases Nat.lt_or_ge channel outputs.length with hlt | hge
  . rw [hsent channel _ (List.getElem?_eq_getElem hlt)] at hclosed
    cases hclosed
  . by_cases hpending : channel < outputs.length + pending.length
    . rw [hunanswered channel hge hpending] at hclosed
      have hnot := hself.not_panicked
      cases hstatus : (dispatcher.threads 0).status with
      | running => rw [if_pos hstatus] at hclosed; cases hclosed
      | failed => rfl
      | panicked => exact absurd hstatus hnot
      | finished =>
        rw [(hself.finished hstatus).1, List.length_nil] at hpending
        omega
    . rw [hlater channel (by omega)] at hclosed
      cases hclosed

/--
A channel stays closed: the first thread has failed and answers nothing more.
-/
theorem Inv.closed_of_turn {dispatcher' : ModelThreadDispatcher δ}
    (hclosed : dispatcher.channels channel = .closed) (hturn : Turn Exec dispatcher dispatcher')
    : dispatcher'.channels channel = .closed := by
  cases hturn with
  | deliver hout =>
    unfold deliver
    dsimp only
    split
    . exact hclosed
    . exact close_eq_closed hclosed _
  | execute hrank hrunning hreceiver hexec =>
    unfold reply
    dsimp only
    split
    . next hzero =>
      rw [hzero, hinv.failed_of_closed hchannel hclosed] at hrunning
      cases hrunning
    . exact close_eq_closed hclosed _
  | fail => exact close_eq_closed hclosed _
  | finish => exact close_eq_closed hclosed _

theorem Inv.exists_of_waiting (hwaiting : dispatcher.channels channel = .waiting)
    : ∃ command ∈ (dispatcher.threads 0).receiver ++ dispatcher.outgoingOf 0,
        command.sender = some channel
          ∧ dispatcher.requests[channel]? = some command.request := by
  have hpos := hinv.numShards_pos (List.ne_nil_of_length_pos (by omega))
  rcases hinv.rank 0 hpos with ⟨pending, outputs, hself⟩
  rcases hself.channels rfl with ⟨hsent, hunanswered, hlater⟩
  have hge : outputs.length ≤ channel := by
    rcases Nat.lt_or_ge channel outputs.length with hlt | hge
    . rw [hsent channel _ (List.getElem?_eq_getElem hlt)] at hwaiting
      cases hwaiting
    . exact hge
  have hlength := hself.follows.length_eq
  unfold log at hlength
  rw [List.length_mapIdx] at hlength
  have hget : (pending ++ dispatcher.outgoingOf 0)[channel - outputs.length]?
      = some (commandFor 0 channel dispatcher.requests[channel]) := by
    rw [hself.follows.queue_eq, List.getElem?_drop, Nat.add_sub_cancel' hge]
    unfold log
    rw [List.getElem?_mapIdx, List.getElem?_eq_getElem hchannel]
    rfl
  refine ⟨commandFor 0 channel dispatcher.requests[channel], ?_, rfl,
    List.getElem?_eq_getElem hchannel⟩
  rw [hself.receiver_eq]
  split
  . exact List.mem_of_getElem? hget
  . next hstopped =>
    have hpending : ¬ channel < outputs.length + pending.length := by
      intro hpending
      rw [hunanswered channel hge hpending, if_neg hstopped] at hwaiting
      cases hwaiting
    rw [List.getElem?_append_right (by omega)] at hget
    exact List.mem_append_right _ (List.mem_of_getElem? hget)

end Channels

theorem Inv.perm_of_not_dropped (hinv : dispatcher.Inv Exec workers)
    (hopen : dispatcher.dropped = false)
    : (dispatcher.responses ++ dispatcher.received).Perm
        (List.range dispatcher.requests.length) := by
  rcases hinv.balanced with ⟨lost, hlost, hperm⟩
  rwa [hlost hopen, List.nil_append] at hperm

/--
A response is the answer to its own request. A channel without one belongs to a command that the
first thread will get or has got, unless that thread has failed. Responses come in the order of the
requests, and none is taken twice or forgotten.
-/
theorem channels_of_reachable {numShards : Nat} (h : Reachable Exec numShards workers dispatcher)
    {channel : Nat} (hchannel : channel < dispatcher.requests.length)
    : (∀ output, dispatcher.channels channel = .sent output →
          dispatcher.Answers Exec workers channel output
            ∧ ∀ earlier < channel, ∃ output', dispatcher.channels earlier = .sent output')
        ∧ (dispatcher.channels channel = .closed → (dispatcher.threads 0).status = .failed)
        ∧ (dispatcher.channels channel = .waiting →
            ∃ command ∈ (dispatcher.threads 0).receiver ++ dispatcher.outgoingOf 0,
              command.sender = some channel
                ∧ dispatcher.requests[channel]? = some command.request)
        ∧ (dispatcher.dropped = false →
            (dispatcher.responses ++ dispatcher.received).Perm
              (List.range dispatcher.requests.length)) := by
  have hinv := inv_of_reachable h
  refine ⟨?_, hinv.failed_of_closed hchannel, hinv.exists_of_waiting hchannel,
    hinv.perm_of_not_dropped⟩
  intro output houtput
  exact ⟨hinv.answers_of_sent hchannel houtput,
    fun earlier hearlier => hinv.exists_sent_of_lt hchannel houtput hearlier⟩

theorem channels_of_reachable_lagging
    : lagging.Answers Counts (fun _ => 0) 0 []
        ∧ (lagging.responses ++ lagging.received).Perm [0] := by
  rcases channels_of_reachable reachable_lagging (show 0 < lagging.requests.length by decide)
    with ⟨hsent, -, -, hbalanced⟩
  exact ⟨(hsent [] rfl).1, hbalanced rfl⟩

end Invariant

end ModelThreadDispatcher

end AtomaInfer
