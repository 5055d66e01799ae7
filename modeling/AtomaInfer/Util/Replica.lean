import Mathlib.Data.List.Basic
import Mathlib.Data.List.Infix

/-!
Replicas that execute the messages of one log, each in the order of the log and at its own pace.
-/

namespace Replica

variable {μ ν σ ω : Type} {Exec : μ → σ → ω → σ → Prop} {initial state state' : σ}
variable {log queue messages : List μ} {outputs : List ω} {message : μ} {output : ω}

/--
The outputs and the state that executing messages one after the other may lead to.
-/
inductive Executes (Exec : μ → σ → ω → σ → Prop) (initial : σ) : List μ → List ω → σ → Prop where
  | nil : Executes Exec initial [] [] initial
  | snoc {messages : List μ} {outputs : List ω} {message : μ} {output : ω} {state state' : σ}
      (h : Executes Exec initial messages outputs state) (hexec : Exec message state output state')
    : Executes Exec initial (messages ++ [message]) (outputs ++ [output]) state'

theorem Executes.length_eq (h : Executes Exec initial messages outputs state)
    : outputs.length = messages.length := by
  induction h with
  | nil => rfl
  | snoc _ _ ih => simp [ih]

theorem Executes.eq_of_nil (h : Executes Exec initial [] outputs state) : state = initial := by
  generalize hall : ([] : List μ) = all at h
  cases h with
  | nil => rfl
  | snoc => simp at hall

theorem Executes.exists_of_append_singleton
    (h : Executes Exec initial (messages ++ [message]) outputs state')
    : ∃ outputs₀ output state,
        outputs = outputs₀ ++ [output]
          ∧ Executes Exec initial messages outputs₀ state
          ∧ Exec message state output state' := by
  generalize hall : messages ++ [message] = all at h
  cases h with
  | nil => simp at hall
  | snoc h hexec =>
    rcases List.append_inj' hall rfl with ⟨rfl, hlast⟩
    cases hlast
    exact ⟨_, _, _, rfl, h, hexec⟩

/--
An output is what its message leads to in a state that the messages before it lead to.
-/
theorem Executes.exists_of_getElem? (h : Executes Exec initial messages outputs state) {i : Nat}
    (houtput : outputs[i]? = some output)
    : ∃ message before after,
        messages[i]? = some message
          ∧ Executes Exec initial (messages.take i) (outputs.take i) before
          ∧ Exec message before output after := by
  induction h with
  | nil => simp at houtput
  | @snoc messages outputs message last before after h hexec ih =>
    rcases Nat.lt_trichotomy i outputs.length with hlt | rfl | hgt
    . rw [List.getElem?_append_left hlt] at houtput
      rcases ih houtput with ⟨message', before', after', hmessage, hexecutes, hexec'⟩
      refine ⟨message', before', after', ?_, ?_, hexec'⟩
      . rw [List.getElem?_append_left (by rw [← h.length_eq]; exact hlt), hmessage]
      . rwa [List.take_append_of_le_length (by rw [← h.length_eq]; exact hlt.le),
          List.take_append_of_le_length hlt.le]
    . rw [List.getElem?_append_right (Nat.le_refl _), Nat.sub_self] at houtput
      cases houtput
      refine ⟨message, before, after, ?_, ?_, hexec⟩
      . rw [h.length_eq, List.getElem?_append_right (Nat.le_refl _), Nat.sub_self]
        rfl
      . rwa [List.take_left, h.length_eq, List.take_left]
    . rw [List.getElem?_eq_none (by simp; omega)] at houtput
      cases houtput

theorem Executes.map {f : ν → μ} {messages : List ν}
    (h : Executes (fun message => Exec (f message)) initial messages outputs state)
    : Executes Exec initial (messages.map f) outputs state := by
  induction h with
  | nil => exact .nil
  | snoc _ hexec ih =>
    rw [List.map_append]
    exact ih.snoc hexec

theorem Executes.mono {Exec' : μ → σ → ω → σ → Prop}
    (hmono : ∀ message state output state', Exec message state output state' →
      Exec' message state output state')
    (h : Executes Exec initial messages outputs state)
    : Executes Exec' initial messages outputs state := by
  induction h with
  | nil => exact .nil
  | snoc _ hexec ih => exact ih.snoc (hmono _ _ _ _ hexec)

/--
A replica that has executed the messages of the log that are not in its queue.
-/
def Follows (Exec : μ → σ → ω → σ → Prop) (initial : σ) (log queue : List μ) (outputs : List ω)
    (state : σ) : Prop :=
  ∃ done, log = done ++ queue ∧ Executes Exec initial done outputs state

namespace Follows

theorem start : Follows Exec initial [] [] [] initial :=
  ⟨[], rfl, .nil⟩

theorem send (h : Follows Exec initial log queue outputs state) (message : μ)
    : Follows Exec initial (log ++ [message]) (queue ++ [message]) outputs state := by
  rcases h with ⟨done, rfl, hexecutes⟩
  exact ⟨done, List.append_assoc .., hexecutes⟩

theorem turn (h : Follows Exec initial log (message :: queue) outputs state)
    (hexec : Exec message state output state')
    : Follows Exec initial log queue (outputs ++ [output]) state' := by
  rcases h with ⟨done, rfl, hexecutes⟩
  exact ⟨done ++ [message], by simp, hexecutes.snoc hexec⟩

section

variable (h : Follows Exec initial log queue outputs state)
include h

theorem length_eq : outputs.length + queue.length = log.length := by
  rcases h with ⟨done, rfl, hexecutes⟩
  rw [hexecutes.length_eq, List.length_append]

theorem queue_eq : queue = log.drop outputs.length := by
  rcases h with ⟨done, rfl, hexecutes⟩
  rw [hexecutes.length_eq, List.drop_left]

theorem executes : Executes Exec initial (log.take outputs.length) outputs state := by
  rcases h with ⟨done, rfl, hexecutes⟩
  rwa [hexecutes.length_eq, List.take_left]

end

end Follows

end Replica
