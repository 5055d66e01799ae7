import Mathlib.Data.List.Infix

/-!
Texts that are put together from parts with delimiters between them, where no part contains the
delimiter that ends it.
-/

namespace Delimiter

variable {α : Type} {delimiter before before' after after' : List α}

/--
A delimiter that does not overlap with itself.
-/
def Solid (delimiter : List α) : Prop :=
  ∃ first rest, delimiter = first :: rest ∧ first ∉ rest

/--
The part before the first delimiter is not longer in one reading of a text than in another.
-/
theorem Solid.eq_of_append (h : Solid delimiter) {gap : List α}
    (hfree : ¬ delimiter <:+: before ++ gap)
    (heq : delimiter ++ after = gap ++ (delimiter ++ after')) : gap = [] := by
  rcases h with ⟨first, rest, rfl, hrest⟩
  rcases List.append_eq_append_iff.mp heq with ⟨left, rfl, -⟩ | ⟨left, hsplit, hleft⟩
  . -- the gap begins with the delimiter
    exact absurd ⟨before, left, by rw [List.append_assoc]⟩ hfree
  . cases gap with
    | nil => rfl
    | cons head gap =>
      cases left with
      | nil =>
        rw [List.append_nil] at hsplit
        rw [hsplit] at hfree
        exact absurd (List.infix_append' before (head :: gap) []) (by simpa using hfree)
      | cons next left =>
        -- the first element would come again within the delimiter
        have hnext : first = next := (List.cons.inj hleft).1
        have htail := (List.cons.inj hsplit).2
        rw [← hnext] at htail
        exact absurd (htail ▸ List.mem_append_right gap List.mem_cons_self) hrest

theorem Solid.append_inj (h : Solid delimiter) (hfree : ¬ delimiter <:+: before)
    (hfree' : ¬ delimiter <:+: before')
    (heq : before ++ (delimiter ++ after) = before' ++ (delimiter ++ after'))
    : before = before' ∧ after = after' := by
  have hsame : before = before' := by
    rcases List.append_eq_append_iff.mp heq with ⟨gap, rfl, hgap⟩ | ⟨gap, rfl, hgap⟩
    . rw [h.eq_of_append hfree' hgap, List.append_nil]
    . rw [h.eq_of_append hfree hgap, List.append_nil]
  subst hsame
  exact ⟨rfl, List.append_cancel_left (List.append_cancel_left heq)⟩

/--
The fixed parts of a text with a header and a body.
-/
structure Frame (α : Type) where
  start : List α
  middle : List α
  stop : List α
  last : List α

namespace Frame

variable {frame : Frame α} {turn turn' : List α × List α} {turns turns' : List (List α × List α)}
variable {rest : List α}

def text (frame : Frame α) (turn : List α × List α) : List α :=
  frame.start ++ (turn.1 ++ (frame.middle ++ (turn.2 ++ (frame.stop ++ frame.last))))

structure Fits (frame : Frame α) (turn : List α × List α) : Prop where
  header : ¬ frame.middle <:+: turn.1
  body : ¬ frame.stop <:+: turn.2

structure Solid (frame : Frame α) : Prop where
  middle : Delimiter.Solid frame.middle
  stop : Delimiter.Solid frame.stop

theorem Solid.text_ne_nil (h : frame.Solid) (turn : List α × List α) : frame.text turn ≠ [] := by
  rcases h.stop with ⟨first, others, hstop, -⟩
  unfold text
  simp [hstop]

theorem Solid.text_inj (h : frame.Solid) (hturn : frame.Fits turn) (hturn' : frame.Fits turn')
    {rest' : List α} (heq : frame.text turn ++ rest = frame.text turn' ++ rest')
    : turn = turn' ∧ rest = rest' := by
  unfold text at heq
  simp only [List.append_assoc] at heq
  rcases h.middle.append_inj hturn.header hturn'.header (List.append_cancel_left heq)
    with ⟨hheader, hrest⟩
  rcases h.stop.append_inj hturn.body hturn'.body hrest with ⟨hbody, hrest⟩
  exact ⟨Prod.ext hheader hbody, List.append_cancel_left hrest⟩

/--
The turns of a text can be read off, also when the text goes on.
-/
theorem Solid.prefix_iff (h : frame.Solid) (hturns : ∀ turn ∈ turns, frame.Fits turn)
    (hturns' : ∀ turn ∈ turns', frame.Fits turn)
    : turns.flatMap frame.text <+: turns'.flatMap frame.text ↔ turns <+: turns' := by
  constructor
  . rintro ⟨rest, heq⟩
    induction turns generalizing turns' with
    | nil => exact List.nil_prefix
    | cons turn turns ih =>
      cases turns' with
      | nil =>
        rw [List.flatMap_cons, List.flatMap_nil, List.append_assoc] at heq
        exact absurd (List.append_eq_nil_iff.mp heq).1 (h.text_ne_nil turn)
      | cons turn' turns' =>
        rw [List.flatMap_cons, List.flatMap_cons, List.append_assoc] at heq
        rcases h.text_inj (hturns _ List.mem_cons_self) (hturns' _ List.mem_cons_self) heq
          with ⟨rfl, hrest⟩
        rw [List.prefix_cons_inj]
        exact ih (fun turn hmem => hturns turn (List.mem_cons_of_mem _ hmem))
          (fun turn hmem => hturns' turn (List.mem_cons_of_mem _ hmem)) hrest
  . rintro ⟨later, rfl⟩
    rw [List.flatMap_append]
    exact List.prefix_append _ _

end Frame

end Delimiter
