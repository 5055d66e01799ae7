import Mathlib

/-!
Maps of lists that are causal: an element of the result depends only on the elements up to it. Pieces
of lists, and how a list is cut into pieces at given locations.
-/

namespace AtomaInfer

variable {α β γ δ : Type}

/--
The result is as long as the argument, and a longer argument only adds to it.
-/
structure Causal (f : List α → List β) : Prop where
  length_eq : ∀ xs, (f xs).length = xs.length
  isPrefix : ∀ {xs ys}, xs <+: ys → f xs <+: f ys

namespace Causal

variable {f : List α → List β} {g : List α → List γ} {xs : List α}

theorem take_eq (hf : Causal f) (n : Nat) : f (xs.take n) = (f xs).take n := by
  have hbegins : f (xs.take n) <+: f xs := hf.isPrefix (List.take_prefix n xs)
  rw [List.prefix_iff_eq_take.mp hbegins, hf.length_eq, List.length_take]
  rcases Nat.le_total n xs.length with hle | hle
  . rw [Nat.min_eq_left hle]
  . rw [Nat.min_eq_right hle, List.take_of_length_le (by rw [hf.length_eq]),
      List.take_of_length_le (by rw [hf.length_eq]; exact hle)]

protected theorem id : Causal fun xs : List α => xs :=
  ⟨fun _ => rfl, fun h => h⟩

protected theorem map (h : β → γ) (hf : Causal f) : Causal fun xs => (f xs).map h := by
  constructor
  . intro xs
    rw [List.length_map, hf.length_eq]
  . intro xs ys hbegins
    exact (hf.isPrefix hbegins).map h

protected theorem mapIdx (h : Nat → β → γ) (hf : Causal f) : Causal fun xs => (f xs).mapIdx h := by
  constructor
  . intro xs
    rw [List.length_mapIdx, hf.length_eq]
  . intro xs ys hbegins
    rcases hf.isPrefix hbegins with ⟨later, heq⟩
    rw [← heq, List.mapIdx_append]
    exact List.prefix_append _ _

protected theorem zipWith (h : β → γ → δ) (hf : Causal f) (hg : Causal g)
    : Causal fun xs => List.zipWith h (f xs) (g xs) := by
  constructor
  . intro xs
    rw [List.length_zipWith, hf.length_eq, hg.length_eq, Nat.min_self]
  . intro xs ys hbegins
    rw [List.prefix_iff_eq_take.mp hbegins, hf.take_eq, hg.take_eq, ← List.take_zipWith]
    exact List.take_prefix _ _

/--
An element is computed from the elements of a causal map up to its own place.
-/
protected theorem scan (h : Nat → β → List γ → δ) (hf : Causal f) (hg : Causal g)
    : Causal fun xs => (f xs).mapIdx fun i x => h i x ((g xs).take (i + 1)) := by
  constructor
  . intro xs
    rw [List.length_mapIdx, hf.length_eq]
  . intro xs ys hbegins
    rw [List.prefix_iff_getElem?]
    intro i hi
    rw [List.length_mapIdx, hf.length_eq] at hi
    have hsame : (g xs).take (i + 1) = (g ys).take (i + 1) := by
      rw [← hg.take_eq, ← hg.take_eq, List.prefix_iff_eq_take.mp hbegins, List.take_take,
        Nat.min_eq_left hi]
    have hget := List.prefix_iff_getElem?.mp (hf.isPrefix hbegins) i (by rw [hf.length_eq]; exact hi)
    rw [List.getElem?_mapIdx, List.getElem_mapIdx, hget, Option.map_some, hsame]

protected theorem comp {g : List β → List γ} (hg : Causal g) (hf : Causal f)
    : Causal fun xs => g (f xs) :=
  ⟨fun xs => (hg.length_eq _).trans (hf.length_eq xs), fun h => hg.isPrefix (hf.isPrefix h)⟩

protected theorem foldl {layer : γ → List α → List α} (hlayer : ∀ c, Causal (layer c)) (cs : List γ)
    : Causal fun xs => cs.foldl (fun xs c => layer c xs) xs := by
  induction cs with
  | nil => exact .id
  | cons c cs ih => exact ih.comp (hlayer c)

end Causal

/--
Some elements of a list in a row.
-/
def piece (start length : Nat) (xs : List α) : List α :=
  (xs.drop start).take length

section Piece

variable {xs : List α} {ys : List β} {start length : Nat}

theorem length_piece (h : start + length ≤ xs.length) : (piece start length xs).length = length := by
  unfold piece
  rw [List.length_take, List.length_drop]
  omega

theorem map_piece (f : α → β) : (piece start length xs).map f = piece start length (xs.map f) := by
  unfold piece
  rw [List.map_take, List.map_drop]

theorem zipWith_piece (f : α → β → γ)
    : List.zipWith f (piece start length xs) (piece start length ys)
        = piece start length (List.zipWith f xs ys) := by
  unfold piece
  rw [← List.take_zipWith, ← List.drop_zipWith]

theorem getElem?_piece {i : Nat} (h : i < length)
    : (piece start length xs)[i]? = xs[start + i]? := by
  unfold piece
  rw [List.getElem?_take_of_lt h, List.getElem?_drop]

theorem piece_one (h : start < xs.length) : piece start 1 xs = [xs[start]] := by
  unfold piece
  rw [List.drop_eq_getElem_cons h, List.take_succ_cons, List.take_zero]

/--
The places of the elements go with them.
-/
theorem zipWith_range'_piece (f : Nat → α → β) (h : start + length ≤ xs.length)
    : List.zipWith f (List.range' start length) (piece start length xs)
        = piece start length (xs.mapIdx f) := by
  apply List.ext_getElem?
  intro i
  rcases Nat.lt_or_ge i length with hlt | hge
  . rw [getElem?_piece hlt, List.getElem?_mapIdx, List.getElem?_zipWith, List.getElem?_range' hlt,
      getElem?_piece hlt, List.getElem?_eq_getElem (by omega), Nat.one_mul]
    rfl
  . rw [List.getElem?_eq_none, List.getElem?_eq_none]
    . rw [length_piece (by rwa [List.length_mapIdx])]
      exact hge
    . rw [List.length_zipWith, List.length_range']
      omega

end Piece

theorem zipWith_flatMap {f : δ → List α} {g : δ → List β} (h : α → β → γ) {ds : List δ}
    (hlength : ∀ d ∈ ds, (f d).length = (g d).length)
    : List.zipWith h (ds.flatMap f) (ds.flatMap g)
        = ds.flatMap fun d => List.zipWith h (f d) (g d) := by
  induction ds with
  | nil => rfl
  | cons d ds ih =>
    rw [List.flatMap_cons, List.flatMap_cons, List.flatMap_cons,
      List.zipWith_append (hlength d List.mem_cons_self),
      ih fun d' hd' => hlength d' (List.mem_cons_of_mem _ hd')]

/--
A piece of each list, one after the other.
-/
def gather (ds : List δ) (start length : δ → Nat) (rows : δ → List α) : List α :=
  ds.flatMap fun d => piece (start d) (length d) (rows d)

section Gather

variable {ds : List δ} {start length : δ → Nat} {rows : δ → List α} {rows' : δ → List β}

theorem map_gather (f : α → β)
    : (gather ds start length rows).map f = gather ds start length fun d => (rows d).map f := by
  unfold gather
  rw [List.map_flatMap]
  apply List.flatMap_congr
  intro d _
  exact map_piece f

theorem length_gather (h : ∀ d ∈ ds, start d + length d ≤ (rows d).length)
    : (gather ds start length rows).length = (ds.map length).sum := by
  unfold gather
  rw [List.length_flatMap, List.map_congr_left]
  intro d hd
  exact length_piece (h d hd)

theorem zipWith_gather (f : α → β → γ) (h : ∀ d ∈ ds, start d + length d ≤ (rows d).length)
    (h' : ∀ d ∈ ds, start d + length d ≤ (rows' d).length)
    : List.zipWith f (gather ds start length rows) (gather ds start length rows')
        = gather ds start length fun d => List.zipWith f (rows d) (rows' d) := by
  unfold gather
  rw [zipWith_flatMap]
  . apply List.flatMap_congr
    intro d _
    exact zipWith_piece f
  . intro d hd
    rw [length_piece (h d hd), length_piece (h' d hd)]

theorem zipWith_range'_gather (f : Nat → α → β)
    (h : ∀ d ∈ ds, start d + length d ≤ (rows d).length)
    : List.zipWith f (ds.flatMap fun d => List.range' (start d) (length d))
          (gather ds start length rows)
        = gather ds start length fun d => (rows d).mapIdx f := by
  unfold gather
  rw [zipWith_flatMap]
  . apply List.flatMap_congr
    intro d hd
    exact zipWith_range'_piece f (h d hd)
  . intro d hd
    rw [length_piece (h d hd), List.length_range']

end Gather

/--
The pieces of `xs` from each location to the next one.
-/
def segments (locations : List Nat) (xs : List α) : List (List α) :=
  List.zipWith (fun start stop => piece start (stop - start) xs) locations locations.tail

theorem scanl_eq_cons (f : β → α → β) (start : β) (xs : List α)
    : xs.scanl f start = start :: (xs.scanl f start).tail := by
  cases xs with
  | nil => rfl
  | cons x xs => rw [List.scanl_cons, List.tail_cons]

theorem segments_scanl_append (before : List α) (xss : List (List α))
    : segments ((xss.map (·.length)).scanl (· + ·) before.length) (before ++ xss.flatten) = xss := by
  induction xss generalizing before with
  | nil => rfl
  | cons xs xss ih =>
    have hrest := ih (before ++ xs)
    rw [List.length_append, List.append_assoc] at hrest
    unfold segments at hrest ⊢
    rw [List.map_cons, List.scanl_cons, List.tail_cons, List.flatten_cons]
    rw [scanl_eq_cons, List.tail_cons] at hrest
    rw [scanl_eq_cons, List.zipWith_cons_cons, hrest, Nat.add_sub_cancel_left]
    unfold piece
    rw [List.drop_left, List.take_left]

/--
Lists that are put together are cut apart at their cumulative lengths.
-/
theorem segments_scanl (xss : List (List α))
    : segments ((xss.map (·.length)).scanl (· + ·) 0) xss.flatten = xss :=
  segments_scanl_append [] xss

end AtomaInfer
