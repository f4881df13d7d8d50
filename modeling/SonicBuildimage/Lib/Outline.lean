/-
  Outlines: lists of items with a depth, where an item lies inside the nearest earlier item of
  smaller depth.

  `enclosing depth d earlier` are the items around a place of depth `d`, outermost first; `earlier`
  are the items before it, the nearest first.  In an outline whose depth grows by one at most
  (`Nested`) there are `d` of them, and one level less is one item less (`enclosing_pred`).
-/
import Mathlib.Data.List.Basic

namespace SonicBuildimage.Lib

variable {α : Type} (depth : α → Nat)

/-- The items around a place. -/
def enclosing : Nat → List α → List α
  | _, [] => []
  | d, x :: earlier =>
    if depth x < d then enclosing (depth x) earlier ++ [x] else enclosing d earlier

/-- From the last item to the first: depths grow by one at most, from zero. -/
def Nested : List α → Prop
  | [] => True
  | [x] => depth x = 0
  | x :: y :: earlier => depth x ≤ depth y + 1 ∧ Nested (y :: earlier)

variable {depth} {x : α} {earlier : List α} {d : Nat}

theorem enclosing_of_lt (h : depth x < d) :
    enclosing depth d (x :: earlier) = enclosing depth (depth x) earlier ++ [x] :=
  if_pos h

theorem enclosing_of_le (h : d ≤ depth x) :
    enclosing depth d (x :: earlier) = enclosing depth d earlier :=
  if_neg (by omega)

/-- The item after is at most one deeper than the one before it. -/
theorem Nested.cons {y : α} (h : Nested depth (x :: earlier)) (hy : depth y ≤ depth x + 1) :
    Nested depth (y :: x :: earlier) :=
  ⟨hy, h⟩

theorem length_enclosing (h : Nested depth (x :: earlier)) (hd : d ≤ depth x + 1) :
    (enclosing depth d (x :: earlier)).length = d := by
  induction earlier generalizing x d with
  | nil =>
    have hx : depth x = 0 := h
    by_cases hlt : depth x < d
    · rw [enclosing_of_lt hlt]
      simp only [enclosing, List.nil_append, List.length_singleton]
      omega
    · rw [enclosing_of_le (by omega)]
      simp only [enclosing, List.length_nil]
      omega
  | cons y earlier ih =>
    obtain ⟨hxy, hrest⟩ := h
    by_cases hlt : depth x < d
    · rw [enclosing_of_lt hlt, List.length_append, ih hrest hxy, List.length_singleton]
      omega
    · rw [enclosing_of_le (by omega)]
      exact ih hrest (by omega)

/-- One level out. -/
theorem enclosing_pred (h : Nested depth (x :: earlier)) (hd : d ≤ depth x) :
    enclosing depth d (x :: earlier) = (enclosing depth (d + 1) (x :: earlier)).dropLast := by
  induction earlier generalizing x with
  | nil =>
    have hx : depth x = 0 := h
    rw [enclosing_of_le hd, enclosing_of_lt (by omega), List.dropLast_concat,
      show depth x = d by omega]
  | cons y earlier ih =>
    obtain ⟨hxy, hrest⟩ := h
    have hout : enclosing depth d (x :: y :: earlier) = enclosing depth d (y :: earlier) :=
      enclosing_of_le hd
    by_cases heq : depth x = d
    · have hin : enclosing depth (d + 1) (x :: y :: earlier) =
          enclosing depth (depth x) (y :: earlier) ++ [x] := enclosing_of_lt (by omega)
      rw [hout, hin, List.dropLast_concat, heq]
    · have hin : enclosing depth (d + 1) (x :: y :: earlier) =
          enclosing depth (d + 1) (y :: earlier) := enclosing_of_le (by omega)
      rw [hout, hin]
      exact ih hrest (by omega)

end SonicBuildimage.Lib
