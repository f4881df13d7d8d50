/-
  A flat memory, and how far a program has written into it.

  Cells are counted from the beginning of a buffer.  A write past the end of the buffer is
  not stopped; `top` is the end of the highest write, from which it can be told.
-/
import Mathlib.Data.List.Range

namespace SonicBuildimage.Lib

structure Mem (α : Type) where
  cell : Nat → α
  /-- the end of the highest write -/
  top : Nat

namespace Mem

variable {α : Type}

/-- Write `bs` from the cell `off` on. -/
def write (m : Mem α) (off : Nat) (bs : List α) : Mem α where
  cell i := if off ≤ i then (bs[i - off]?).getD (m.cell i) else m.cell i
  top := max m.top (off + bs.length)

/-- Fill the first `n` cells; nothing else has been written then. -/
def fill (m : Mem α) (n : Nat) (x : α) : Mem α where
  cell i := if i < n then x else m.cell i
  top := n

/-- The first `n` cells. -/
def read (m : Mem α) (n : Nat) : List α := (List.range n).map m.cell

@[simp] theorem length_read (m : Mem α) (n : Nat) : (m.read n).length = n := by
  rw [read, List.length_map, List.length_range]

@[simp] theorem top_write (m : Mem α) (off : Nat) (bs : List α) :
    (m.write off bs).top = max m.top (off + bs.length) := rfl

@[simp] theorem top_fill (m : Mem α) (n : Nat) (x : α) : (m.fill n x).top = n := rfl

/-- Bytes that are written behind the first `n` cells are read behind them. -/
theorem read_write (m : Mem α) (n : Nat) (bs : List α) :
    (m.write n bs).read (n + bs.length) = m.read n ++ bs := by
  refine List.ext_getElem (by simp) fun i h₁ h₂ => ?_
  have hi : i < n + bs.length := by simpa using h₁
  simp only [read, write, List.getElem_map, List.getElem_range]
  by_cases hlt : i < n
  · rw [if_neg (by omega), List.getElem_append_left (by simpa using hlt)]
    simp
  · rw [if_pos (by omega), List.getElem_append_right (by simpa using hlt)]
    simp only [List.length_map, List.length_range]
    rw [List.getElem?_eq_getElem (by omega), Option.getD_some]

/-- The memory that `m` becomes when bytes are written from a place on, in any number of pieces. -/
structure Filled (m m' : Mem α) (off : Nat) (bs : List α) : Prop where
  read : m'.read (off + bs.length) = m.read off ++ bs
  top : m'.top = max m.top (off + bs.length)

theorem filled_nil {m : Mem α} {off : Nat} (h : off ≤ m.top) : Filled m m off [] where
  read := by rw [List.append_nil]; rfl
  top := (Nat.max_eq_left h).symm

/-- The first piece, and then the others. -/
theorem filled_append {m m' : Mem α} {off : Nat} {bs bs' : List α}
    (h : Filled (m.write off bs) m' (off + bs.length) bs') : Filled m m' off (bs ++ bs') where
  read := by rw [List.length_append, ← Nat.add_assoc, h.read, read_write, List.append_assoc]
  top := by
    rw [List.length_append, h.top, top_write]
    omega

/-- Less of what can be read. -/
theorem take_read (m : Mem α) {n k : Nat} (h : k ≤ n) : (m.read n).take k = m.read k := by
  rw [read, read, ← List.map_take, List.take_range, Nat.min_eq_left h]

theorem cell_read {m : Mem α} {n i : Nat} (h : i < n) : (m.read n)[i]? = some (m.cell i) := by
  rw [read, List.getElem?_map, List.getElem?_range h, Option.map_some]

/-- A write changes nothing in front of it and behind it. -/
theorem cell_write_outside {m : Mem α} {off i : Nat} {bs : List α}
    (h : i < off ∨ off + bs.length ≤ i) : (m.write off bs).cell i = m.cell i := by
  rw [write]
  rcases h with h | h
  · exact if_neg (by omega)
  · dsimp only
    rw [if_pos (by omega), List.getElem?_eq_none (by omega), Option.getD_none]

theorem cell_write_inside {m : Mem α} {off j : Nat} {bs : List α} {x : α}
    (h : bs[j]? = some x) : (m.write off bs).cell (off + j) = x := by
  rw [write]
  dsimp only
  rw [if_pos (by omega), Nat.add_sub_cancel_left, h, Option.getD_some]

/-! ## Several fields of one record -/

/-- Write fields of a record that begins at `base`, one after the other. -/
def writeAll (m : Mem α) (base : Nat) (fs : List (Nat × List α)) : Mem α :=
  fs.foldl (fun m f => m.write (base + f.1) f.2) m

/-- Two fields have no place in common. -/
def Apart (f g : Nat × List α) : Prop :=
  f.1 + f.2.length ≤ g.1 ∨ g.1 + g.2.length ≤ f.1

theorem cell_writeAll_outside {m : Mem α} {base i : Nat} {fs : List (Nat × List α)}
    (h : ∀ f ∈ fs, i < base + f.1 ∨ base + f.1 + f.2.length ≤ i) :
    (m.writeAll base fs).cell i = m.cell i := by
  induction fs generalizing m with
  | nil => rfl
  | cons f fs ih =>
    rw [writeAll, List.foldl_cons]
    change ((m.write (base + f.1) f.2).writeAll base fs).cell i = m.cell i
    rw [ih fun g hg => h g (List.mem_cons_of_mem f hg),
      cell_write_outside (h f List.mem_cons_self)]

/-- Each of the fields can be read again, if they are apart. -/
theorem cell_writeAll_of_mem {m : Mem α} {base j : Nat} {fs : List (Nat × List α)}
    (hapart : fs.Pairwise Apart) {f : Nat × List α} (hf : f ∈ fs) {x : α}
    (hj : f.2[j]? = some x) : (m.writeAll base fs).cell (base + f.1 + j) = x := by
  have hlt : j < f.2.length := (List.getElem?_eq_some_iff.1 hj).1
  induction fs generalizing m with
  | nil => exact absurd hf List.not_mem_nil
  | cons g fs ih =>
    rw [List.pairwise_cons] at hapart
    rw [writeAll, List.foldl_cons]
    change ((m.write (base + g.1) g.2).writeAll base fs).cell (base + f.1 + j) = x
    rcases List.mem_cons.1 hf with rfl | hf
    · rw [cell_writeAll_outside, cell_write_inside hj]
      intro g hg
      rcases hapart.1 g hg with h | h
      · exact Or.inl (by omega)
      · exact Or.inr (by omega)
    · exact ih hapart.2 hf

end Mem

end SonicBuildimage.Lib
