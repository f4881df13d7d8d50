/-
  Finite trees of dictionaries and other values.

  A dictionary is the list of its keys, without repetition, and what it has at them.  Two trees are
  the same if they have the same at every path: `at? t q` is `none` where `t` has nothing,
  `some none` at a dictionary and `some (some a)` at the value `a`.

  `replaceAt t p n` is what changes to the node at `p` leave of the tree.
-/
import Mathlib

namespace SonicBuildimage.Lib

inductive KeyTree (κ α : Type)
  | leaf (a : α)
  | dict (keys : List κ) (nodup : keys.Nodup) (child : (k : κ) → k ∈ keys → KeyTree κ α)

namespace KeyTree

variable {κ α : Type}

/-- `{}` -/
def empty : KeyTree κ α := dict [] List.nodup_nil fun _ h => absurd h List.not_mem_nil

/-- The value that a leaf has; `none` for a dictionary. -/
def value : KeyTree κ α → Option α
  | leaf a => some a
  | dict _ _ _ => none

/-- The number of dictionaries. -/
def size : KeyTree κ α → ℕ
  | leaf _ => 0
  | dict keys _ child => 1 + (keys.attach.map fun k => size (child k.1 k.2)).sum

variable [DecidableEq κ]

/-- The subtree at a path. -/
def sub : KeyTree κ α → List κ → Option (KeyTree κ α)
  | t, [] => some t
  | leaf _, _ :: _ => none
  | dict keys _ child, k :: q => if h : k ∈ keys then sub (child k h) q else none

def at? (t : KeyTree κ α) (q : List κ) : Option (Option α) := (sub t q).map value

@[simp] theorem sub_nil (t : KeyTree κ α) : sub t [] = some t := by
  cases t <;> rfl

@[simp] theorem sub_leaf_cons (a : α) (k : κ) (q : List κ) :
    sub (leaf a : KeyTree κ α) (k :: q) = none := rfl

theorem sub_dict_cons (keys : List κ) (nodup : keys.Nodup)
    (child : (k : κ) → k ∈ keys → KeyTree κ α) (k : κ) (q : List κ) :
    sub (dict keys nodup child) (k :: q) = if h : k ∈ keys then sub (child k h) q else none := rfl

theorem sub_append (t : KeyTree κ α) (p q : List κ) :
    sub t (p ++ q) = (sub t p).bind fun n => sub n q := by
  induction p generalizing t with
  | nil => simp
  | cons k p ih =>
    cases t with
    | leaf a => rfl
    | dict keys nodup child =>
      rw [List.cons_append, sub_dict_cons, sub_dict_cons]
      split
      · exact ih _
      · rfl

theorem at?_append {t n : KeyTree κ α} {p : List κ} (h : sub t p = some n) (q : List κ) :
    at? t (p ++ q) = at? n q := by
  rw [at?, sub_append, h]
  rfl

/-- The tree with `n` at a path that it has. -/
def replaceAt : KeyTree κ α → List κ → KeyTree κ α → KeyTree κ α
  | _, [], n => n
  | leaf a, _ :: _, _ => leaf a
  | dict keys nodup child, k :: q, n =>
    dict keys nodup fun k' h => if k' = k then replaceAt (child k' h) q n else child k' h

/-- The node is changed at and below its path; the dictionaries above it stay dictionaries. -/
theorem at?_replaceAt {t m : KeyTree κ α} {p : List κ} (hm : sub t p = some m) (n : KeyTree κ α) :
    (∀ r, at? (replaceAt t p n) (p ++ r) = at? n r) ∧
      ∀ q, ¬p <+: q → at? (replaceAt t p n) q = at? t q := by
  induction p generalizing t with
  | nil => exact ⟨fun r => by cases t <;> rfl, fun q hq => absurd (List.nil_prefix) hq⟩
  | cons k p ih =>
    cases t with
    | leaf a => simp at hm
    | dict keys nodup child =>
      rw [sub_dict_cons] at hm
      split at hm
      · next hk =>
        obtain ⟨hbelow, hother⟩ := ih hm
        refine ⟨fun r => ?_, fun q hq => ?_⟩
        · rw [List.cons_append, at?, replaceAt, sub_dict_cons, dif_pos hk, if_pos rfl]
          exact hbelow r
        · cases q with
          | nil => rfl
          | cons k' q =>
            simp only [at?, replaceAt, sub_dict_cons]
            split
            · next hk' =>
              split
              · next heq =>
                subst heq
                exact hother q fun h => hq ((List.prefix_cons_inj k').2 h)
              · rfl
            · rfl
      · simp at hm

end KeyTree

end SonicBuildimage.Lib
