/-
  Rings: a block of slots that are written one after the other, and again from the first one.

  Proved: after any number of writes the slots hold exactly the latest values
  (`slot_pushAll`), the value written as number `k` in slot `k % cap` (`getElem?_pushAll`).
-/
import Mathlib.Data.List.Induction
import Mathlib.Data.Nat.ModEq
import Mathlib.Tactic.Common

namespace SonicBuildimage.Lib

/-- The slots, and the one that is written next. -/
structure RingBuffer (α : Type) where
  slots : List α
  next : Nat
  inRange : next < slots.length

namespace RingBuffer

variable {α : Type}

/-- All slots hold the same value, and the first one is next. -/
def fill (cap : Nat) (d : α) (hcap : 0 < cap) : RingBuffer α :=
  ⟨List.replicate cap d, 0, by rw [List.length_replicate]; exact hcap⟩

/-- The slot after `i`. -/
def after (i cap : Nat) : Nat := if i + 1 ≥ cap then 0 else i + 1

theorem after_lt {i cap : Nat} (h : i < cap) : after i cap < cap := by
  unfold after
  split
  · omega
  · omega

def push (r : RingBuffer α) (x : α) : RingBuffer α :=
  ⟨r.slots.set r.next x, after r.next r.slots.length, by
    rw [List.length_set]
    exact after_lt r.inRange⟩

@[simp] theorem slots_push (r : RingBuffer α) (x : α) :
    (r.push x).slots = r.slots.set r.next x := rfl

@[simp] theorem next_push (r : RingBuffer α) (x : α) :
    (r.push x).next = after r.next r.slots.length := rfl

def pushAll (r : RingBuffer α) (l : List α) : RingBuffer α := l.foldl push r

theorem pushAll_concat (r : RingBuffer α) (l : List α) (x : α) :
    r.pushAll (l ++ [x]) = (r.pushAll l).push x := by
  rw [pushAll, List.foldl_append]
  rfl

theorem length_pushAll (r : RingBuffer α) (l : List α) :
    (r.pushAll l).slots.length = r.slots.length := by
  induction l using List.reverseRecOn with
  | nil => rfl
  | append_singleton l x ih =>
    rw [pushAll_concat, slots_push, List.length_set]
    exact ih

section Fill

variable {cap : Nat} {d : α} {hcap : 0 < cap}

theorem length_pushAll_fill (l : List α) : ((fill cap d hcap).pushAll l).slots.length = cap := by
  rw [length_pushAll]
  exact List.length_replicate

theorem next_pushAll (l : List α) :
    ((fill cap d hcap).pushAll l).next = l.length % cap := by
  induction l using List.reverseRecOn with
  | nil => exact (Nat.zero_mod cap).symm
  | append_singleton l x ih =>
    have hlt := Nat.mod_lt l.length hcap
    rw [pushAll_concat, next_push, length_pushAll_fill, ih, List.length_append,
      List.length_singleton,
      Nat.add_mod_eq_ite]
    unfold after
    by_cases hone : cap = 1
    · subst hone
      simp [Nat.mod_one]
    · rw [Nat.mod_eq_of_lt (by omega : 1 < cap)]
      split
      · omega
      · rfl

/-- What a slot holds: the initial value, if it has not been written yet, or else one of the
    latest values. -/
theorem slot_pushAll (l : List α) {i : Nat} (hi : i < cap) :
    (l.length ≤ i ∧ ((fill cap d hcap).pushAll l).slots[i]? = some d) ∨
      ∃ k, k < l.length ∧ l.length ≤ k + cap ∧ k % cap = i ∧
        ((fill cap d hcap).pushAll l).slots[i]? = l[k]? := by
  induction l using List.reverseRecOn with
  | nil =>
    refine Or.inl ⟨Nat.zero_le i, ?_⟩
    change (List.replicate cap d)[i]? = some d
    rw [List.getElem?_replicate, if_pos hi]
  | append_singleton l x ih =>
    rw [pushAll_concat, slots_push, next_pushAll, List.length_append, List.length_singleton,
      List.getElem?_set]
    by_cases heq : l.length % cap = i
    · refine Or.inr ⟨l.length, by omega, by omega, heq, ?_⟩
      rw [if_pos heq, if_pos (by rw [length_pushAll_fill]; omega)]
      simp
    · rw [if_neg heq]
      rcases ih with ⟨hle, hslot⟩ | ⟨k, hk, hle, hmod, hslot⟩
      · -- the slots are written in order, so the next one is not behind an unwritten one
        have hmod : l.length % cap = l.length := Nat.mod_eq_of_lt (by omega)
        exact Or.inl ⟨by omega, hslot⟩
      · have hne : l.length ≠ k + cap := by
          intro h
          exact heq (by rw [h, Nat.add_mod_right, hmod])
        exact Or.inr ⟨k, by omega, by omega, hmod, by rw [hslot, List.getElem?_append_left hk]⟩

/-- The value written as number `k` is in its slot until `cap` more values have been written. -/
theorem getElem?_pushAll {l : List α} {k : Nat} (hk : k < l.length) (hle : l.length ≤ k + cap) :
    ((fill cap d hcap).pushAll l).slots[k % cap]? = l[k]? := by
  rcases @slot_pushAll α cap d hcap l _ (Nat.mod_lt k hcap) with
    ⟨hlen, -⟩ | ⟨k', hk', hle', hmod, hslot⟩
  · have := Nat.mod_le k cap
    omega
  · -- two of the latest `cap` numbers with the same remainder are equal
    have hkk : k' = k := by
      rcases Nat.le_total k' k with h | h
      · have hdvd : cap ∣ k - k' := (Nat.modEq_iff_dvd' h).1 hmod
        have := Nat.eq_zero_of_dvd_of_lt hdvd (by omega)
        omega
      · have hdvd : cap ∣ k' - k := (Nat.modEq_iff_dvd' h).1 hmod.symm
        have := Nat.eq_zero_of_dvd_of_lt hdvd (by omega)
        omega
    rw [hslot, hkk]

/-- A value in the ring is the initial one, if there is still a slot to be written, or one of
    the latest values. -/
theorem mem_pushAll {l : List α} {x : α}
    (hx : x ∈ ((fill cap d hcap).pushAll l).slots) :
    (l.length < cap ∧ x = d) ∨ ∃ k, l.length ≤ k + cap ∧ l[k]? = some x := by
  obtain ⟨i, hi, hget⟩ := List.getElem_of_mem hx
  have hget' := List.getElem?_eq_getElem hi
  rw [hget] at hget'
  rw [length_pushAll_fill] at hi
  rcases @slot_pushAll α cap d hcap l _ hi with ⟨hlen, hslot⟩ | ⟨k, -, hle, -, hslot⟩
  · rw [hget'] at hslot
    exact Or.inl ⟨by omega, Option.some.inj hslot⟩
  · exact Or.inr ⟨k, hle, by rw [← hslot, hget']⟩

end Fill

end RingBuffer

end SonicBuildimage.Lib
