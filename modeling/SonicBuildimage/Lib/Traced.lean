/-
  Computations over a block of memory, together with the places they read.

  A place is an offset from the start of the block.  The memory has no end; what a
  computation may read is a property of its places (`Within n`: only the first `n`).
-/
import Mathlib.Data.List.Basic
import Mathlib.Tactic.Common

namespace SonicBuildimage.Lib

/-- A result, and the places that were read for it. -/
structure Traced (α : Type) where
  val : α
  reads : Nat → Bool

namespace Traced

variable {α β : Type}

instance : Monad Traced where
  pure a := ⟨a, fun _ => false⟩
  bind x f := ⟨(f x.val).val, fun j => x.reads j || (f x.val).reads j⟩

@[simp] theorem val_pure (a : α) : (pure a : Traced α).val = a := rfl

@[simp] theorem val_bind (x : Traced α) (f : α → Traced β) : (x >>= f).val = (f x.val).val := rfl

@[simp] theorem reads_bind (x : Traced α) (f : α → Traced β) (j : Nat) :
    (x >>= f).reads j = (x.reads j || (f x.val).reads j) := rfl

/-- Only the first `n` places are read. -/
def Within (n : Nat) (x : Traced α) : Prop := ∀ j, x.reads j = true → j < n

theorem within_pure (n : Nat) (a : α) : Within n (pure a : Traced α) :=
  fun _ h => absurd h (by simp)

@[simp] theorem within_pure_iff (n : Nat) (a : α) : Within n (pure a : Traced α) ↔ True :=
  iff_true_intro (within_pure n a)

@[simp] theorem within_bind (n : Nat) (x : Traced α) (f : α → Traced β) :
    Within n (x >>= f) ↔ Within n x ∧ Within n (f x.val) := by
  constructor
  · intro h
    refine ⟨fun j hj => h j ?_, fun j hj => h j ?_⟩
    · rw [reads_bind, hj, Bool.true_or]
    · rw [reads_bind, hj, Bool.or_true]
  · rintro ⟨hx, hf⟩ j hj
    rw [reads_bind, Bool.or_eq_true] at hj
    rcases hj with hj | hj
    · exact hx j hj
    · exact hf j hj

/-! ## Bytes and numbers -/

def byte (m : Nat → UInt8) (i : Nat) : Traced UInt8 := ⟨m i, fun j => j == i⟩

@[simp] theorem val_byte (m : Nat → UInt8) (i : Nat) : (byte m i).val = m i := rfl

@[simp] theorem within_byte (n : Nat) (m : Nat → UInt8) (i : Nat) :
    Within n (byte m i) ↔ i < n := by
  constructor
  · intro h
    exact h i (beq_self_eq_true i)
  · intro h j hj
    rw [eq_of_beq hj]
    exact h

/-- The bytes of a field. -/
def bytes (m : Nat → UInt8) (i len : Nat) : Traced (List UInt8) :=
  ⟨(List.range len).map fun k => m (i + k), fun j => decide (i ≤ j ∧ j < i + len)⟩

@[simp] theorem val_bytes (m : Nat → UInt8) (i len : Nat) :
    (bytes m i len).val = (List.range len).map fun k => m (i + k) := rfl

theorem within_bytes {n i len : Nat} (m : Nat → UInt8) (hlen : 0 < len) :
    Within n (bytes m i len) ↔ i + len ≤ n := by
  constructor
  · intro h
    have := h (i + len - 1) (decide_eq_true (by omega))
    omega
  · intro h j hj
    have := of_decide_eq_true hj
    omega

/-- A number of 16 bits in network byte order. -/
def be16 (m : Nat → UInt8) (i : Nat) : Traced Nat := do
  let hi ← byte m i
  let lo ← byte m (i + 1)
  pure (hi.toNat * 256 + lo.toNat)

theorem val_be16 (m : Nat → UInt8) (i : Nat) :
    (be16 m i).val = (m i).toNat * 256 + (m (i + 1)).toNat := rfl

@[simp] theorem within_be16 (n : Nat) (m : Nat → UInt8) (i : Nat) :
    Within n (be16 m i) ↔ i + 2 ≤ n := by
  simp only [be16, within_bind, within_byte, within_pure_iff, and_true]
  omega

/-- A number of 32 bits in network byte order. -/
def be32 (m : Nat → UInt8) (i : Nat) : Traced Nat := do
  let hi ← be16 m i
  let lo ← be16 m (i + 2)
  pure (hi * 65536 + lo)

@[simp] theorem within_be32 (n : Nat) (m : Nat → UInt8) (i : Nat) :
    Within n (be32 m i) ↔ i + 4 ≤ n := by
  simp only [be32, within_bind, within_be16, within_pure_iff, and_true]
  omega

/-! ## Strings

A string is read up to its zero byte, and a comparison of two strings up to the first
difference. -/

/-- Whether all of the `k` bytes from `i` on satisfy `p`. -/
def allBytes (m : Nat → UInt8) (i k : Nat) (p : Nat → UInt8 → Bool) : Bool :=
  (List.range k).all fun l => p l (m (i + l))

theorem allBytes_eq_true {m : Nat → UInt8} {i k : Nat} {p : Nat → UInt8 → Bool} :
    allBytes m i k p = true ↔ ∀ l < k, p l (m (i + l)) = true := by
  simp [allBytes]

/-- The string at `i`, for its reader. -/
def cstr (m : Nat → UInt8) (i : Nat) : Traced Unit :=
  ⟨(), fun j => decide (i ≤ j) && allBytes m i (j - i) fun _ b => b != 0⟩

theorem reads_cstr {m : Nat → UInt8} {i j : Nat} :
    (cstr m i).reads j = true ↔ i ≤ j ∧ ∀ l < j - i, m (i + l) ≠ 0 := by
  simp [cstr, allBytes_eq_true]

/-- A string is read inside the first `n` bytes exactly if it ends there. -/
theorem within_cstr {n : Nat} {m : Nat → UInt8} {i : Nat} :
    Within n (cstr m i) ↔ ∃ j < n, i ≤ j ∧ m j = 0 := by
  constructor
  · intro h
    by_contra hno
    -- without an end before `n`, the byte behind the first `n` is read
    have hnz : ∀ l < max i n - i, m (i + l) ≠ 0 := by
      intro l hl hz
      exact hno ⟨i + l, by omega, by omega, hz⟩
    have := h (max i n) (reads_cstr.2 ⟨by omega, hnz⟩)
    omega
  · rintro ⟨e, he, hie, hz⟩ j hj
    obtain ⟨hij, hnz⟩ := reads_cstr.1 hj
    by_contra hn
    have hend := hnz (e - i) (by omega)
    rw [Nat.add_sub_cancel' hie] at hend
    exact hend hz

/-- Comparison of the first `len` characters of the string at `i` with a string; `s` is
    without its zero byte. -/
def strncmp (m : Nat → UInt8) (i : Nat) (s : List UInt8) (len : Nat) : Traced Bool :=
  ⟨allBytes m i (min len (s.length + 1)) fun l b => b == s.getD l 0,
    fun j => decide (i ≤ j ∧ j < i + len) &&
      allBytes m i (j - i) fun l b => b != 0 && b == s.getD l 0⟩

/-- Comparison of the string at `i` with a string. -/
def strcmp (m : Nat → UInt8) (i : Nat) (s : List UInt8) : Traced Bool :=
  strncmp m i s (s.length + 1)

/-- A comparison reads no more than the whole string. -/
theorem within_strncmp {n : Nat} {m : Nat → UInt8} {i : Nat} (h : Within n (cstr m i))
    (s : List UInt8) (len : Nat) : Within n (strncmp m i s len) := by
  intro j hj
  simp only [strncmp, Bool.and_eq_true, decide_eq_true_eq, allBytes_eq_true, bne_iff_ne] at hj
  obtain ⟨⟨hij, -⟩, hall⟩ := hj
  exact h j (reads_cstr.2 ⟨hij, fun l hl => (hall l hl).1⟩)

/-! ## Loops -/

/-- One after the other. -/
def seq : List (Traced Unit) → Traced Unit
  | [] => pure ()
  | x :: xs => do
    x
    seq xs

theorem within_seq {n : Nat} {l : List (Traced Unit)} :
    Within n (seq l) ↔ ∀ x ∈ l, Within n x := by
  induction l with
  | nil => simp [seq]
  | cons x xs ih => simp [seq, ih]

/-- Whether one of the names is the string at `i`; the search ends at the first one. -/
def anyStrcmp (m : Nat → UInt8) (i : Nat) : List (List UInt8) → Traced Bool
  | [] => pure false
  | s :: l => do
    let eq ← strcmp m i s
    if eq then pure true else anyStrcmp m i l

theorem within_anyStrcmp {n : Nat} {m : Nat → UInt8} {i : Nat} (h : Within n (cstr m i))
    (l : List (List UInt8)) : Within n (anyStrcmp m i l) := by
  induction l with
  | nil => exact within_pure n false
  | cons s l ih =>
    rw [anyStrcmp, within_bind]
    refine ⟨within_strncmp h s _, ?_⟩
    split
    · exact within_pure n true
    · exact ih

end Traced

end SonicBuildimage.Lib
