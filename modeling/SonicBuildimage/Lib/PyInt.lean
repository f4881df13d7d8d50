/-
  `int` of a text, as Python has it: blanks around the number, a sign, and decimal digits of any
  script with single underscores between them.

  The digits are those of Unicode 13, which Python 3.9 knows; each script has its ten digits in a
  row.
-/
import SonicBuildimage.Lib.PyStr

namespace SonicBuildimage.Lib

/-- The digit zero of every script. -/
def digitZeros : List Nat :=
  [0x30, 0x660, 0x6f0, 0x7c0, 0x966, 0x9e6, 0xa66, 0xae6, 0xb66, 0xbe6, 0xc66, 0xce6, 0xd66,
   0xde6, 0xe50, 0xed0, 0xf20, 0x1040, 0x1090, 0x17e0, 0x1810, 0x1946, 0x19d0, 0x1a80, 0x1a90,
   0x1b50, 0x1bb0, 0x1c40, 0x1c50, 0xa620, 0xa8d0, 0xa900, 0xa9d0, 0xa9f0, 0xaa50, 0xabf0,
   0xff10, 0x104a0, 0x10d30, 0x11066, 0x110f0, 0x11136, 0x111d0, 0x112f0, 0x11450, 0x114d0,
   0x11650, 0x116c0, 0x11730, 0x118e0, 0x11950, 0x11c50, 0x11d50, 0x11da0, 0x16a60, 0x16b50,
   0x1d7ce, 0x1d7d8, 0x1d7e2, 0x1d7ec, 0x1d7f6, 0x1e140, 0x1e2f0, 0x1e950, 0x1fbf0]

/-- The value of a decimal digit. -/
def digitValue (c : Char) : Option Nat :=
  (digitZeros.find? fun z => z ≤ c.toNat && c.toNat < z + 10).map fun z => c.toNat - z

/-- The number that goes on after a digit. -/
def digitsFrom : Nat → List Char → Option Nat
  | n, [] => some n
  | n, '_' :: c :: cs => (digitValue c).bind fun d => digitsFrom (10 * n + d) cs
  | n, c :: cs => (digitValue c).bind fun d => digitsFrom (10 * n + d) cs

def digits : List Char → Option Nat
  | [] => none
  | c :: cs => (digitValue c).bind fun d => digitsFrom d cs

/-- `int(s)`; `none` is a `ValueError`. -/
def int (s : String) : Option Int :=
  match (strip s).toList with
  | '-' :: cs => (digits cs).map fun n => -Int.ofNat n
  | '+' :: cs => (digits cs).map Int.ofNat
  | cs => (digits cs).map Int.ofNat

/-- A character that can stand in a number. -/
def numeral (c : Char) : Bool := c = '_' || (digitValue c).isSome

theorem numeral_of_digitsFrom {n m : Nat} {cs : List Char} (h : digitsFrom n cs = some m) :
    ∀ c ∈ cs, numeral c = true := by
  induction n, cs using digitsFrom.induct with
  | case1 n => exact fun _ hc => absurd hc List.not_mem_nil
  | case2 n c cs ih =>
    rw [digitsFrom, Option.bind_eq_some_iff] at h
    obtain ⟨d, hd, h⟩ := h
    have hvalue : numeral c = true := by simp [numeral, hd]
    simpa [hvalue, show numeral '_' = true from rfl] using ih d h
  | case3 n c cs hc ih =>
    rw [digitsFrom.eq_3 _ _ _ hc, Option.bind_eq_some_iff] at h
    obtain ⟨d, hd, h⟩ := h
    have hvalue : numeral c = true := by simp [numeral, hd]
    simpa [hvalue] using ih d h

theorem numeral_of_digits {n : Nat} {cs : List Char} (h : digits cs = some n) :
    ∀ c ∈ cs, numeral c = true := by
  cases cs with
  | nil => exact fun _ hc => absurd hc List.not_mem_nil
  | cons c cs =>
    rw [digits, Option.bind_eq_some_iff] at h
    obtain ⟨d, hd, h⟩ := h
    have hvalue : numeral c = true := by simp [numeral, hd]
    simpa [hvalue] using numeral_of_digitsFrom h

/-- The characters of a text that is a number. -/
theorem mem_of_int {s : String} {n : Int} (h : int s = some n) {c : Char} (hc : c ∈ s.toList) :
    isspace c = true ∨ c = '-' ∨ c = '+' ∨ numeral c = true := by
  rcases mem_strip_or hc with hspace | hmem
  · exact Or.inl hspace
  right
  unfold int at h
  split at h
  · next cs hcs =>
    obtain ⟨m, hm, -⟩ := Option.map_eq_some_iff.1 h
    rw [hcs] at hmem
    rcases List.mem_cons.1 hmem with rfl | hmem
    · exact Or.inl rfl
    · exact Or.inr (Or.inr (numeral_of_digits hm c hmem))
  · next cs hcs =>
    obtain ⟨m, hm, -⟩ := Option.map_eq_some_iff.1 h
    rw [hcs] at hmem
    rcases List.mem_cons.1 hmem with rfl | hmem
    · exact Or.inr (Or.inl rfl)
    · exact Or.inr (Or.inr (numeral_of_digits hm c hmem))
  · next cs _ _ =>
    obtain ⟨m, hm, -⟩ := Option.map_eq_some_iff.1 h
    exact Or.inr (Or.inr (numeral_of_digits hm c hmem))

example : int " +1_0 " = some 10 ∧ int "-٣" = some (-3) ∧ int "1__0" = none ∧ int "sh" = none := by
  decide +kernel

end SonicBuildimage.Lib
