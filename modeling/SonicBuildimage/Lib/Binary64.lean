/-
  Doubles that are not negative, as rational numbers.

  Model.  `rnd q` is the double nearest to `q`, of two that are equally near the one with an even
  significand: 53 bits of significand, any exponent.  An arithmetic operation of doubles is the
  operation of rational numbers followed by `rnd`; what is not below `2 ^ 1024` then is an overflow
  (`Double` asks for both).  There are no subnormal numbers.

  Proved: `rnd_mul_zpow`, a number with a significand below `2 ^ 53` is its own double; hence
  `rnd_natCast` for the natural numbers up to `2 ^ 53`.  A natural number that is the floor of a
  double has at most 53 significant bits (`exists_of_floor_rnd`).
-/
import Mathlib

namespace SonicBuildimage.Lib.Binary64

/-- The exponent of the leading bit. -/
def exponent (q : ℚ) : ℤ :=
  let k : ℤ := (Nat.log2 q.num.natAbs : ℤ) - (Nat.log2 q.den : ℤ)
  if (2 : ℚ) ^ k ≤ q then k else k - 1

/-- The nearest integer, of two the even one. -/
def roundEven (x : ℚ) : ℤ :=
  let f := ⌊x⌋
  if x - f < 1 / 2 ∨ (x - f = 1 / 2 ∧ f % 2 = 0) then f else f + 1

def rnd (q : ℚ) : ℚ :=
  if q = 0 then 0
  else
    let ulp := (2 : ℚ) ^ (exponent q - 52)
    (roundEven (q / ulp) : ℚ) * ulp

@[simp] theorem roundEven_intCast (n : ℤ) : roundEven (n : ℚ) = n := by
  simp [roundEven]

theorem zpow_exponent_le {q : ℚ} (hq : 0 < q) : (2 : ℚ) ^ exponent q ≤ q := by
  simp only [exponent]
  split
  · assumption
  · have hnum : q.num.natAbs ≠ 0 := by
      rw [Int.natAbs_ne_zero]
      exact (Rat.num_pos.2 hq).ne'
    have hlow : (2 : ℚ) ^ Nat.log2 q.num.natAbs ≤ q.num := by
      have h := Nat.log2_self_le hnum
      have habs : ((q.num.natAbs : ℕ) : ℤ) = q.num := Int.natAbs_of_nonneg (Rat.num_pos.2 hq).le
      rw [← habs]
      exact_mod_cast h
    have hden : (q.den : ℚ) ≤ 2 ^ (Nat.log2 q.den + 1) := by
      exact_mod_cast (Nat.lt_log2_self (n := q.den)).le
    have hpos : (0 : ℚ) < q.den := by exact_mod_cast q.den_pos
    rw [sub_sub, zpow_sub₀ two_ne_zero, zpow_natCast]
    calc (2 : ℚ) ^ Nat.log2 q.num.natAbs / 2 ^ ((Nat.log2 q.den : ℤ) + 1)
        ≤ q.num / 2 ^ ((Nat.log2 q.den : ℤ) + 1) := by gcongr
      _ ≤ q.num / q.den := by
        have hle : (q.den : ℚ) ≤ (2 : ℚ) ^ ((Nat.log2 q.den : ℤ) + 1) := by exact_mod_cast hden
        have hnn : (0 : ℚ) ≤ q.num := by exact_mod_cast (Rat.num_pos.2 hq).le
        gcongr
      _ = q := Rat.num_div_den q

/-- What has at most 53 significant bits is a double. -/
theorem rnd_mul_zpow {m : ℕ} (hm : m < 2 ^ 53) (k : ℤ) : rnd (m * 2 ^ k) = m * 2 ^ k := by
  rcases Nat.eq_zero_or_pos m with rfl | hpos
  · simp [rnd]
  have hk : (0 : ℚ) < 2 ^ k := by positivity
  have hq : (0 : ℚ) < m * 2 ^ k := by positivity
  -- the unit in the last place is at most `2 ^ k`, so the number is a multiple of it
  have hexp : exponent (m * 2 ^ k) ≤ 52 + k := by
    have hlt : (2 : ℚ) ^ exponent (m * 2 ^ k) < 2 ^ (53 + k) := by
      refine (zpow_exponent_le hq).trans_lt ?_
      rw [zpow_add₀ two_ne_zero]
      have : (m : ℚ) < 2 ^ (53 : ℤ) := by exact_mod_cast hm
      gcongr
    have := (zpow_lt_zpow_iff_right₀ (one_lt_two : (1 : ℚ) < 2)).1 hlt
    omega
  obtain ⟨d, hd⟩ := Int.le.dest (show exponent (m * 2 ^ k) - 52 ≤ k by omega)
  have hulp : (m * 2 ^ k : ℚ) = ((m * 2 ^ d : ℕ) : ℤ) * 2 ^ (exponent (m * 2 ^ k) - 52) := by
    conv_lhs => rw [← hd, zpow_add₀ two_ne_zero, zpow_natCast]
    push_cast
    ring
  have hne : (2 : ℚ) ^ (exponent (m * 2 ^ k) - 52) ≠ 0 := by positivity
  simp only [rnd, if_neg hq.ne']
  rw [(div_eq_iff hne).2 hulp, roundEven_intCast, ← hulp]

theorem rnd_natCast {n : ℕ} (h : n ≤ 2 ^ 53) : rnd n = n := by
  rcases h.lt_or_eq with hlt | rfl
  · simpa using rnd_mul_zpow hlt 0
  · have := rnd_mul_zpow (m := 1) (by norm_num) 53
    norm_num at this ⊢
    exact this

/-- A natural number that is a double. -/
def Double (n : ℕ) : Prop := rnd n = n ∧ n < 2 ^ 1024

instance : DecidablePred Double := fun n => inferInstanceAs (Decidable (rnd n = n ∧ n < 2 ^ 1024))

theorem double_of_le {n : ℕ} (h : n ≤ 2 ^ 53) : Double n :=
  ⟨rnd_natCast h, lt_of_le_of_lt h (pow_lt_pow_right₀ one_lt_two (by norm_num))⟩

theorem lt_zpow_exponent {q : ℚ} (hq : 0 < q) : q < 2 ^ (exponent q + 1) := by
  have hnum : (q.num : ℚ) < 2 ^ ((Nat.log2 q.num.natAbs : ℤ) + 1) := by
    have h : q.num.natAbs < 2 ^ (Nat.log2 q.num.natAbs + 1) := Nat.lt_log2_self
    have habs : ((q.num.natAbs : ℕ) : ℤ) = q.num := Int.natAbs_of_nonneg (Rat.num_pos.2 hq).le
    rw [← habs]
    exact_mod_cast h
  have hden : (2 : ℚ) ^ (Nat.log2 q.den : ℤ) ≤ q.den := by
    exact_mod_cast Nat.log2_self_le q.den_pos.ne'
  have hbound : q < 2 ^ ((Nat.log2 q.num.natAbs : ℤ) - (Nat.log2 q.den : ℤ) + 1) := by
    rw [sub_add_eq_add_sub, zpow_sub₀ two_ne_zero, lt_div_iff₀ (by positivity)]
    calc q * 2 ^ (Nat.log2 q.den : ℤ) ≤ q * q.den := by gcongr
      _ = q.num := Rat.mul_den_eq_num q
      _ < _ := hnum
  simp only [exponent]
  split_ifs with h
  · exact hbound
  · rw [sub_add_cancel]
    exact not_le.1 h

/-- A double has a significand of 53 bits. -/
theorem exists_of_rnd {q : ℚ} (hq : 0 < q) :
    ∃ m : ℕ, m ≤ 2 ^ 53 ∧ rnd q = m * 2 ^ (exponent q - 52) := by
  have hulp : (0 : ℚ) < 2 ^ (exponent q - 52) := by positivity
  have hlt : q / 2 ^ (exponent q - 52) < 2 ^ 53 := by
    rw [div_lt_iff₀ hulp, ← zpow_natCast, ← zpow_add₀ two_ne_zero]
    have hexp : ((53 : ℕ) : ℤ) + (exponent q - 52) = exponent q + 1 := by
      push_cast
      ring
    rw [hexp]
    exact lt_zpow_exponent hq
  have hfloor : ⌊q / 2 ^ (exponent q - 52)⌋ < 2 ^ 53 := by
    rw [Int.floor_lt]
    exact_mod_cast hlt
  have hnonneg : 0 ≤ ⌊q / 2 ^ (exponent q - 52)⌋ := Int.floor_nonneg.2 (by positivity)
  have hround : 0 ≤ roundEven (q / 2 ^ (exponent q - 52)) ∧
      roundEven (q / 2 ^ (exponent q - 52)) ≤ 2 ^ 53 := by
    simp only [roundEven]
    split_ifs
    · omega
    · omega
  refine ⟨(roundEven (q / 2 ^ (exponent q - 52))).toNat, by omega, ?_⟩
  have hcast : ((roundEven (q / 2 ^ (exponent q - 52))).toNat : ℚ) =
      roundEven (q / 2 ^ (exponent q - 52)) := by
    exact_mod_cast Int.toNat_of_nonneg hround.1
  rw [rnd, if_neg hq.ne', hcast]

theorem rnd_nonpos {q : ℚ} (hq : q ≤ 0) : rnd q ≤ 0 := by
  rw [rnd]
  split_ifs with h0
  · exact le_rfl
  have hneg : q / 2 ^ (exponent q - 52) < 0 :=
    div_neg_of_neg_of_pos (lt_of_le_of_ne hq h0) (by positivity)
  have hfloor : ⌊q / 2 ^ (exponent q - 52)⌋ < 0 := Int.floor_lt.2 (by exact_mod_cast hneg)
  have hround : roundEven (q / 2 ^ (exponent q - 52)) ≤ 0 := by
    simp only [roundEven]
    split_ifs
    · omega
    · omega
  exact mul_nonpos_of_nonpos_of_nonneg (by exact_mod_cast hround) (by positivity)

/-- A large natural number that is the floor of a double is `m * 2 ^ k`. -/
theorem exists_of_floor_rnd {q : ℚ} {n : ℕ} (hq : 0 < q) (h : ⌊rnd q⌋ = n) (hn : 2 ^ 53 < n) :
    ∃ m k : ℕ, m ≤ 2 ^ 53 ∧ n = m * 2 ^ k := by
  obtain ⟨m, hm, heq⟩ := exists_of_rnd hq
  rw [heq] at h
  rcases le_or_gt 0 (exponent q - 52) with hk | hk
  · obtain ⟨k, hk⟩ := Int.eq_ofNat_of_zero_le hk
    rw [hk, zpow_natCast] at h
    refine ⟨m, k, hm, ?_⟩
    have hcast : (m * 2 ^ k : ℚ) = ((m * 2 ^ k : ℤ) : ℚ) := by push_cast; ring
    rw [hcast, Int.floor_intCast] at h
    exact_mod_cast h.symm
  · -- a fraction of a significand is too small
    have hle : (m * 2 ^ (exponent q - 52) : ℚ) ≤ m :=
      mul_le_of_le_one_right (by positivity) (zpow_le_one_of_nonpos₀ (by norm_num) hk.le)
    have hfloor : (n : ℤ) ≤ m := h ▸ (Int.floor_mono hle).trans (by simp)
    omega

end SonicBuildimage.Lib.Binary64
