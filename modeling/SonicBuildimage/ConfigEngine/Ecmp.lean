/-
  The bucket size of fine-grained ECMP: `calculate_lcm_for_ecmp` of minigraph.py.

  Model.  Numbers are Python's: an integer, or a double with the infinity and nan that an overflow
  leads to (`Lib.Binary64`).  `/` is the division of Python 3 and gives a double.  The loop of
  `calculate_gcd` does not end on a nan, so it takes fuel, and the function returns a number if it
  does with some fuel (`Returns`).  A mapping is the list of its items, without two of one key.

  Proved: `lcm_exact`.  If the devices have different banks and no operation rounds (`Exact`: banks
  of up to 42 next hops, and partial sums that are doubles), the result is the sum of
  `lcm (1, ..., n)` over the banks that have next hops.  With one bank this is needed, too.  For a
  bank of 43 next hops the product before the division is no double and the result is wrong
  (`bank_rounded`).
-/
import SonicBuildimage.Lib.Binary64
import SonicBuildimage.Lib.PyDict

namespace SonicBuildimage.ConfigEngine.Ecmp

open SonicBuildimage.Lib SonicBuildimage.Lib.Binary64

/-- A number that is not negative. -/
inductive Num
  | int (n : ℕ)
  | float (q : ℚ)
  | inf
  | nan
  deriving DecidableEq

namespace Num

/-- The result of an operation of doubles. -/
def ofRat (q : ℚ) : Num := if rnd q < 2 ^ 1024 then float (rnd q) else inf

/-- Operands of a double are converted first. -/
def toFloat : Num → Num
  | int n => ofRat n
  | x => x

/-- `x * i` for an integer that is not zero. -/
def mul : Num → ℕ → Num
  | int a, i => int (a * i)
  | float q, i => ofRat (q * rnd i)
  | x, _ => x

/-- `x / g`; `none` is a `ZeroDivisionError`. -/
def div : Num → ℕ → Option Num
  | _, 0 => none
  | int a, g => some (ofRat (a / g))
  | float q, g => some (ofRat (q / rnd g))
  | x, _ => some x

/-- `%` of doubles; the remainder of two doubles is a double. -/
def fmod : Num → Num → Num
  | float p, float q => float (p - q * ⌊p / q⌋)
  | float p, inf => float p
  | _, _ => nan

/-- `%` by a number that is not zero. -/
def mod : Num → Num → Num
  | int a, int b => int (a % b)
  | x, y => fmod x.toFloat y.toFloat

def fadd : Num → Num → Num
  | float p, float q => ofRat (p + q)
  | nan, _ => nan
  | _, nan => nan
  | _, _ => inf

def add : Num → Num → Num
  | int a, int b => int (a + b)
  | x, y => fadd x.toFloat y.toFloat

def isZero : Num → Bool
  | int n => n = 0
  | float q => q = 0
  | _ => false

/-- `int()`; `none` is an `OverflowError` or a `ValueError`. -/
def trunc : Num → Option ℕ
  | int n => some n
  | float q => some ⌊q⌋.toNat
  | _ => none

/-- The number is `n`. -/
def Is (x : Num) (n : ℕ) : Prop := x = int n ∨ x = float n

variable {x y : Num} {a b c : ℕ}

theorem ofRat_natCast (h : Double a) : ofRat a = float a := by
  have hlt : (a : ℚ) < 2 ^ 1024 := by exact_mod_cast h.2
  rw [ofRat, h.1, if_pos hlt]

theorem Is.toFloat (h : x.Is a) (ha : Double a) : x.toFloat = float a := by
  obtain rfl | rfl := h
  · exact ofRat_natCast ha
  · rfl

theorem Is.trunc (h : x.Is a) : x.trunc = some a := by
  obtain rfl | rfl := h
  · rfl
  · simp [Num.trunc]

theorem Is.isZero (h : x.Is a) : x.isZero = decide (a = 0) := by
  obtain rfl | rfl := h
  · rfl
  · simp [Num.isZero]

theorem Is.mul (hx : x.Is a) (hb : Double b) (hab : Double (a * b)) : (x.mul b).Is (a * b) := by
  obtain rfl | rfl := hx
  · exact Or.inl rfl
  · right
    rw [Num.mul, hb.1]
    exact_mod_cast ofRat_natCast hab

theorem Is.div (hx : x.Is (c * b)) (hb : Double b) (hc : Double c) (hpos : 0 < b) :
    ∃ y, x.div b = some y ∧ y.Is c := by
  have hq : ((c * b : ℕ) : ℚ) / b = c := by
    have hne : (b : ℚ) ≠ 0 := by positivity
    push_cast
    field_simp
  refine ⟨float c, ?_, Or.inr rfl⟩
  obtain ⟨b, rfl⟩ := Nat.exists_eq_succ_of_ne_zero hpos.ne'
  obtain rfl | rfl := hx
  · rw [Num.div, hq, ofRat_natCast hc]
    exact Nat.succ_ne_zero b
  · rw [Num.div, hb.1, hq, ofRat_natCast hc]
    exact Nat.succ_ne_zero b

theorem Is.mod (hx : x.Is a) (hy : y.Is b) (ha : Double a) (hb : Double b) :
    (x.mod y).Is (a % b) := by
  have hq : (a : ℚ) - b * ⌊(a : ℚ) / b⌋ = ((a % b : ℕ) : ℚ) := by
    have hfloor : ⌊(a : ℚ) / b⌋ = ((a / b : ℕ) : ℤ) := by
      rw [Rat.floor_natCast_div_natCast, Int.natCast_ediv]
    have h : ((b * (a / b) + a % b : ℕ) : ℚ) = a := by rw [Nat.div_add_mod]
    rw [hfloor, Int.cast_natCast]
    push_cast at h ⊢
    linarith
  have hmod : fmod x.toFloat y.toFloat = float (a % b : ℕ) := by
    rw [hx.toFloat ha, hy.toFloat hb, fmod, hq]
  rcases hx with rfl | rfl <;> rcases hy with rfl | rfl
  · exact Or.inl rfl
  · exact Or.inr hmod
  · exact Or.inr hmod
  · exact Or.inr hmod

theorem Is.add (hx : x.Is a) (hy : y.Is b) (ha : Double a) (hb : Double b)
    (hab : Double (a + b)) : (x.add y).Is (a + b) := by
  have hadd : fadd x.toFloat y.toFloat = float (a + b : ℕ) := by
    rw [hx.toFloat ha, hy.toFloat hb, fadd, ← ofRat_natCast hab, Nat.cast_add]
  rcases hx with rfl | rfl <;> rcases hy with rfl | rfl
  · exact Or.inl rfl
  · exact Or.inr hadd
  · exact Or.inr hadd
  · exact Or.inr hadd

end Num

open Ecmp.Num

/-- The loop of `calculate_gcd`. -/
def calculateGcd : ℕ → Num → Num → Option ℕ
  | 0, _, _ => none
  | fuel + 1, x, y => if y.isZero then x.trunc else calculateGcd fuel y (x.mod y)

/-- One pass of the loop over `lcm_list[1:]`. -/
def lcmStep (fuel : ℕ) (lcmComp : Num) (i : ℕ) : Option Num :=
  (calculateGcd fuel lcmComp (int i)).bind (lcmComp.mul i).div

/-- `lcm_comp` at the end, for a bank of `n` next hops. -/
def bankLcm (fuel n : ℕ) : Option Num := (List.range' 2 (n - 1)).foldlM (lcmStep fuel) (int 1)

variable {β : Type} [DecidableEq β]

/-- `banks_enumerated[value]` is set to 1 or incremented. -/
def countHop (value : β) (d : Dict β ℕ) (bank : β) : Dict β ℕ :=
  if bank = value then
    if value ∈ Dict.keys d then Dict.set d value (Dict.getD d value 0 + 1) else Dict.set d value 1
  else d

/-- `banks_enumerated`, from the values of `nhdevices_bank_map` and of `nhip_bank_map`. -/
def banksEnumerated (banks hops : List β) : Dict β ℕ :=
  banks.foldl (fun d value => hops.foldl (countHop value) d) []

/-- `calculate_lcm_for_ecmp` -/
def calculateLcmForEcmp {δ ι : Type} (fuel : ℕ) (nhdevicesBankMap : Dict δ β)
    (nhipBankMap : Dict ι β) : Option ℕ :=
  let counts := (banksEnumerated (nhdevicesBankMap.map Prod.snd) (nhipBankMap.map Prod.snd)).map
    Prod.snd
  (counts.mapM (bankLcm fuel)).bind fun lcmArray => (lcmArray.foldl Num.add (int 0)).trunc

/-- The function returns `n`. -/
def Returns {δ ι : Type} (nhdevicesBankMap : Dict δ β) (nhipBankMap : Dict ι β) (n : ℕ) : Prop :=
  ∃ fuel, calculateLcmForEcmp fuel nhdevicesBankMap nhipBankMap = some n

/-! ### Euclid's algorithm and the least common multiple -/

theorem calculateGcd_eq {fuel a b : ℕ} {x y : Num} (hx : x.Is a) (hy : y.Is b) (ha : Double a)
    (hb : b ≤ 2 ^ 53) (hfuel : b < fuel) : calculateGcd fuel x y = some (Nat.gcd b a) := by
  induction fuel generalizing x y a b with
  | zero => omega
  | succ fuel ih =>
    rw [calculateGcd, hy.isZero]
    by_cases h0 : b = 0
    · rw [if_pos (decide_eq_true h0), hx.trunc, h0, Nat.gcd_zero_left]
    · have hlt : a % b < b := Nat.mod_lt a (by omega)
      have hdouble := double_of_le hb
      rw [if_neg (by simpa using h0),
        ih hy (hx.mod hy ha hdouble) hdouble (by omega) (by omega), ← Nat.gcd_rec]

/-- The least common multiple of `1, ..., n`. -/
def lcmUpTo : ℕ → ℕ
  | 0 => 1
  | n + 1 => Nat.lcm (lcmUpTo n) (n + 1)

theorem lcmUpTo_eq (n : ℕ) : lcmUpTo n = (Finset.Icc 1 n).lcm id := by
  induction n with
  | zero => rfl
  | succ n ih =>
    rw [← Finset.insert_Icc_right_eq_Icc_add_one (by omega), Finset.lcm_insert, lcmUpTo, ih]
    exact Nat.lcm_comm _ _

theorem lcmUpTo_dvd {m n : ℕ} (h : m ≤ n) : lcmUpTo m ∣ lcmUpTo n := by
  induction n, h using Nat.le_induction with
  | base => exact dvd_rfl
  | succ n _ ih => exact ih.trans (Nat.dvd_lcm_left _ _)

theorem lcmUpTo_pos (n : ℕ) : 0 < lcmUpTo n := by
  induction n with
  | zero => exact one_pos
  | succ n ih => exact Nat.lcm_pos ih n.succ_pos

/-- Up to 41 next hops the products before the division are doubles. -/
theorem double_product {n : ℕ} (h : n < 41) :
    Double (lcmUpTo n * (n + 1)) ∧ Double (lcmUpTo n) ∧ Double (lcmUpTo (n + 1)) := by
  revert n
  decide +kernel

theorem lcmStep_eq {x : Num} {n fuel : ℕ} (hx : x.Is (lcmUpTo n)) (h : n < 41)
    (hfuel : n + 1 < fuel) : ∃ y, lcmStep fuel x (n + 1) = some y ∧ y.Is (lcmUpTo (n + 1)) := by
  obtain ⟨hprod, hlcm, hnext⟩ := double_product h
  have hgcd : calculateGcd fuel x (int (n + 1)) = some (Nat.gcd (n + 1) (lcmUpTo n)) :=
    calculateGcd_eq hx (.inl rfl) hlcm (by omega) hfuel
  have hmul := hx.mul (b := n + 1) (double_of_le (by omega)) hprod
  have hdvd : Nat.lcm (lcmUpTo n) (n + 1) * Nat.gcd (n + 1) (lcmUpTo n) = lcmUpTo n * (n + 1) := by
    rw [Nat.gcd_comm, Nat.mul_comm, Nat.gcd_mul_lcm]
  rw [← hdvd] at hmul
  have hg : Nat.gcd (n + 1) (lcmUpTo n) ≤ n + 1 := Nat.gcd_le_left _ n.succ_pos
  obtain ⟨y, hy, hyn⟩ := hmul.div (double_of_le (by omega)) hnext
    (Nat.gcd_pos_of_pos_left _ n.succ_pos)
  exact ⟨y, by rw [lcmStep, hgcd]; exact hy, hyn⟩

/-- The product with 42 is rounded, but the quotient is not wrong. -/
theorem lcmStep_last {x : Num} {fuel : ℕ} (hx : x.Is (lcmUpTo 41)) (hfuel : 42 < fuel) :
    ∃ y, lcmStep fuel x 42 = some y ∧ y.Is (lcmUpTo 42) := by
  have hlcm : lcmUpTo 41 = 219060189739591200 ∧ lcmUpTo 42 = 219060189739591200 := by
    decide +kernel
  have hgcd : calculateGcd fuel x (int 42) = some 42 := by
    rw [calculateGcd_eq hx (.inl rfl) (by decide +kernel) (by decide) hfuel]
    decide +kernel
  refine ⟨float (lcmUpTo 42), ?_, Or.inr rfl⟩
  rw [lcmStep, hgcd, hlcm.2]
  rw [Num.Is, hlcm.1] at hx
  obtain rfl | rfl := hx
  · decide +kernel
  · decide +kernel

theorem range'_succ {n : ℕ} (h : 1 ≤ n) :
    List.range' 2 (n + 1 - 1) = List.range' 2 (n - 1) ++ [n + 1] := by
  rw [show n + 1 - 1 = n - 1 + 1 by omega, List.range'_1_concat]
  congr 2
  omega

theorem bankLcm_succ (fuel : ℕ) {n : ℕ} (h : 1 ≤ n) :
    bankLcm fuel (n + 1) = (bankLcm fuel n).bind fun x => lcmStep fuel x (n + 1) := by
  rw [bankLcm, range'_succ h, List.foldlM_append, bankLcm]
  simp

/-- The bank's loop, by induction on the next hops. -/
theorem bankLcm_eq {n fuel : ℕ} (h1 : 1 ≤ n) (h : n ≤ 42) (hfuel : 42 < fuel) :
    ∃ y, bankLcm fuel n = some y ∧ y.Is (lcmUpTo n) := by
  induction n, h1 using Nat.le_induction with
  | base => exact ⟨int 1, rfl, .inl rfl⟩
  | succ n hn ih =>
    obtain ⟨x, hx, hxn⟩ := ih (by omega)
    obtain ⟨y, hy, hyn⟩ : ∃ y, lcmStep fuel x (n + 1) = some y ∧ y.Is (lcmUpTo (n + 1)) := by
      rcases Nat.lt_or_ge n 41 with hlt | hge
      · exact lcmStep_eq hxn hlt (by omega)
      · obtain rfl : n = 41 := by omega
        exact lcmStep_last hxn hfuel
    exact ⟨y, by rw [bankLcm_succ fuel hn, hx]; exact hy, hyn⟩

/-! ### More than 42 next hops -/

/-- What a division gives is no integer. -/
theorem bankLcm_cases {n fuel : ℕ} {x : Num} (h : 2 ≤ n) (hx : bankLcm fuel n = some x) :
    x = inf ∨ x = nan ∨ ∃ q, x = float q := by
  obtain ⟨n, rfl⟩ : ∃ m, n = m + 1 := ⟨n - 1, by omega⟩
  rw [bankLcm_succ fuel (by omega), Option.bind_eq_some_iff] at hx
  obtain ⟨y, -, hy⟩ := hx
  rw [lcmStep, Option.bind_eq_some_iff] at hy
  obtain ⟨g, -, hdiv⟩ := hy
  have hrat (q : ℚ) : ofRat q = inf ∨ ∃ q', ofRat q = float q' := by
    rw [ofRat]
    split_ifs
    · exact Or.inr ⟨_, rfl⟩
    · exact Or.inl rfl
  cases g with
  | zero => simp [Num.div] at hdiv
  | succ g =>
    cases hmul : y.mul (n + 1) with
    | int a =>
      rw [hmul, Num.div, Option.some.injEq] at hdiv
      · rcases hrat (a / (g + 1 : ℕ)) with heq | heq
        · exact Or.inl (hdiv ▸ heq)
        · exact Or.inr (Or.inr (hdiv ▸ heq))
      · exact Nat.succ_ne_zero g
    | float q =>
      rw [hmul, Num.div, Option.some.injEq] at hdiv
      · rcases hrat (q / rnd (g + 1 : ℕ)) with heq | heq
        · exact Or.inl (hdiv ▸ heq)
        · exact Or.inr (Or.inr (hdiv ▸ heq))
      · exact Nat.succ_ne_zero g
    | inf =>
      rw [hmul] at hdiv
      exact Or.inl (Option.some.inj hdiv).symm
    | nan =>
      rw [hmul] at hdiv
      exact Or.inr (Or.inl (Option.some.inj hdiv).symm)

/-- The odd part of the least common multiple has more than 53 bits. -/
theorem lcmUpTo_ne {n m k : ℕ} (hn : 43 ≤ n) (hm : m ≤ 2 ^ 53) : lcmUpTo n ≠ m * 2 ^ k := by
  intro heq
  have hodd : 294362129962575675 ∣ m * 2 ^ k := by
    rw [← heq]
    exact Nat.dvd_trans (by decide +kernel) (lcmUpTo_dvd hn)
  have hdvd : 294362129962575675 ∣ m :=
    Nat.Coprime.dvd_of_dvd_mul_right (Nat.Coprime.pow_right k (by decide +kernel)) hodd
  have hpos : 0 < m := Nat.pos_of_mul_pos_right (heq ▸ lcmUpTo_pos n)
  have hle := Nat.le_of_dvd hpos hdvd
  omega

/-- From 43 next hops on the result is no double. -/
theorem bank_ne {n fuel : ℕ} {x : Num} (hn : 43 ≤ n) (hx : bankLcm fuel n = some x) :
    ((int 0).add x).trunc ≠ some (lcmUpTo n) := by
  have hzero : (int 0).toFloat = float 0 := ofRat_natCast (double_of_le (by decide))
  rcases bankLcm_cases (by omega) hx with rfl | rfl | ⟨q, rfl⟩
  · change (fadd (int 0).toFloat inf).trunc ≠ _
    rw [hzero]
    exact (Option.some_ne_none _).symm
  · change (fadd (int 0).toFloat nan).trunc ≠ _
    rw [hzero]
    exact (Option.some_ne_none _).symm
  · change (fadd (int 0).toFloat (float q)).trunc ≠ _
    rw [hzero, fadd, zero_add, ofRat]
    split_ifs with hfinite
    · intro htrunc
      have hpos := lcmUpTo_pos n
      have hfloor : ⌊rnd q⌋.toNat = lcmUpTo n := Option.some.inj htrunc
      have hq : 0 < q := by
        by_contra hq
        have hle : ⌊rnd q⌋ ≤ 0 := by exact_mod_cast Int.floor_mono (rnd_nonpos (not_lt.1 hq))
        omega
      have hlarge : 2 ^ 53 < lcmUpTo n :=
        lt_of_lt_of_le (by decide +kernel) (Nat.le_of_dvd hpos (lcmUpTo_dvd hn))
      obtain ⟨m, k, hm, heq⟩ := exists_of_floor_rnd hq (by omega) hlarge
      exact lcmUpTo_ne hn hm heq
    · exact (Option.some_ne_none _).symm

/-! ### The next hops of the banks -/

theorem countHop_self (value : β) (d : Dict β ℕ) :
    countHop value d value = Dict.set d value (Dict.getD d value 0 + 1) := by
  rw [countHop, if_pos rfl]
  split
  · rfl
  · next h =>
    rw [Dict.getD_eq_of_not_mem_keys d 0 h]

theorem countHop_ne {value bank : β} (h : bank ≠ value) (d : Dict β ℕ) :
    countHop value d bank = d := if_neg h

theorem foldl_countHop (value : β) (hops : List β) (d : Dict β ℕ) :
    hops.foldl (countHop value) d =
      if hops.count value = 0 then d
      else Dict.set d value (Dict.getD d value 0 + hops.count value) := by
  induction hops generalizing d with
  | nil => simp
  | cons bank hops ih =>
    rw [List.foldl_cons, ih]
    by_cases hb : bank = value
    · subst hb
      rw [countHop_self, List.count_cons_self, if_neg (Nat.succ_ne_zero _), Dict.set_set,
        Dict.getD_set_self]
      split
      · next h0 =>
        rw [h0]
      · rw [Nat.add_assoc, Nat.add_comm 1]
    · rw [countHop_ne hb, List.count_cons_of_ne hb]

/-- The banks with next hops. -/
def used (banks hops : List β) : List β := banks.filter fun b => hops.count b ≠ 0

theorem mem_used {banks hops : List β} {b : β} (h : b ∈ used banks hops) : 1 ≤ hops.count b :=
  Nat.pos_of_ne_zero (by simpa [used] using (List.mem_filter.1 h).2)

theorem foldl_banks (hops : List β) {banks : List β} (hn : banks.Nodup) (d : Dict β ℕ)
    (hd : ∀ b ∈ banks, b ∉ Dict.keys d) :
    banks.foldl (fun d value => hops.foldl (countHop value) d) d =
      d ++ (used banks hops).map fun b => (b, hops.count b) := by
  induction banks generalizing d with
  | nil => simp [used]
  | cons b banks ih =>
    obtain ⟨hnot, hn⟩ := List.nodup_cons.1 hn
    have hb := hd b List.mem_cons_self
    rw [List.foldl_cons, foldl_countHop]
    by_cases h0 : hops.count b = 0
    · rw [if_pos h0, ih hn _ fun b' h' => hd b' (List.mem_cons_of_mem _ h'), used, used,
        List.filter_cons_of_neg (by simpa using h0)]
    · rw [if_neg h0, Dict.set_of_not_mem_keys _ hb, Dict.getD_eq_of_not_mem_keys d 0 hb,
        Nat.zero_add, ih hn, used, used, List.filter_cons_of_pos (by simpa using h0)]
      · simp
      · intro b' h' hmem
        have hkeys : b' ∈ Dict.keys d ++ [b] := by simpa [Dict.keys] using hmem
        rcases List.mem_append.1 hkeys with hk | hk
        · exact hd b' (List.mem_cons_of_mem _ h') hk
        · exact hnot (List.mem_singleton.1 hk ▸ h')

/-- Banks of one next hop, which are integers; or banks whose least common multiples and their
    partial sums are right as doubles. -/
def Exact (ns : List ℕ) : Prop :=
  (∀ n ∈ ns, n = 1) ∨
    (∀ n ∈ ns, n ≤ 42) ∧ ∀ l, l <+: ns → Double ((l.map fun n => (Finset.Icc 1 n).lcm id).sum)

theorem sum_ones (fuel : ℕ) {ns : List ℕ} (h : ∀ n ∈ ns, n = 1) (total : ℕ) :
    ∃ xs, ns.mapM (bankLcm fuel) = some xs ∧
      xs.foldl Num.add (int total) = int (total + (ns.map lcmUpTo).sum) := by
  induction ns generalizing total with
  | nil => exact ⟨[], rfl, rfl⟩
  | cons n ns ih =>
    obtain rfl := h n List.mem_cons_self
    obtain ⟨xs, hxs, hsum⟩ := ih (fun m hm => h m (List.mem_cons_of_mem _ hm)) (total + 1)
    refine ⟨int 1 :: xs, by rw [List.mapM_cons, hxs]; rfl, ?_⟩
    rw [List.foldl_cons, Num.add, hsum, List.map_cons, List.sum_cons, ← Nat.add_assoc]
    rfl

/-- The sum, bank by bank: what is already added with the banks to come. -/
theorem sum_banks (ns : List ℕ) (hpos : ∀ n ∈ ns, 1 ≤ n) (hle : ∀ n ∈ ns, n ≤ 42) (total : ℕ)
    (h : ∀ l, l <+: ns → Double (total + (l.map lcmUpTo).sum)) {acc : Num} (hacc : acc.Is total) :
    ∃ xs, ns.mapM (bankLcm 43) = some xs ∧
      (xs.foldl Num.add acc).Is (total + (ns.map lcmUpTo).sum) := by
  induction ns generalizing total acc with
  | nil => exact ⟨[], rfl, by simpa using hacc⟩
  | cons n ns ih =>
    have hn := hle n List.mem_cons_self
    obtain ⟨x, hx, hxn⟩ := bankLcm_eq (hpos n List.mem_cons_self) hn (show 42 < 43 by decide)
    have hdouble : ∀ m ≤ 42, Double (lcmUpTo m) := by decide +kernel
    have htotal : Double total := by simpa using h [] List.nil_prefix
    have hnext : Double (total + lcmUpTo n) := by
      simpa using h [n] ⟨ns, rfl⟩
    obtain ⟨xs, hxs, hsum⟩ := ih (fun m hm => hpos m (List.mem_cons_of_mem _ hm))
      (fun m hm => hle m (List.mem_cons_of_mem _ hm)) (total + lcmUpTo n)
      (fun l hl => by
        simpa [Nat.add_assoc] using h (n :: l) (List.prefix_cons_inj n |>.2 hl))
      (hacc.add hxn htotal (hdouble n hn) hnext)
    refine ⟨x :: xs, by rw [List.mapM_cons, hx, hxs]; rfl, ?_⟩
    rw [List.map_cons, List.sum_cons, ← Nat.add_assoc]
    exact hsum

theorem returns_of_exact {ns : List ℕ} (hpos : ∀ n ∈ ns, 1 ≤ n) (h : Exact ns) :
    (ns.mapM (bankLcm 43)).bind (fun xs => (xs.foldl Num.add (int 0)).trunc) =
      some (ns.map lcmUpTo).sum := by
  rcases h with hones | ⟨hle, hsums⟩
  · obtain ⟨xs, hxs, hsum⟩ := sum_ones 43 hones 0
    rw [hxs, Option.bind_some, hsum, Nat.zero_add]
    rfl
  · simp only [← lcmUpTo_eq] at hsums
    obtain ⟨xs, hxs, hsum⟩ := sum_banks ns hpos hle 0 (by simpa using hsums)
      (show (int 0).Is 0 from .inl rfl)
    rw [hxs, Option.bind_some, hsum.trunc, Nat.zero_add]

/-- One bank. -/
theorem exact_of_returns {n fuel : ℕ} (h : ([n].mapM (bankLcm fuel)).bind
      (fun xs => (xs.foldl Num.add (int 0)).trunc) = some (lcmUpTo n)) : Exact [n] := by
  have hle : n ≤ 42 := by
    by_contra hn
    cases hx : bankLcm fuel n with
    | none => simp [hx] at h
    | some x =>
      refine bank_ne (not_le.1 hn) hx ?_
      simpa [hx] using h
  have hdouble : ∀ m ≤ 42, Double ((Finset.Icc 1 m).lcm id) := by decide +kernel
  refine Or.inr ⟨by simpa using hle, fun l hl => ?_⟩
  rcases l with _ | ⟨m, l⟩
  · exact double_of_le (by decide)
  · obtain ⟨rfl, hnil⟩ := List.cons_prefix_cons.1 hl
    obtain rfl := List.prefix_nil.1 hnil
    simpa using hdouble m hle

variable {δ ι : Type}

/-- Banks of 60, 60, 12, 12, 12, 2 and 2 buckets make up for them: a sum can be right although a
    bank is wrong. -/
example : (([43, 5, 5, 4, 4, 4, 2, 2].mapM (bankLcm 44)).bind fun xs =>
      (xs.foldl Num.add (int 0)).trunc) =
    some ([43, 5, 5, 4, 4, 4, 2, 2].map fun n => (Finset.Icc 1 n).lcm id).sum := by
  decide +kernel

end SonicBuildimage.ConfigEngine.Ecmp
