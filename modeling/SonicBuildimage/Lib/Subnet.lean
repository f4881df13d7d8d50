/-
  Networks of addresses of `w` bits.

  A network is an address and a length; the bits behind the length are zero (`aligned`).  `Covers`:
  one network lies in another.  `band base lo hi` are the networks in `base` with a length between
  `lo` and `hi`.

  `band_inj`: if the lengths start at that of the network or later, the set determines the network
  and the two lengths.
-/
import Mathlib.Data.Set.Basic
import Mathlib.Tactic.Ring

namespace SonicBuildimage.Lib

/-- A network of addresses of `w` bits. -/
@[ext] structure Subnet (w : Nat) where
  addr : Nat
  len : Nat
  len_le : len ≤ w
  addr_lt : addr < 2 ^ w
  aligned : 2 ^ (w - len) ∣ addr

namespace Subnet

variable {w : Nat}

/-- The first `len` bits of two addresses are the same. -/
def SameBits (w len a b : Nat) : Prop := a / 2 ^ (w - len) = b / 2 ^ (w - len)

/-- `p` lies in `base`. -/
def Covers (base p : Subnet w) : Prop := base.len ≤ p.len ∧ SameBits w base.len base.addr p.addr

/-- The networks in `base` with a length from `lo` to `hi`. -/
def band (base : Subnet w) (lo hi : Nat) : Set (Subnet w) :=
  {p | base.Covers p ∧ lo ≤ p.len ∧ p.len ≤ hi}

/-- The network of an address. -/
def ofAddr (addr len : Nat) (haddr : addr < 2 ^ w) (hlen : len ≤ w) : Subnet w where
  addr := addr / 2 ^ (w - len) * 2 ^ (w - len)
  len := len
  len_le := hlen
  addr_lt := Nat.lt_of_le_of_lt (Nat.div_mul_le_self _ _) haddr
  aligned := Nat.dvd_mul_left _ _

theorem sameBits_ofAddr {addr len : Nat} (haddr : addr < 2 ^ w) (hlen : len ≤ w) :
    SameBits w len (ofAddr addr len haddr hlen).addr addr :=
  Nat.mul_div_cancel _ (Nat.two_pow_pos _)

/-- The network with the same address and a greater length. -/
def extend (p : Subnet w) (len : Nat) (h : p.len ≤ len) (hlen : len ≤ w) : Subnet w where
  addr := p.addr
  len := len
  len_le := hlen
  addr_lt := p.addr_lt
  aligned := dvd_trans (Nat.pow_dvd_pow 2 (by omega)) p.aligned

theorem extend_mem_band {base : Subnet w} {lo hi len : Nat} (h : base.len ≤ len) (hlen : len ≤ w)
    (hlo : lo ≤ len) (hhi : len ≤ hi) : base.extend len h hlen ∈ base.band lo hi :=
  ⟨⟨h, rfl⟩, hlo, hhi⟩

/-- The first bit behind the network set, in a longer network. -/
def sibling (p : Subnet w) (len : Nat) (h : p.len < len) (hlen : len ≤ w) : Subnet w where
  addr := p.addr + 2 ^ (w - p.len - 1)
  len := len
  len_le := hlen
  addr_lt := by
    obtain ⟨k, hk⟩ := p.aligned
    have hpow : 2 ^ w = 2 ^ (w - p.len) * 2 ^ p.len := by
      rw [← Nat.pow_add]
      congr 1
      omega
    have hlt := p.addr_lt
    rw [hk, hpow] at hlt
    have hk' : k + 1 ≤ 2 ^ p.len := Nat.lt_of_mul_lt_mul_left hlt
    have hhalf : 2 ^ (w - p.len - 1) < 2 ^ (w - p.len) :=
      Nat.pow_lt_pow_right (by decide) (by omega)
    calc p.addr + 2 ^ (w - p.len - 1)
        < 2 ^ (w - p.len) * k + 2 ^ (w - p.len) := by omega
      _ = 2 ^ (w - p.len) * (k + 1) := by ring
      _ ≤ 2 ^ (w - p.len) * 2 ^ p.len := Nat.mul_le_mul_left _ hk'
      _ = 2 ^ w := hpow.symm
  aligned := by
    refine Nat.dvd_add (dvd_trans (Nat.pow_dvd_pow 2 (by omega)) p.aligned) ?_
    exact Nat.pow_dvd_pow 2 (by omega)

theorem sibling_mem_band {base : Subnet w} {lo hi len : Nat} (h : base.len < len) (hlen : len ≤ w)
    (hlo : lo ≤ len) (hhi : len ≤ hi) : base.sibling len h hlen ∈ base.band lo hi := by
  refine ⟨⟨Nat.le_of_lt h, ?_⟩, hlo, hhi⟩
  obtain ⟨k, hk⟩ := base.aligned
  have hhalf : 2 ^ (w - base.len - 1) < 2 ^ (w - base.len) :=
    Nat.pow_lt_pow_right (by decide) (by omega)
  change base.addr / _ = (base.addr + 2 ^ (w - base.len - 1)) / _
  rw [hk, Nat.mul_div_cancel_left _ (Nat.two_pow_pos _), Nat.mul_add_div (Nat.two_pow_pos _),
    Nat.div_eq_of_lt hhalf, Nat.add_zero]

/-- The bit of the sibling is one of the first `len` bits. -/
theorem not_sameBits_sibling {base : Subnet w} {len len' : Nat} (h : base.len < len)
    (hlen : len ≤ w)
    (hlen' : base.len < len') (hw : len' ≤ w) :
    ¬SameBits w len' base.addr (base.sibling len h hlen).addr := by
  intro hsame
  have hpow : 2 ^ (w - base.len - 1) = 2 ^ (w - len') * 2 ^ (len' - base.len - 1) := by
    rw [← Nat.pow_add]
    congr 1
    omega
  change base.addr / _ = (base.addr + 2 ^ (w - base.len - 1)) / _ at hsame
  rw [hpow, Nat.add_mul_div_left _ _ (Nat.two_pow_pos _)] at hsame
  have hpos := Nat.two_pow_pos (len' - base.len - 1)
  omega

theorem eq_of_sameBits {p q : Subnet w} (hlen : p.len = q.len)
    (h : SameBits w p.len p.addr q.addr) :
    p = q := by
  refine Subnet.ext ?_ hlen
  have hp := Nat.div_mul_cancel p.aligned
  have hq := Nat.div_mul_cancel q.aligned
  rw [SameBits] at h
  rw [← hp, ← hq, h, hlen]

/-- One half of `band_inj`. -/
theorem lens_of_band_subset {base base' : Subnet w} {lo hi lo' hi' : Nat} (hbase : base.len ≤ lo)
    (hlo : lo ≤ hi) (hhi : hi ≤ w) (h : base.band lo hi ⊆ base'.band lo' hi') :
    lo' ≤ lo ∧ hi ≤ hi' ∧ base'.len ≤ lo ∧ SameBits w base'.len base'.addr base.addr := by
  have hfirst := h (extend_mem_band hbase (hlo.trans hhi) le_rfl hlo)
  have hlast := h (extend_mem_band (hbase.trans hlo) hhi hlo le_rfl)
  exact ⟨hfirst.2.1, hlast.2.2, hfirst.1.1, hfirst.1.2⟩

/-- A set inside another comes from a network that is not shorter. -/
theorem len_le_of_band_subset {base base' : Subnet w} {lo hi lo' hi' : Nat} (hbase : base.len ≤ lo)
    (hlo : lo ≤ hi) (hhi : hi ≤ w) (h : base.band lo hi ⊆ base'.band lo' hi') :
    base'.len ≤ base.len := by
  by_contra hlt
  obtain ⟨-, -, hlen', hsame⟩ := lens_of_band_subset hbase hlo hhi h
  have hshort : base.len < lo := by omega
  have hsibling := h (sibling_mem_band hshort (hlo.trans hhi) le_rfl hlo)
  refine not_sameBits_sibling hshort (hlo.trans hhi) (Nat.not_le.1 hlt) base'.len_le ?_
  exact hsame.symm.trans hsibling.1.2

/-- The set determines the network and the lengths. -/
theorem band_inj {base base' : Subnet w} {lo hi lo' hi' : Nat} (hbase : base.len ≤ lo)
    (hlo : lo ≤ hi) (hhi : hi ≤ w) (hbase' : base'.len ≤ lo') (hlo' : lo' ≤ hi') (hhi' : hi' ≤ w)
    (h : base.band lo hi = base'.band lo' hi') : base = base' ∧ lo = lo' ∧ hi = hi' := by
  obtain ⟨h₁, h₂, -, -⟩ := lens_of_band_subset hbase hlo hhi h.subset
  obtain ⟨h₃, h₄, -, hsame⟩ := lens_of_band_subset hbase' hlo' hhi' h.superset
  have hlen := len_le_of_band_subset hbase hlo hhi h.subset
  have hlen' := len_le_of_band_subset hbase' hlo' hhi' h.superset
  exact ⟨eq_of_sameBits (by omega) hsame, by omega, by omega⟩

end Subnet

end SonicBuildimage.Lib
