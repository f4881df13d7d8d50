/-
  What the entries of `MatchPrefix` match (`frrcfgd/frrcfgd.py`), and
  `IpNextHopSet.get_af_norm_prefix`.

  Model (read this before the theorems).
  * `IpText` reads the text of an address, in any spelling, and prints it as `inet_ntop`: what is
    printed is read back.  netaddr and FRR read the same addresses.
  * A prefix that an entry may match is a network of a family (`Prefix`).  `Match.Matches` is FRR's
    test of an entry: the network lies in that of the entry, its length is that of the entry if
    there is no `ge` and no `le`, and within the bounds that are there otherwise.
  * `Spelled`: a text stands for an address and a length, written out or, without a mask, all bits.

  An entry matches what its prefix and its range say (`matchOf_sound`), but one set has several
  entries: `exact` has no bounds and the range that ends at the prefix length has a `le`, and a text
  without a mask is not normalised.  Without a mask the family is not looked at either, so that
  `get_af_norm_prefix` takes an IPv6 address for an IPv4 prefix of 32 bits (`entries_of_one_set`).

  Proved: `matchPrefix_canonical_iff`.  Every entry is sound; equality of two entries is equality of
  the sets exactly if, when the sets are the same, the texts are as `inet_ntop` prints them or the
  same, and both or none of the ranges are `exact`; and exactly a text with a mask, or of an IPv4
  address, has its own family.
-/
import SonicBuildimage.Frrcfgd.PrefixLists
import SonicBuildimage.Lib.Subnet

namespace SonicBuildimage.Frrcfgd.PrefixLists

open SonicBuildimage.Lib

/-! ## Addresses -/

/-- The bits of an address. -/
def width : Af → Nat
  | .inet => 32
  | .inet6 => 128

theorem maxLen_eq (af : Af) : maxLen af = width af := by
  cases af <;> rfl

structure IpText where
  /-- `int(text)` -/
  int : String → Option Int
  /-- the address of a text -/
  read : String → Option (Af × Nat)
  /-- `socket.inet_ntop` -/
  ntop : Af → Nat → String
  read_lt : ∀ s af n, read s = some (af, n) → n < 2 ^ width af
  read_ntop : ∀ af n, n < 2 ^ width af → read (ntop af n) = some (af, n)

/-- The address of the network. -/
def cidr (af : Af) (n len : Nat) : Nat := n / 2 ^ (width af - len) * 2 ^ (width af - len)

/-- `inet_ntop(af, netaddr.IPNetwork('%s/%d' % (ip, len)).cidr.ip.packed)` -/
def IpText.network (t : IpText) (af : Af) (ip : String) (len : Int) : Except Err String :=
  match t.read ip with
  | none => .error .other
  | some (af', n) =>
    if 0 ≤ len ∧ len ≤ width af' then
      -- the packed address has the length of its own family
      if af' = af then .ok (t.ntop af (cidr af n len.toNat)) else .error .value
    else .error .other

def IpText.env (t : IpText) : Env where
  int := t.int
  getIpAf ipPfx := (t.read ((split '/' ipPfx).headD "")).map Prod.fst
  network := t.network

/-- `normalize_ip_prefix` as it is: `None` for the other family. -/
def normalizeOrNone (env : Env) (af : Af) (ipPrefix : String) :
    Except Err (Option (String × Int)) :=
  match split '/' ipPrefix with
  | ip :: mask :: _ =>
    match env.int mask with
    | none => .error .value
    | some len =>
      match env.network af ip len with
      | .ok ip => .ok (some (ip, len))
      | .error .value => .ok none
      | .error .other => .error .other
  | _ => .ok (some (ipPrefix, maxLen af))

/-- `get_af_norm_prefix` -/
def getAfNormPrefix (env : Env) (ipPrefix : String) :
    Except Err (Option (Af × String × Int)) := do
  match ← normalizeOrNone env .inet ipPrefix with
  | some newPrefix => return some (.inet, newPrefix)
  | none =>
    match ← normalizeOrNone env .inet6 ipPrefix with
    | some newPrefix => return some (.inet6, newPrefix)
    | none => return none

/-! ## What an entry matches -/

/-- A network of a family. -/
structure Prefix where
  af : Af
  net : Subnet (width af)

/-- FRR's test of an entry. -/
def Match.Matches (t : IpText) (m : Match) (p : Prefix) : Prop :=
  ∃ n, t.read m.ip = some (p.af, n) ∧ m.len ≤ p.net.len ∧
    Subnet.SameBits (width p.af) m.len.toNat n p.net.addr ∧
    (m.minLen = none ∧ m.maxLen = none → (p.net.len : Int) = m.len) ∧
    (∀ ge ∈ m.minLen, ge ≤ p.net.len) ∧ ∀ le ∈ m.maxLen, (p.net.len : Int) ≤ le

/-- The text of a prefix, with or without a mask. -/
inductive Spelled (t : IpText) (s : String) (af : Af) (n len : Nat) : Prop
  | masked (ip mask : String) (hsplit : split '/' s = [ip, mask])
      (hread : t.read ip = some (af, n)) (hmask : t.int mask = some (len : Int))
      (hlen : len ≤ width af)
  | plain (hsplit : split '/' s = [s]) (hread : t.read s = some (af, n)) (hlen : len = width af)

/-- A range of lengths. -/
inductive Range where
  | exact
  | between (lo hi : Int)

def rangeOf (t : IpText) (range : String) : Option Range :=
  if range = "exact" then some .exact
  else (parseRange t.env range).map fun b => .between b.1 b.2

/-- The range is one for the prefix length. -/
def Range.Admissible (af : Af) (len : Nat) : Range → Prop
  | .exact => True
  | .between lo hi => lo ≤ hi ∧ hi ≤ width af ∧ (len : Int) ≤ hi

/-- The least length that is wanted. -/
def Range.lo (len : Nat) : Range → Nat
  | .exact => len
  | .between lo _ => max lo.toNat len

/-- The greatest length that is wanted. -/
def Range.hi (len : Nat) : Range → Nat
  | .exact => len
  | .between _ hi => hi.toNat

/-- The sub-prefixes with a length of the range. -/
def Wanted (af : Af) (n len : Nat) (r : Range) (p : Prefix) : Prop :=
  p.af = af ∧ len ≤ p.net.len ∧ Subnet.SameBits (width af) len n p.net.addr ∧
    r.lo len ≤ p.net.len ∧ p.net.len ≤ r.hi len

/-! ## Entries are sound -/

variable {t : IpText} {s : String} {af : Af} {n len : Nat}

theorem Spelled.len_le (h : Spelled t s af n len) : len ≤ width af := by
  cases h with
  | masked _ _ _ _ _ hlen => exact hlen
  | plain _ _ hlen => exact Nat.le_of_eq hlen

theorem Spelled.addr_lt (h : Spelled t s af n len) : n < 2 ^ width af := by
  cases h with
  | masked _ _ _ hread _ _ => exact t.read_lt _ _ _ hread
  | plain _ hread _ => exact t.read_lt _ _ _ hread

theorem cidr_lt (hn : n < 2 ^ width af) : cidr af n len < 2 ^ width af :=
  Nat.lt_of_le_of_lt (Nat.div_mul_le_self _ _) hn

theorem network_read {ip : String} (hread : t.read ip = some (af, n)) (hlen : len ≤ width af) :
    t.env.network af ip len = .ok (t.ntop af (cidr af n len)) := by
  have hbounds : (0 : Int) ≤ len ∧ (len : Int) ≤ width af := by omega
  simp only [IpText.env, IpText.network, hread, if_pos hbounds, if_true, Int.toNat_natCast]

/-- The text is normalised to one of an address in the same network. -/
theorem normalize_spelled (h : Spelled t s af n len) :
    ∃ ip n', normalizeIpPrefix t.env af s = .ok (ip, (len : Int)) ∧ t.read ip = some (af, n') ∧
      Subnet.SameBits (width af) len n' n := by
  cases h with
  | masked ip mask hsplit hread hmask hlen =>
    have hint : t.env.int mask = some (len : Int) := hmask
    refine ⟨t.ntop af (cidr af n len), cidr af n len, ?_,
      t.read_ntop _ _ (cidr_lt (t.read_lt _ _ _ hread)), ?_⟩
    · simp only [normalizeIpPrefix, hsplit, hint, network_read hread hlen]
      rfl
    · exact Nat.mul_div_cancel _ (Nat.two_pow_pos _)
  | plain hsplit hread hlen =>
    refine ⟨s, n, ?_, hread, rfl⟩
    simp only [normalizeIpPrefix, hsplit, hlen, maxLen_eq]

/-- The entry of a normalised prefix. -/
def matchOfRange (af : Af) (ip : String) (len : Nat) : Range → Match
  | .exact => ⟨ip, len, none, none⟩
  | .between lo hi =>
    if lo ≤ len then ⟨ip, len, none, some hi⟩
    else if hi = maxLen af then ⟨ip, len, some lo, none⟩
    else ⟨ip, len, some lo, some hi⟩

theorem matchOf_range {range ip : String} {r : Range} (hrange : rangeOf t range = some r)
    (hnorm : normalizeIpPrefix t.env af s = .ok (ip, (len : Int))) :
    matchOf t.env af s range = .ok (matchOfRange af ip len r) := by
  unfold rangeOf at hrange
  simp only [matchOf, hnorm]
  by_cases hexact : range = "exact"
  · rw [if_pos hexact] at hrange
    obtain rfl := Option.some.inj hrange
    rw [if_pos hexact]
    rfl
  · rw [if_neg hexact] at hrange
    obtain ⟨⟨lo, hi⟩, hparse, rfl⟩ := Option.map_eq_some_iff.1 hrange
    rw [if_neg hexact]
    simp only [hparse, matchOfRange]
    split_ifs <;> rfl

/-- The bounds of an entry say the same as the range. -/
theorem matches_matchOfRange {ip : String} {n' : Nat} {r : Range}
    (hread : t.read ip = some (af, n')) (hsame : Subnet.SameBits (width af) len n' n)
    (hr : r.Admissible af len) (p : Prefix) :
    (matchOfRange af ip len r).Matches t p ↔ Wanted af n len r p := by
  obtain ⟨paf, net⟩ := p
  have hnet := net.len_le
  -- an entry of the address and the length, with some bounds
  have hentry : ∀ minLen maxLen : Option Int,
      (⟨ip, len, minLen, maxLen⟩ : Match).Matches t ⟨paf, net⟩ ↔
        paf = af ∧ len ≤ net.len ∧ Subnet.SameBits (width af) len n net.addr ∧
        (minLen = none ∧ maxLen = none → (net.len : Int) = len) ∧
        (∀ ge ∈ minLen, ge ≤ net.len) ∧ ∀ le ∈ maxLen, (net.len : Int) ≤ le := by
    intro minLen maxLen
    unfold Match.Matches
    dsimp only
    rw [hread]
    constructor
    · rintro ⟨n₁, heq, hlen, hbits, hrest⟩
      obtain ⟨rfl, rfl⟩ := Prod.mk.inj (Option.some.inj heq)
      exact ⟨rfl, by omega, hsame.symm.trans hbits, hrest⟩
    · rintro ⟨rfl, hlen, hbits, hrest⟩
      exact ⟨n', rfl, by omega, hsame.trans hbits, hrest⟩
  unfold Wanted
  cases r with
  | exact =>
    rw [matchOfRange, hentry]
    simp only [Range.lo, Range.hi, and_self, true_implies, Option.not_mem_none, false_implies,
      implies_true, and_true]
    constructor
    · rintro ⟨haf, hlen, hbits, heq⟩
      exact ⟨haf, hlen, hbits, by omega, by omega⟩
    · rintro ⟨haf, hlen, hbits, hlo, hhi⟩
      exact ⟨haf, hlen, hbits, by omega⟩
  | between lo hi =>
    obtain ⟨hlohi, hwidth, hlenhi⟩ := hr
    unfold matchOfRange
    simp only [Range.lo, Range.hi]
    by_cases hlo : lo ≤ len
    · rw [if_pos hlo, hentry]
      simp only [reduceCtorEq, and_false, false_implies, implies_true, Option.mem_def,
        Option.some.injEq, forall_eq', true_and]
      constructor
      · rintro ⟨haf, hlen, hbits, hle⟩
        exact ⟨haf, hlen, hbits, by omega, by omega⟩
      · rintro ⟨haf, hlen, hbits, hlo', hhi⟩
        exact ⟨haf, hlen, hbits, by omega⟩
    · rw [if_neg hlo]
      by_cases hmax : hi = maxLen af
      · rw [if_pos hmax, hentry]
        rw [maxLen_eq] at hmax
        simp only [reduceCtorEq, false_implies, implies_true, Option.mem_def, Option.some.injEq,
          forall_eq', true_and, and_true]
        constructor
        · rintro ⟨rfl, hlen, hbits, hge⟩
          exact ⟨rfl, hlen, hbits, by omega, by omega⟩
        · rintro ⟨haf, hlen, hbits, hlo', hhi⟩
          exact ⟨haf, hlen, hbits, by omega⟩
      · rw [if_neg hmax, hentry]
        simp only [reduceCtorEq, false_and, false_implies, Option.mem_def, Option.some.injEq,
          forall_eq', true_and]
        constructor
        · rintro ⟨haf, hlen, hbits, hge, hle⟩
          exact ⟨haf, hlen, hbits, by omega, by omega⟩
        · rintro ⟨haf, hlen, hbits, hlo', hhi⟩
          exact ⟨haf, hlen, hbits, by omega, by omega⟩

/-- The entry of a prefix and a range matches the sub-prefixes with a length of the range. -/
theorem matchOf_sound {range : String} {r : Range} (h : Spelled t s af n len)
    (hrange : rangeOf t range = some r) (hr : r.Admissible af len) :
    ∃ m, matchOf t.env af s range = .ok m ∧ ∀ p, m.Matches t p ↔ Wanted af n len r p := by
  obtain ⟨ip, n', hnorm, hread, hsame⟩ := normalize_spelled h
  exact ⟨_, matchOf_range hrange hnorm, matches_matchOfRange hread hsame hr⟩

/-! ## Equal entries and equal sets -/

/-- The text has a mask, or is printed as `inet_ntop` does. -/
def Tidy (t : IpText) (s : String) (af : Af) (n : Nat) : Prop :=
  (split '/' s).length = 2 ∨ s = t.ntop af n

/-- Both prefixes and ranges stand for one set. -/
def SameSet (af : Af) (n len : Nat) (r : Range) (af' : Af) (n' len' : Nat) (r' : Range) : Prop :=
  af = af' ∧ cidr af n len = cidr af' n' len' ∧ len = len' ∧ r.lo len = r'.lo len' ∧
    r.hi len = r'.hi len'

/-- The address in the entry of a text. -/
def entryIp (t : IpText) (s : String) (af : Af) (n len : Nat) : String :=
  if (split '/' s).length = 2 then t.ntop af (cidr af n len) else s

theorem normalize_eq (h : Spelled t s af n len) :
    normalizeIpPrefix t.env af s = .ok (entryIp t s af n len, (len : Int)) := by
  cases h with
  | masked ip mask hsplit hread hmask hlen =>
    have hint : t.env.int mask = some (len : Int) := hmask
    simp only [normalizeIpPrefix, entryIp, hsplit, hint, network_read hread hlen]
    rfl
  | plain hsplit hread hlen =>
    simp [normalizeIpPrefix, entryIp, hsplit, hlen, maxLen_eq]

theorem cidr_width : cidr af n (width af) = n := by
  rw [cidr, Nat.sub_self, Nat.pow_zero, Nat.div_one, Nat.mul_one]

/-- Texts of one network have one address in their entries if both are tidy, or the same. -/
theorem entryIp_eq_iff {s' : String} {n' : Nat} (h : Spelled t s af n len)
    (h' : Spelled t s' af n' len) (hcidr : cidr af n len = cidr af n' len) :
    entryIp t s af n len = entryIp t s' af n' len ↔
      Tidy t s af n ∧ Tidy t s' af n' ∨ s = s' := by
  have hwidth : len = width af → n = n' := by
    rintro rfl
    rwa [cidr_width, cidr_width] at hcidr
  cases h with
  | masked ip mask hsplit hread hmask hlen =>
    cases h' with
    | masked ip' mask' hsplit' hread' hmask' hlen' => simp [entryIp, Tidy, hsplit, hsplit', hcidr]
    | plain hsplit' hread' hlen' =>
      have hne : s ≠ s' := by
        rintro rfl
        exact absurd (hsplit.symm.trans hsplit') (by simp)
      subst hlen'
      simp [entryIp, Tidy, hsplit, hsplit', cidr_width, hwidth rfl, hne, eq_comm]
  | plain hsplit hread hlen =>
    obtain rfl := hwidth hlen
    subst hlen
    cases h' with
    | masked ip' mask' hsplit' hread' hmask' hlen' =>
      have hne : s ≠ s' := by
        rintro rfl
        exact absurd (hsplit.symm.trans hsplit') (by simp)
      simp [entryIp, Tidy, hsplit, hsplit', cidr_width, hne]
    | plain hsplit' hread' hlen' =>
      simp only [entryIp, Tidy, hsplit, hsplit', List.length_singleton, OfNat.one_ne_ofNat,
        if_false, false_or]
      exact ⟨.inr, fun heq => heq.elim (fun htidy => htidy.1.trans htidy.2.symm) id⟩

theorem Range.len_le_lo (r : Range) (len : Nat) : len ≤ r.lo len := by
  cases r with
  | exact => exact Nat.le_refl _
  | between lo hi => exact Nat.le_max_right _ _

theorem Range.Admissible.lo_le_hi {r : Range} (h : r.Admissible af len) : r.lo len ≤ r.hi len := by
  cases r with
  | exact => exact Nat.le_refl _
  | between lo hi =>
    obtain ⟨hlohi, -, hlen⟩ := h
    simp only [Range.lo, Range.hi]
    omega

theorem Range.Admissible.hi_le {r : Range} (h : r.Admissible af len) (hlen : len ≤ width af) :
    r.hi len ≤ width af := by
  cases r with
  | exact => exact hlen
  | between lo hi =>
    obtain ⟨-, hhi, -⟩ := h
    simp only [Range.hi]
    omega

/-- What is wanted is a band of networks. -/
theorem wanted_iff (hn : n < 2 ^ width af) (hlen : len ≤ width af) (r : Range)
    (net : Subnet (width af)) :
    Wanted af n len r ⟨af, net⟩ ↔
      net ∈ (Subnet.ofAddr n len hn hlen).band (r.lo len) (r.hi len) := by
  have hsame := Subnet.sameBits_ofAddr hn hlen
  constructor
  · rintro ⟨-, hle, hbits, hlo, hhi⟩
    exact ⟨⟨hle, hsame.trans hbits⟩, hlo, hhi⟩
  · rintro ⟨⟨hle, hbits⟩, hlo, hhi⟩
    exact ⟨rfl, hle, hsame.symm.trans hbits, hlo, hhi⟩

/-- Ranges of the same lengths give one entry if both or none are `exact`. -/
theorem matchOfRange_eq_iff {r r' : Range} (hr : r.Admissible af len) (hr' : r'.Admissible af len)
    (hlo : r.lo len = r'.lo len) (hhi : r.hi len = r'.hi len) (ip ip' : String) :
    matchOfRange af ip len r = matchOfRange af ip' len r' ↔
      ip = ip' ∧ (r = .exact ↔ r' = .exact) := by
  cases r with
  | exact =>
    cases r' with
    | exact => simp [matchOfRange]
    | between lo' hi' =>
      simp only [Range.lo, Range.hi, Range.Admissible] at hlo hhi hr'
      have hle : lo' ≤ len := by omega
      simp [matchOfRange, hle]
  | between lo hi =>
    cases r' with
    | exact =>
      simp only [Range.lo, Range.hi, Range.Admissible] at hlo hhi hr
      have hle : lo ≤ len := by omega
      simp [matchOfRange, hle]
    | between lo' hi' =>
      simp only [Range.lo, Range.hi, Range.Admissible] at hlo hhi hr hr'
      obtain rfl : hi = hi' := by omega
      by_cases hle : lo ≤ len
      · have hle' : lo' ≤ len := by omega
        simp [matchOfRange, hle, hle']
      · obtain rfl : lo = lo' := by omega
        by_cases hmax : hi = maxLen af
        · simp [matchOfRange, hle, hmax]
        · simp [matchOfRange, hle, hmax]

variable {s' : String} {af' : Af} {n' len' : Nat}

theorem wanted_inj {r r' : Range} (h : Spelled t s af n len) (h' : Spelled t s' af' n' len')
    (hr : r.Admissible af len) (hr' : r'.Admissible af' len')
    (hsets : ∀ p, Wanted af n len r p ↔ Wanted af' n' len' r' p) :
    SameSet af n len r af' n' len' r' := by
  have hn := h.addr_lt
  have hlen := h.len_le
  -- the network itself, at the least length, is in both sets
  obtain ⟨rfl, -⟩ := (hsets ⟨af, _⟩).1 ((wanted_iff hn hlen r _).2
    (Subnet.extend_mem_band (r.len_le_lo len) (hr.lo_le_hi.trans (hr.hi_le hlen)) le_rfl
      hr.lo_le_hi))
  have hn' := h'.addr_lt
  have hlen' := h'.len_le
  have hband : (Subnet.ofAddr n len hn hlen).band (r.lo len) (r.hi len) =
      (Subnet.ofAddr n' len' hn' hlen').band (r'.lo len') (r'.hi len') := by
    ext net
    rw [← wanted_iff, ← wanted_iff]
    exact hsets ⟨_, net⟩
  obtain ⟨hbase, hlo, hhi⟩ := Subnet.band_inj (r.len_le_lo len) hr.lo_le_hi (hr.hi_le hlen)
    (r'.len_le_lo len') hr'.lo_le_hi (hr'.hi_le hlen') hband
  exact ⟨rfl, congrArg Subnet.addr hbase, congrArg Subnet.len hbase, hlo, hhi⟩

/-- Equality of entries is equality of the sets that they match, exactly if entries of one set have
    one address and the same bounds. -/
theorem match_eq_iff {range range' : String} {r r' : Range} {m m' : Match}
    (h : Spelled t s af n len) (h' : Spelled t s' af' n' len')
    (hrange : rangeOf t range = some r) (hrange' : rangeOf t range' = some r')
    (hr : r.Admissible af len) (hr' : r'.Admissible af' len')
    (hm : matchOf t.env af s range = .ok m) (hm' : matchOf t.env af' s' range' = .ok m') :
    (m = m' ↔ ∀ p, m.Matches t p ↔ m'.Matches t p) ↔
      (SameSet af n len r af' n' len' r' →
        (Tidy t s af n ∧ Tidy t s' af' n' ∨ s = s') ∧ (r = .exact ↔ r' = .exact)) := by
  obtain ⟨m₁, hm₁, hwanted⟩ := matchOf_sound h hrange hr
  obtain ⟨m₂, hm₂, hwanted'⟩ := matchOf_sound h' hrange' hr'
  obtain rfl := Except.ok.inj (hm.symm.trans hm₁)
  obtain rfl := Except.ok.inj (hm'.symm.trans hm₂)
  have hentry := Except.ok.inj (hm.symm.trans (matchOf_range hrange (normalize_eq h)))
  have hentry' := Except.ok.inj (hm'.symm.trans (matchOf_range hrange' (normalize_eq h')))
  -- one set, one entry
  have hset : SameSet af n len r af' n' len' r' →
      ((Tidy t s af n ∧ Tidy t s' af' n' ∨ s = s') ∧ (r = .exact ↔ r' = .exact) ↔ m = m') := by
    rintro ⟨rfl, hcidr, rfl, hlo, hhi⟩
    rw [hentry, hentry', matchOfRange_eq_iff hr hr' hlo hhi, entryIp_eq_iff h h' hcidr]
  have hsame : (∀ p, m.Matches t p ↔ m'.Matches t p) ↔ SameSet af n len r af' n' len' r' := by
    constructor
    · exact fun hsets => wanted_inj h h' hr hr' fun p =>
        (hwanted p).symm.trans ((hsets p).trans (hwanted' p))
    · rintro ⟨rfl, hcidr, rfl, hlo, hhi⟩ p
      have hbits : Subnet.SameBits (width af) len n n' :=
        Nat.eq_of_mul_eq_mul_right (Nat.two_pow_pos _) hcidr
      rw [hwanted, hwanted', Wanted, Wanted, hlo, hhi, Subnet.SameBits, hbits]
      exact Iff.rfl
  rw [hsame]
  constructor
  · exact fun hiff hs => (hset hs).2 (hiff.2 hs)
  · refine fun hcond => ⟨fun heq => hsame.1 fun p => by rw [heq], fun hs => ?_⟩
    exact (hset hs).1 (hcond hs)

/-! ## The family -/

theorem normalizeOrNone_masked {ip mask : String} (hsplit : split '/' s = [ip, mask])
    (hread : t.read ip = some (af, n)) (hmask : t.int mask = some (len : Int))
    (hlen : len ≤ width af) (af' : Af) :
    normalizeOrNone t.env af' s =
      .ok (if af = af' then some (t.ntop af (cidr af n len), (len : Int)) else none) := by
  have hint : t.env.int mask = some (len : Int) := hmask
  have hbounds : (0 : Int) ≤ len ∧ (len : Int) ≤ width af := by omega
  by_cases haf : af = af'
  · subst haf
    simp only [normalizeOrNone, hsplit, hint, network_read hread hlen, if_true]
  · have hnet : t.env.network af' ip len = .error .value := by
      simp only [IpText.env, IpText.network, hread, if_pos hbounds, if_neg haf]
    simp only [normalizeOrNone, hsplit, hint, hnet, if_neg haf]

theorem getAfNormPrefix_family_iff (h : Spelled t s af n len) :
    (∃ newPrefix, getAfNormPrefix t.env s = .ok (some (af, newPrefix))) ↔
      (split '/' s).length = 2 ∨ af = .inet := by
  cases h with
  | masked ip mask hsplit hread hint hlen =>
    refine iff_of_true ?_ (.inl (by rw [hsplit]; rfl))
    unfold getAfNormPrefix
    rw [normalizeOrNone_masked hsplit hread hint hlen,
      normalizeOrNone_masked hsplit hread hint hlen]
    cases af with
    | inet => exact ⟨_, rfl⟩
    | inet6 => exact ⟨_, rfl⟩
  | plain hsplit hread hlen =>
    have hnorm : normalizeOrNone t.env .inet s = .ok (some (s, maxLen .inet)) := by
      simp only [normalizeOrNone, hsplit]
    have hget : getAfNormPrefix t.env s = .ok (some (.inet, s, maxLen .inet)) := by
      rw [getAfNormPrefix, hnorm]
      rfl
    rw [hget, hsplit]
    cases af with
    | inet => simp
    | inet6 => simp

/-- Entries are sound; equal entries are those that match the same prefixes if and only if entries
    of one set have one address and the same bounds; and exactly a text with a mask, or of an IPv4
    address, has its own family. -/
theorem matchPrefix_canonical_iff (t : IpText) :
    (∀ s af n len range r, Spelled t s af n len → rangeOf t range = some r → r.Admissible af len →
      ∃ m, matchOf t.env af s range = .ok m ∧ ∀ p, m.Matches t p ↔ Wanted af n len r p) ∧
    (∀ s s' af af' n n' len len' range range' r r' m m',
      Spelled t s af n len → Spelled t s' af' n' len' →
      rangeOf t range = some r → rangeOf t range' = some r' → r.Admissible af len →
      r'.Admissible af' len' →
      matchOf t.env af s range = .ok m → matchOf t.env af' s' range' = .ok m' →
      ((m = m' ↔ ∀ p, m.Matches t p ↔ m'.Matches t p) ↔
        (SameSet af n len r af' n' len' r' →
          (Tidy t s af n ∧ Tidy t s' af' n' ∨ s = s') ∧ (r = .exact ↔ r' = .exact)))) ∧
    (∀ s af n len, Spelled t s af n len →
      ((∃ newPrefix, getAfNormPrefix t.env s = .ok (some (af, newPrefix))) ↔
        (split '/' s).length = 2 ∨ af = .inet)) :=
  ⟨fun _ _ _ _ _ _ => matchOf_sound, fun _ _ _ _ _ _ _ _ _ _ _ _ _ _ => match_eq_iff,
    fun _ _ _ _ => getAfNormPrefix_family_iff⟩

/-! ## Entries of one set -/

/-- Decimal numbers as addresses, behind `::` for IPv6. -/
def plainText : IpText where
  int s := (decimal s).map Int.ofNat
  read s :=
    if startswith s "::" then
      (decimal (dropLen s "::")).bind fun n => if n < 2 ^ 128 then some (.inet6, n) else none
    else (decimal s).bind fun n => if n < 2 ^ 32 then some (.inet, n) else none
  ntop
    | .inet, n => toString n
    | .inet6, n => "::" ++ toString n
  read_lt s af n h := by
    by_cases hcolons : startswith s "::" = true
    · rw [if_pos hcolons] at h
      obtain ⟨k, -, hk⟩ := Option.bind_eq_some_iff.1 h
      split_ifs at hk with hlt
      obtain ⟨rfl, rfl⟩ := Prod.mk.inj (Option.some.inj hk)
      exact hlt
    · rw [if_neg hcolons] at h
      obtain ⟨k, -, hk⟩ := Option.bind_eq_some_iff.1 h
      split_ifs at hk with hlt
      obtain ⟨rfl, rfl⟩ := Prod.mk.inj (Option.some.inj hk)
      exact hlt
  read_ntop af n h := by
    cases af with
    | inet =>
      have hdigits := isDigit_of_decimal (decimal_repr n)
      have hcolons : ¬startswith (toString n) "::" = true := by
        intro hstart
        obtain ⟨rest, hrest⟩ := List.isPrefixOf_iff_prefix.1 hstart
        exact absurd (hdigits ':' (hrest ▸ List.mem_cons_self)) (by decide)
      rw [if_neg hcolons, decimal_repr]
      exact if_pos h
    | inet6 =>
      rw [if_pos (startswith_append _ _), dropLen_append, decimal_repr]
      exact if_pos h

theorem spelled_one : Spelled plainText "::1/128" .inet6 1 128 :=
  .masked "::1" "128" (by decide +kernel) (by decide +kernel) (by decide +kernel) (by decide)

theorem spelled_one_plain : Spelled plainText "::01" .inet6 1 128 :=
  .plain (by decide +kernel) (by decide +kernel) rfl

/-- The networks of 64 to 128 bits in `::/64`, of an address with host bits. -/
theorem matchPrefix_sample :
    matchOf plainText.env .inet6 "::1/64" "65..128" = .ok ⟨"::0", 64, some 65, none⟩ ∧
      ∀ p, (⟨"::0", 64, some 65, none⟩ : Match).Matches plainText p ↔
        Wanted .inet6 1 64 (.between 65 128) p := by
  have hm : matchOf plainText.env .inet6 "::1/64" "65..128" = .ok ⟨"::0", 64, some 65, none⟩ := by
    rfl
  obtain ⟨m, hm', hwanted⟩ := (matchPrefix_canonical_iff plainText).1 "::1/64" .inet6 1 64 "65..128"
    (.between 65 128)
    (.masked "::1" "64" (by decide +kernel) (by decide +kernel) (by decide +kernel) (by decide))
    (by rfl) ⟨by decide, by decide, by decide⟩
  obtain rfl := Except.ok.inj (hm.symm.trans hm')
  exact ⟨hm, hwanted⟩

/-- One address: `exact`, the range of its length, and another spelling without a mask are three
    entries; and without a mask it is taken for an IPv4 prefix. -/
theorem entries_of_one_set :
    ∃ a b c, matchOf plainText.env .inet6 "::1/128" "exact" = .ok a ∧
      matchOf plainText.env .inet6 "::1/128" "128..128" = .ok b ∧
      matchOf plainText.env .inet6 "::01" "exact" = .ok c ∧
      (∀ p, (a.Matches plainText p ↔ b.Matches plainText p) ∧
        (a.Matches plainText p ↔ c.Matches plainText p)) ∧
      a ≠ b ∧ a ≠ c ∧
      getAfNormPrefix plainText.env "::1" = .ok (some (.inet, "::1", 32)) := by
  have hexact : rangeOf plainText "exact" = some .exact := rfl
  have hrange : rangeOf plainText "128..128" = some (.between 128 128) := by rfl
  obtain ⟨a, ha, hwa⟩ := matchOf_sound spelled_one hexact trivial
  obtain ⟨b, hb, hwb⟩ := matchOf_sound spelled_one hrange ⟨by decide, by decide, by decide⟩
  obtain ⟨c, hc, hwc⟩ := matchOf_sound spelled_one_plain hexact trivial
  have hwanted : ∀ p, Wanted .inet6 1 128 .exact p ↔ Wanted .inet6 1 128 (.between 128 128) p :=
    fun p => Iff.rfl
  obtain rfl : (⟨"::1", 128, none, none⟩ : Match) = a := Except.ok.inj ((by rfl : _ = _).trans ha)
  obtain rfl : (⟨"::1", 128, none, some 128⟩ : Match) = b :=
    Except.ok.inj ((by rfl : _ = _).trans hb)
  obtain rfl : (⟨"::01", 128, none, none⟩ : Match) = c := Except.ok.inj ((by rfl : _ = _).trans hc)
  refine ⟨_, _, _, ha, hb, hc, fun p => ⟨?_, (hwa p).trans (hwc p).symm⟩, by decide, by decide,
    by rfl⟩
  exact (hwa p).trans ((hwanted p).trans (hwb p).symm)

end SonicBuildimage.Frrcfgd.PrefixLists
