/-
  Texts of addresses and networks as the Python module `ipaddress` reads them.

  `parseNetwork` is `ip_network(text, strict=False)`: an IPv4 address with an optional prefix
  length, netmask or hostmask, or else an IPv6 address (with `::`, a dotted tail, a zone) with an
  optional prefix length.  `ipNetwork` is whether `ip_network(text)` succeeds, which wants the host
  bits to be zero.

  What a text that is read looks like: the characters of a network of IPv4 (`ipv4Network_char`), the
  first group of an address of IPv6 (`ipv6FromString_cons`).  So a name, a colon and a network are
  no network, if the name is not a group of an address (`parseNetwork_cons`).
-/
import SonicBuildimage.Lib.PyStr

namespace SonicBuildimage.Lib.IpAddress

/-! ## IPv4 -/

/-- `_parse_octet` -/
def parseOctet (s : String) : Option Nat :=
  if s.toList.length ≤ 3 ∧ (s = "0" ∨ s.toList.head? ≠ some '0') then (decimal s).filter (· ≤ 255)
  else none

/-- `_ip_int_from_string` of IPv4 -/
def ipv4FromString (s : String) : Option Nat :=
  match split '.' s with
  | [a, b, c, d] => do
    let a ← parseOctet a
    let b ← parseOctet b
    let c ← parseOctet c
    let d ← parseOctet d
    some (((a * 256 + b) * 256 + c) * 256 + d)
  | _ => none

/-- `_prefix_from_prefix_string` -/
def prefixFromPrefixString (maxPrefixlen : Nat) (s : String) : Option Nat :=
  (decimal s).filter (· ≤ maxPrefixlen)

/-- `_count_righthand_zero_bits` -/
def trailingZeroes (n bits : Nat) : Nat := ((List.range bits).find? n.testBit).getD bits

/-- `_prefix_from_ip_int` of IPv4: ones and then zeroes -/
def prefixFromIpInt (n : Nat) : Option Nat :=
  let zeroes := trailingZeroes n 32
  let prefixlen := 32 - zeroes
  if n / 2 ^ zeroes = 2 ^ prefixlen - 1 then some prefixlen else none

/-- `_prefix_from_ip_string`: a netmask or a hostmask -/
def prefixFromIpString (s : String) : Option Nat :=
  (ipv4FromString s).bind fun n => (prefixFromIpInt n).or (prefixFromIpInt (2 ^ 32 - 1 - n))

/-- `_split_optional_netmask` -/
def splitOptionalNetmask (s : String) : Option (String × Option String) :=
  match split '/' s with
  | [addr] => some (addr, none)
  | [addr, mask] => some (addr, some mask)
  | _ => none

/-- `_make_netmask` of IPv4, as the prefix length -/
def ipv4MakeNetmask : Option String → Option Nat
  | none => some 32
  | some m => (prefixFromPrefixString 32 m).or (prefixFromIpString m)

/-- `IPv4Network(s, strict=False)`: the address and the prefix length -/
def ipv4Network (s : String) : Option (Nat × Nat) := do
  let (addr, mask) ← splitOptionalNetmask s
  let n ← ipv4FromString addr
  let prefixlen ← ipv4MakeNetmask mask
  some (n, prefixlen)

/-! ## IPv6 -/

def hexValue (c : Char) : Option Nat :=
  if c.isDigit then some (c.toNat - '0'.toNat)
  else if 'a' ≤ c ∧ c ≤ 'f' then some (c.toNat - 'a'.toNat + 10)
  else if 'A' ≤ c ∧ c ≤ 'F' then some (c.toNat - 'A'.toNat + 10)
  else none

/-- `_parse_hextet` -/
def parseHextet (s : String) : Option Nat :=
  if s = "" ∨ 4 < s.toList.length then none
  else s.toList.foldlM (fun n c => (hexValue c).map (16 * n + ·)) 0

/-- `'%x' % n` -/
def hex (n : Nat) : String := String.ofList (Nat.toDigits 16 n)

/-- A dotted tail becomes two groups. -/
def expandTail (parts : List String) : Option (List String) :=
  let tail := parts.getLastD ""
  if '.' ∈ tail.toList then
    (ipv4FromString tail).map fun n => parts.dropLast ++ [hex (n / 2 ^ 16), hex (n % 2 ^ 16)]
  else some parts

/-- The groups as one number. -/
def ofHextets (parts : List String) : Option Nat :=
  parts.foldlM (fun n s => (parseHextet s).map (2 ^ 16 * n + ·)) 0

/-- The places of `::`, endpoints apart. -/
def skips (parts : List String) : List Nat :=
  (List.range parts.length).filter fun i =>
    1 ≤ i ∧ i + 1 < parts.length ∧ parts.getD i "" = ""

/-- The groups before `::`; an empty first one belongs to it. -/
def hiParts (parts : List String) (skip : Nat) : Option (List String) :=
  if parts.headD "" = "" then (if skip = 1 then some [] else none) else some (parts.take skip)

/-- The groups after `::`; an empty last one belongs to it. -/
def loParts (parts : List String) (skip : Nat) : Option (List String) :=
  let rest := parts.drop (skip + 1)
  if parts.getLastD "" = "" then (if rest.length = 1 then some [] else none) else some rest

/-- The groups of an address, at most one `::` among them, as one number. -/
def ofParts (parts : List String) : Option Nat :=
  if 9 < parts.length then none
  else
    match skips parts with
    | [] => if parts.length = 8 then ofHextets parts else none
    | [skip] => do
      let hi ← hiParts parts skip
      let lo ← loParts parts skip
      if 8 ≤ hi.length + lo.length then none
      else
        let hiInt ← ofHextets hi
        let loInt ← ofHextets lo
        some (hiInt * 2 ^ (16 * (8 - hi.length)) + loInt)
    | _ => none

/-- `_ip_int_from_string` of IPv6 -/
def ipv6FromString (s : String) : Option Nat :=
  if (split ':' s).length < 3 then none else (expandTail (split ':' s)).bind ofParts

/-- `_split_scope_id`, without the zone -/
def splitScopeId (s : String) : Option String :=
  match split '%' s with
  | [addr] => some addr
  | [addr, scope] => if scope = "" then none else some addr
  | _ => none

/-- `_make_netmask` of IPv6, as the prefix length -/
def ipv6MakeNetmask : Option String → Option Nat
  | none => some 128
  | some m => prefixFromPrefixString 128 m

/-- `IPv6Network(s, strict=False)` -/
def ipv6Network (s : String) : Option (Nat × Nat) := do
  let (addr, mask) ← splitOptionalNetmask s
  let addr ← splitScopeId addr
  let n ← ipv6FromString addr
  let prefixlen ← ipv6MakeNetmask mask
  some (n, prefixlen)

/-! ## Networks -/

structure Network where
  ipv6 : Bool
  address : Nat
  prefixlen : Nat
  deriving DecidableEq

/-- `ip_network(s, strict=False)` -/
def parseNetwork (s : String) : Option Network :=
  match ipv4Network s with
  | some (n, prefixlen) => some ⟨false, n, prefixlen⟩
  | none => (ipv6Network s).map fun (n, prefixlen) => ⟨true, n, prefixlen⟩

/-- The bits that the netmask does not cover. -/
def Network.hostBits (n : Network) : Nat :=
  n.address % 2 ^ ((if n.ipv6 then 128 else 32) - n.prefixlen)

/-- Whether `ip_network(s)` succeeds. -/
def ipNetwork (s : String) : Bool := (parseNetwork s).any fun n => n.hostBits = 0

example : parseNetwork "2001:db8::1/64" = some ⟨true, 0x20010db8000000000000000000000001, 64⟩ := by
  decide +kernel

example : parseNetwork "::ffff:10.0.0.1" = some ⟨true, 0xffff0a000001, 128⟩ := by decide +kernel

example : parseNetwork "10.0.0.1/255.255.255.0" = some ⟨false, 0x0a000001, 24⟩ := by decide +kernel

/-! ## The characters of an IPv4 network -/

theorem isDigit_of_parseOctet {s : String} {n : Nat} (h : parseOctet s = some n) :
    ∀ c ∈ s.toList, c.isDigit = true := by
  rw [parseOctet] at h
  by_cases hs : s.toList.length ≤ 3 ∧ (s = "0" ∨ s.toList.head? ≠ some '0')
  · rw [if_pos hs] at h
    exact isDigit_of_decimal (Option.filter_eq_some_iff.1 h).1
  · rw [if_neg hs] at h
    cases h

theorem isDigit_of_prefixFromPrefixString {m n : Nat} {s : String}
    (h : prefixFromPrefixString m s = some n) : ∀ c ∈ s.toList, c.isDigit = true :=
  isDigit_of_decimal (Option.filter_eq_some_iff.1 h).1

/-- The characters of a network of IPv4. -/
def Ipv4Char (c : Char) : Prop := c.isDigit = true ∨ c = '.' ∨ c = '/'

instance : DecidablePred Ipv4Char := fun c =>
  inferInstanceAs (Decidable (c.isDigit = true ∨ c = '.' ∨ c = '/'))

theorem ipv4FromString_char {s : String} {n : Nat} (h : ipv4FromString s = some n) :
    ∀ c ∈ s.toList, Ipv4Char c := by
  have hoctets : ∀ x ∈ split '.' s, ∃ m, parseOctet x = some m := by
    rw [ipv4FromString] at h
    split at h
    · next a b c d heq =>
      obtain ⟨na, ha, h⟩ := Option.bind_eq_some_iff.1 h
      obtain ⟨nb, hb, h⟩ := Option.bind_eq_some_iff.1 h
      obtain ⟨nc, hc, h⟩ := Option.bind_eq_some_iff.1 h
      obtain ⟨nd, hd, h⟩ := Option.bind_eq_some_iff.1 h
      rw [heq]
      simp [ha, hb, hc, hd]
    · cases h
  intro c hc
  by_cases hdot : c = '.'
  · exact .inr (.inl hdot)
  · obtain ⟨x, hx, hc⟩ := exists_mem_split hc hdot
    obtain ⟨m, hm⟩ := hoctets x hx
    exact .inl (isDigit_of_parseOctet hm c hc)

theorem ipv4Network_char {s : String} {r : Nat × Nat} (h : ipv4Network s = some r) :
    ∀ c ∈ s.toList, Ipv4Char c := by
  obtain ⟨⟨addr, mask⟩, hsplit, h⟩ := Option.bind_eq_some_iff.1 h
  obtain ⟨n, haddr, h⟩ := Option.bind_eq_some_iff.1 h
  obtain ⟨prefixlen, hmask, -⟩ := Option.bind_eq_some_iff.1 h
  intro c hc
  by_cases hslash : c = '/'
  · exact .inr (.inr hslash)
  obtain ⟨x, hx, hc⟩ := exists_mem_split hc hslash
  rw [splitOptionalNetmask] at hsplit
  split at hsplit
  · next a heq =>
    cases hsplit
    rw [heq, List.mem_singleton] at hx
    exact ipv4FromString_char haddr c (hx ▸ hc)
  · next a m heq =>
    cases hsplit
    rw [heq, List.mem_cons, List.mem_singleton] at hx
    rcases hx with rfl | rfl
    · exact ipv4FromString_char haddr c hc
    · rcases Option.or_eq_some_iff.1 hmask with hm | ⟨-, hm⟩
      · exact .inl (isDigit_of_prefixFromPrefixString hm c hc)
      · obtain ⟨k, hk, -⟩ := Option.bind_eq_some_iff.1 hm
        exact ipv4FromString_char hk c hc
  · cases hsplit

/-! ## The groups of an IPv6 address -/

/-- The text of the address, without a zone and a prefix length. -/
def addressPart (s : String) : String :=
  String.ofList (s.toList.takeWhile fun c => c ≠ '%' ∧ c ≠ '/')

theorem splitOptionalNetmask_fst {s addr : String} {mask : Option String}
    (h : splitOptionalNetmask s = some (addr, mask)) :
    addr = String.ofList (s.toList.takeWhile (· ≠ '/')) := by
  have hhead := head?_split '/' s
  rw [splitOptionalNetmask] at h
  split at h
  · next a heq =>
    cases h
    rw [heq] at hhead
    exact Option.some.inj hhead
  · next a m heq =>
    cases h
    rw [heq] at hhead
    exact Option.some.inj hhead
  · cases h

theorem splitScopeId_eq {s addr : String} (h : splitScopeId s = some addr) :
    addr = String.ofList (s.toList.takeWhile (· ≠ '%')) := by
  have hhead := head?_split '%' s
  rw [splitScopeId] at h
  split at h
  · next a heq =>
    cases h
    rw [heq] at hhead
    exact Option.some.inj hhead
  · next a scope heq =>
    by_cases hscope : scope = ""
    · rw [if_pos hscope] at h
      cases h
    · rw [if_neg hscope] at h
      cases h
      rw [heq] at hhead
      exact Option.some.inj hhead
  · cases h

theorem ipv6Network_address {s : String} {r : Nat × Nat} (h : ipv6Network s = some r) :
    ∃ n, ipv6FromString (addressPart s) = some n := by
  obtain ⟨⟨addr, mask⟩, hsplit, h⟩ := Option.bind_eq_some_iff.1 h
  obtain ⟨addr', hscope, h⟩ := Option.bind_eq_some_iff.1 h
  obtain ⟨n, hn, -⟩ := Option.bind_eq_some_iff.1 h
  refine ⟨n, ?_⟩
  have haddr : addressPart s = addr' := by
    rw [splitScopeId_eq hscope, splitOptionalNetmask_fst hsplit, String.toList_ofList,
      List.takeWhile_takeWhile, addressPart]
    simp
  rw [haddr, hn]

theorem mem_of_mem_addressPart {s : String} {c : Char} (h : c ∈ (addressPart s).toList) :
    c ∈ s.toList := by
  rw [addressPart, String.toList_ofList] at h
  exact (List.takeWhile_sublist _).subset h

/-- The part before the first colon is in the address, or the address has no colon. -/
theorem addressPart_cons {x y : String} (hcolon : ':' ∉ x.toList)
    (h : ':' ∈ (addressPart (x ++ ":" ++ y)).toList) :
    addressPart (x ++ ":" ++ y) = x ++ ":" ++ addressPart y := by
  have hlist : (x ++ ":" ++ y).toList = x.toList ++ ':' :: y.toList := by simp
  rw [addressPart, hlist, List.takeWhile_append] at h ⊢
  split at h
  · next hall =>
    rw [if_pos hall, ← String.toList_inj]
    simp [addressPart]
  · exact absurd ((List.takeWhile_sublist _).subset (by simpa using h)) hcolon

theorem mem_skips {parts : List String} {i : Nat} :
    i ∈ skips parts ↔ 1 ≤ i ∧ i + 1 < parts.length ∧ parts.getD i "" = "" := by
  simp only [skips, List.mem_filter, List.mem_range, decide_eq_true_eq]
  constructor
  · exact fun h => h.2
  · exact fun h => ⟨by omega, h⟩

theorem ofHextets_cons {x : String} {xs : List String} {n : Nat}
    (h : ofHextets (x :: xs) = some n) : parseHextet x ≠ none := by
  intro hx
  rw [ofHextets, List.foldlM_cons, hx] at h
  cases h

theorem parseHextet_empty : parseHextet "" = none := rfl

theorem expandTail_cons {x : String} {xs : List String} (hxs : xs ≠ []) :
    expandTail (x :: xs) = (expandTail xs).map (x :: ·) := by
  obtain ⟨y, ys, rfl⟩ := List.exists_cons_of_ne_nil hxs
  have hlast : (x :: y :: ys).getLastD "" = (y :: ys).getLastD "" := rfl
  rw [expandTail, expandTail, hlast]
  by_cases hdot : '.' ∈ ((y :: ys).getLastD "").toList
  · rw [if_pos hdot, if_pos hdot, Option.map_map]
    rfl
  · rw [if_neg hdot, if_neg hdot]
    rfl

theorem ofParts_cons {x : String} {xs : List String} {n : Nat} (hx : parseHextet x = none)
    (h : ofParts (x :: xs) = some n) : x = "" ∧ skips (x :: xs) = [1] := by
  rw [ofParts] at h
  by_cases hlen : 9 < (x :: xs).length
  · rw [if_pos hlen] at h
    cases h
  rw [if_neg hlen] at h
  split at h
  · by_cases h8 : (x :: xs).length = 8
    · rw [if_pos h8] at h
      exact absurd hx (ofHextets_cons h)
    · rw [if_neg h8] at h
      cases h
  · next skip hskips =>
    have hskip : skip ∈ skips (x :: xs) := hskips ▸ List.mem_cons_self
    obtain ⟨k, rfl⟩ : ∃ k, skip = k + 1 := ⟨skip - 1, by have := (mem_skips.1 hskip).1; omega⟩
    obtain ⟨hi, hhi, h⟩ := Option.bind_eq_some_iff.1 h
    obtain ⟨lo, -, h⟩ := Option.bind_eq_some_iff.1 h
    rw [hiParts, List.headD_cons] at hhi
    by_cases hempty : x = ""
    · rw [if_pos hempty] at hhi
      by_cases hk : k + 1 = 1
      · exact ⟨hempty, by rw [hskips, hk]⟩
      · rw [if_neg hk] at hhi
        cases hhi
    · rw [if_neg hempty, List.take_succ_cons] at hhi
      cases hhi
      split at h
      · cases h
      · obtain ⟨m, hm, -⟩ := Option.bind_eq_some_iff.1 h
        exact absurd hx (ofHextets_cons hm)
  · cases h

/-- After an empty first group comes `::`, and no address of its own. -/
theorem ofParts_empty_cons {xs : List String} {n : Nat} (h : ofParts ("" :: xs) = some n) :
    ofParts xs = none := by
  have hskips := (ofParts_cons parseHextet_empty h).2
  have hone : 1 ∈ skips ("" :: xs) := hskips ▸ List.mem_cons_self
  rw [mem_skips, List.length_cons] at hone
  by_contra hne
  obtain ⟨m, hm⟩ := Option.ne_none_iff_exists'.1 hne
  obtain ⟨y, ys, rfl⟩ : ∃ y ys, xs = y :: ys :=
    List.exists_cons_of_ne_nil fun hnil => by simp [hnil] at hone
  have hy : y = "" := hone.2.2
  subst hy
  have hys : 1 ∈ skips ("" :: ys) := (ofParts_cons parseHextet_empty hm).2 ▸ List.mem_cons_self
  have htwo : 2 ∈ skips ("" :: "" :: ys) := by
    rw [mem_skips] at hys ⊢
    refine ⟨by decide, ?_, hys.2.2⟩
    have := hys.2.1
    simp only [List.length_cons] at this ⊢
    omega
  rw [hskips] at htwo
  simp at htwo

theorem ipv6FromString_eq_some {s : String} {n : Nat} :
    ipv6FromString s = some n ↔
      3 ≤ (split ':' s).length ∧ ∃ parts, expandTail (split ':' s) = some parts ∧
        ofParts parts = some n := by
  rw [ipv6FromString]
  by_cases hlen : (split ':' s).length < 3
  · rw [if_pos hlen]
    simp only [reduceCtorEq, false_iff]
    rintro ⟨h3, -⟩
    omega
  · rw [if_neg hlen, Option.bind_eq_some_iff]
    simp only [Nat.not_lt.1 hlen, true_and]

theorem mem_of_ipv6FromString {s : String} {n : Nat} (h : ipv6FromString s = some n) :
    ':' ∈ s.toList := by
  have hlen := (ipv6FromString_eq_some.1 h).1
  by_contra hmem
  rw [split_of_not_mem hmem] at hlen
  simp at hlen

/-- What stands before the first colon of an address is a group, unless it starts with `::`. -/
theorem ipv6FromString_cons {x y : String} {n : Nat} (hcolon : ':' ∉ x.toList)
    (h : ipv6FromString (x ++ ":" ++ y) = some n) :
    ':' ∈ y.toList ∧ (parseHextet x = none → x = "" ∧ ipv6FromString y = none) := by
  have hsplit : split ':' (x ++ ":" ++ y) = x :: split ':' y := split_append hcolon y
  obtain ⟨hlen, parts, hparts, hof⟩ := ipv6FromString_eq_some.1 h
  rw [hsplit] at hlen hparts
  rw [expandTail_cons (split_ne_nil _ _)] at hparts
  obtain ⟨ys, hys, rfl⟩ := Option.map_eq_some_iff.1 hparts
  constructor
  · by_contra hmem
    rw [split_of_not_mem hmem] at hlen
    simp at hlen
  · intro hx
    obtain ⟨rfl, -⟩ := ofParts_cons hx hof
    refine ⟨rfl, Option.eq_none_iff_forall_ne_some.2 fun m hm => ?_⟩
    obtain ⟨-, parts, hparts, hofy⟩ := ipv6FromString_eq_some.1 hm
    rw [hys] at hparts
    cases hparts
    rw [ofParts_empty_cons hof] at hofy
    cases hofy

/-! ## A name before a network -/

theorem parseNetwork_eq_some {s : String} {n : Network} (h : parseNetwork s = some n) :
    (n.ipv6 = false ∧ ipv4Network s = some (n.address, n.prefixlen)) ∨
      (n.ipv6 = true ∧ ipv6Network s = some (n.address, n.prefixlen)) := by
  rw [parseNetwork] at h
  cases h4 : ipv4Network s with
  | some r =>
    rw [h4] at h
    cases h
    exact .inl ⟨rfl, rfl⟩
  | none =>
    rw [h4] at h
    obtain ⟨r, h6, hr⟩ := Option.map_eq_some_iff.1 h
    cases hr
    exact .inr ⟨rfl, h6⟩

/-- A name, a colon and a network are no network, if the network is one of IPv4 or the name is not a
group of an address. -/
theorem parseNetwork_cons {x p : String} {n : Network} (hcolon : ':' ∉ x.toList)
    (hp : parseNetwork p = some n) (hx : n.ipv6 = false ∨ parseHextet x = none) :
    parseNetwork (x ++ ":" ++ p) = none := by
  have hmem : ':' ∈ (x ++ ":" ++ p).toList := by simp
  have hv4 : ipv4Network (x ++ ":" ++ p) = none := by
    refine Option.eq_none_iff_forall_ne_some.2 fun r hr => ?_
    exact absurd (ipv4Network_char hr ':' hmem) (by decide)
  have hv6 : ipv6Network (x ++ ":" ++ p) = none := by
    refine Option.eq_none_iff_forall_ne_some.2 fun r hr => ?_
    obtain ⟨m, hm⟩ := ipv6Network_address hr
    have haddr := addressPart_cons hcolon (mem_of_ipv6FromString hm)
    rw [haddr] at hm
    obtain ⟨hmemy, hcons⟩ := ipv6FromString_cons hcolon hm
    rcases parseNetwork_eq_some hp with ⟨-, hp4⟩ | ⟨hn, hp6⟩
    · exact absurd (ipv4Network_char hp4 ':' (mem_of_mem_addressPart hmemy)) (by decide)
    · obtain ⟨k, hk⟩ := ipv6Network_address hp6
      have hnone := (hcons (hx.resolve_left (by simp [hn]))).2
      rw [hk] at hnone
      cases hnone
  rw [parseNetwork, hv4, hv6]
  rfl

end SonicBuildimage.Lib.IpAddress
