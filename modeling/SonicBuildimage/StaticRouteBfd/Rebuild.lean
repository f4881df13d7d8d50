/-
  The lists of a route as they are published: `reconstruct_static_route_config`.

  The five comma lists of a route are rebuilt from the members whose next hop is reachable.
  `static_route_set_handler` compares the lengths of `nexthop`, `ifname` and `nexthop-vrf` only,
  while `IpNextHopSet` of bgpcfgd, which reads the result, wants all five of one length.  A list
  of distances that is too short passes the checks, and the rebuilding of the route raises an
  `IndexError` when a next hop beyond its end comes up (`reconstruct_raises`).

  `reconstruct_aligned_iff`: for every update that the handler accepts and every set of its next
  hops, the rebuilding succeeds with the members of all lists at one place from one position
  (`positions`), if and only if the lists `blackhole` and `distance` are blank or reach to every
  position that is kept, and the list of VRFs, which is stored as one text, still gives these rows
  when it is read back (a VRF in the key of the route may have commas and blanks).
-/
import SonicBuildimage.StaticRouteBfd.Publish
import SonicBuildimage.StaticRouteBfd.Index

namespace SonicBuildimage.StaticRouteBfd

open SonicBuildimage.Lib

/-! ## Positions -/

/-- A member of a list of a route; empty when there is no list. -/
def memberAt (l : Option (List String)) (i : Nat) : String :=
  match l with
  | some l => l.getD i ""
  | none => ""

/-- The positions of the next hops that are reachable. -/
def positions (reach : List (String × String)) (vrfs ips : List String) : List Nat :=
  (List.range ips.length).filter fun i => (vrfs.getD i "", ips.getD i "") ∈ reach

/-- The list has a member at a position, or there is no list. -/
def Reaches (i : Nat) (l : Option (List String)) : Prop := ∀ l' ∈ l, i < l'.length

instance (i : Nat) (l : Option (List String)) : Decidable (Reaches i l) :=
  inferInstanceAs (Decidable (∀ l' ∈ l, _))

theorem memberAt_tail (l : Option (List String)) (i : Nat) :
    memberAt (l.map List.tail) i = memberAt l (i + 1) := by
  cases l with
  | none => rfl
  | some l =>
    cases l with
    | nil => rfl
    | cons x l => rfl

theorem reaches_tail {i : Nat} {l : Option (List String)} :
    Reaches i (l.map List.tail) ↔ Reaches (i + 1) l := by
  cases l with
  | none => exact ⟨fun _ => nofun, fun _ => nofun⟩
  | some l =>
    simp only [Reaches, Option.map_some, Option.mem_some_iff, forall_eq', List.length_tail]
    omega

/-- The first member, if it is there. -/
theorem item_eq_some_iff {l : Option (List String)} {x : String} :
    item l = some x ↔ Reaches 0 l ∧ x = memberAt l 0 := by
  cases l with
  | none => simp [item, Reaches, memberAt, eq_comm]
  | some l =>
    cases l with
    | nil => simp [item, Reaches]
    | cons y l => simp [item, Reaches, memberAt, eq_comm]

theorem positions_cons (reach : List (String × String)) (vrf ip : String) (vrfs ips : List String) :
    positions reach (vrf :: vrfs) (ip :: ips) =
      (if (vrf, ip) ∈ reach then [0] else []) ++ (positions reach vrfs ips).map (· + 1) := by
  unfold positions
  rw [List.length_cons, List.range_succ_eq_map, List.filter_cons, List.filter_map]
  by_cases h : (vrf, ip) ∈ reach
  · simp [h, Function.comp_def]
  · simp [h, Function.comp_def]

/-- The row of a position. -/
def rowAt (ips vrfs : List String) (bkh intfs dist : Option (List String)) (i : Nat) : Row :=
  ⟨memberAt bkh i, memberAt (some ips) i, memberAt intfs i, memberAt dist i,
    memberAt (some vrfs) i⟩

/-- The lists of a route reach to a position. -/
def AllReach (bkh intfs dist : Option (List String)) (i : Nat) : Prop :=
  Reaches i bkh ∧ Reaches i intfs ∧ Reaches i dist

/-- The loop keeps the rows of the positions, if the lists reach to them. -/
theorem reachableRows_eq_some_iff {reach : List (String × String)} {ips vrfs : List String}
    {bkh intfs dist : Option (List String)} (hvrfs : ips.length ≤ vrfs.length) {rows : List Row} :
    reachableRows reach ips vrfs bkh intfs dist = some rows ↔
      (∀ i ∈ positions reach vrfs ips, AllReach bkh intfs dist i) ∧
        rows = (positions reach vrfs ips).map (rowAt ips vrfs bkh intfs dist) := by
  induction ips generalizing vrfs bkh intfs dist rows with
  | nil => simp [reachableRows, positions, eq_comm]
  | cons ip ips ih =>
    obtain ⟨vrf, vrfs, rfl⟩ := List.exists_cons_of_length_pos (Nat.zero_lt_of_lt hvrfs)
    have hrow : ∀ i, rowAt (ip :: ips) (vrf :: vrfs) bkh intfs dist (i + 1) =
        rowAt ips vrfs (bkh.map List.tail) (intfs.map List.tail) (dist.map List.tail) i := by
      intro i
      unfold rowAt
      rw [memberAt_tail, memberAt_tail, memberAt_tail]
      rfl
    have htail : ∀ i, AllReach bkh intfs dist (i + 1) ↔
        AllReach (bkh.map List.tail) (intfs.map List.tail) (dist.map List.tail) i := by
      intro i
      simp only [AllReach, reaches_tail]
    have hfirst : rowAt (ip :: ips) (vrf :: vrfs) bkh intfs dist 0 =
        ⟨memberAt bkh 0, ip, memberAt intfs 0, memberAt dist 0, vrf⟩ := rfl
    have hrest := fun rows => @ih vrfs (bkh.map List.tail) (intfs.map List.tail)
      (dist.map List.tail) (Nat.le_of_succ_le_succ hvrfs) rows
    simp only [reachableRows, Option.bind_eq_bind, Option.bind_eq_some_iff, hrest, positions_cons]
    by_cases h : (vrf, ip) ∈ reach
    · simp only [h, if_true, Option.bind_eq_some_iff, List.singleton_append, List.map_cons,
        List.map_map, List.forall_mem_cons, List.forall_mem_map, htail, Function.comp_def, hrow,
        hfirst]
      constructor
      · rintro ⟨rest, ⟨hall, rfl⟩, bkh₀, hbkh, intf₀, hintf, dist₀, hdist, hrows⟩
        obtain ⟨hb, rfl⟩ := item_eq_some_iff.1 hbkh
        obtain ⟨hi, rfl⟩ := item_eq_some_iff.1 hintf
        obtain ⟨hd, rfl⟩ := item_eq_some_iff.1 hdist
        exact ⟨⟨⟨hb, hi, hd⟩, hall⟩, (Option.some.inj hrows).symm⟩
      · rintro ⟨⟨⟨hb, hi, hd⟩, hall⟩, rfl⟩
        exact ⟨_, ⟨hall, rfl⟩, _, item_eq_some_iff.2 ⟨hb, rfl⟩, _, item_eq_some_iff.2 ⟨hi, rfl⟩, _,
          item_eq_some_iff.2 ⟨hd, rfl⟩, rfl⟩
    · simp only [h, if_false, List.nil_append, List.map_map, List.forall_mem_map, htail,
        Function.comp_def, hrow]
      constructor
      · rintro ⟨rest, ⟨hall, rfl⟩, hrows⟩
        exact ⟨hall, (Option.some.inj hrows).symm⟩
      · rintro ⟨hall, rfl⟩
        exact ⟨_, ⟨hall, rfl⟩, rfl⟩

/-! ## The stored lists -/

def listFields : List String := ["blackhole", "nexthop", "ifname", "distance", "nexthop-vrf"]

/-- The rows of a route whose pair is in a set, for a list of VRFs. -/
def rowsOf (d : Data) (vrfs : List String) (reach : List (String × String)) : List Row :=
  let ips := (fieldList d "nexthop").getD []
  (positions reach vrfs ips).map
    (rowAt ips vrfs (fieldList d "blackhole") (fieldList d "ifname") (fieldList d "distance"))

/-- The member of a row in one of the lists. -/
def Row.field (r : Row) (f : String) : String :=
  if f = "blackhole" then r.blackhole
  else if f = "nexthop" then r.nexthop
  else if f = "ifname" then r.ifname
  else if f = "distance" then r.distance
  else r.nexthopVrf

theorem newConfigField_list (rows : List Row) {f : String} (hf : f ∈ listFields) (v : String) :
    newConfigField rows f v = some (join "," (rows.map (Row.field · f))) := by
  rw [← candidate_eq_join]
  simp only [listFields, List.mem_cons, List.not_mem_nil, or_false] at hf
  rcases hf with rfl | rfl | rfl | rfl | rfl <;> simp [newConfigField, Row.field]

/-- Rows with the same members are the same. -/
theorem rows_ext {rows rows' : List Row}
    (h : ∀ f ∈ listFields, rows.map (Row.field · f) = rows'.map (Row.field · f)) :
    rows = rows' := by
  have hlen : rows.length = rows'.length := by
    have := congrArg List.length (h "nexthop" (by decide))
    rwa [List.length_map, List.length_map] at this
  refine List.ext_getElem hlen fun i hi hi' => ?_
  have hfield : ∀ f ∈ listFields, (rows[i]).field f = (rows'[i]).field f := by
    intro f hf
    have := congrArg (fun l => l[i]?) (h f hf)
    simpa [hi, hi'] using this
  have hb := hfield "blackhole" (by decide)
  have hn := hfield "nexthop" (by decide)
  have hi := hfield "ifname" (by decide)
  have hd := hfield "distance" (by decide)
  have hv := hfield "nexthop-vrf" (by decide)
  simp only [Row.field] at hb hn hi hd hv
  exact (Row.mk.injEq ..).mpr ⟨hb, hn, hi, hd, hv⟩

/-- The members of a list that was split have no comma. -/
theorem not_mem_memberAt {d : Data} {f : String} (i : Nat) :
    ',' ∉ (memberAt (fieldList d f) i).toList := by
  unfold memberAt
  cases hl : fieldList d f with
  | none => simp
  | some l =>
    obtain ⟨v, -, hv⟩ := Option.bind_eq_some_iff.1 hl
    dsimp only
    by_cases hi : i < l.length
    · rw [List.getD_eq_getElem _ _ hi]
      exact (mem_argList hv (List.getElem_mem hi)).1
    · rw [List.getD_eq_default _ _ (not_lt.1 hi)]
      simp

/-- The fields of the rebuilt route. -/
theorem get?_reconstruct {d : Data} {rows : List Row} {f w : String}
    (hf : ∀ v, newConfigField rows f v = some w) (hne : f ≠ "expiry") :
    ((Dict.filterMapValues (newConfigField rows) d).set "expiry" "false").get? f =
      (d.get? f).map fun _ => w := by
  rw [Dict.get?_set_ne _ _ hne.symm]
  cases hget : d.get? f with
  | none => exact Dict.get?_filterMapValues_none _ hget
  | some v => exact Dict.get?_filterMapValues _ _ _ _ hf (by rw [hget]; simp)

/-- The published lists are those of some rows. -/
def Publishes (d : Data) (rows : List Row) (e : Data) : Prop :=
  ∀ f ∈ listFields, e.get? f = (d.get? f).map fun _ => join "," (rows.map (Row.field · f))

/-- What comes out, with the VRFs as they are read from the stored text. -/
theorem reconstruct_iff {d : Data} {ips vrfs intfs : List String}
    (hips : fieldList d "nexthop" = some ips) (hvrfs : fieldList d "nexthop-vrf" = some vrfs)
    (hlen : ips.length ≤ vrfs.length) (hintfs : fieldList d "ifname" = some intfs)
    (hintfsLen : intfs.length = ips.length) (reach : List (String × String)) :
    (reconstructStaticRouteConfig d reach ≠ none ↔ ∀ i ∈ positions reach vrfs ips,
        Reaches i (fieldList d "blackhole") ∧ Reaches i (fieldList d "distance")) ∧
      ∀ e ∈ reconstructStaticRouteConfig d reach, Publishes d (rowsOf d vrfs reach) e := by
  have hreach : ∀ i ∈ positions reach vrfs ips, Reaches i (fieldList d "ifname") := by
    intro i hi l hl
    rw [hintfs] at hl
    obtain rfl := Option.some.inj hl
    rw [hintfsLen]
    exact List.mem_range.1 (List.mem_filter.1 hi).1
  have hrows : ∀ rows, reachableRows reach ips vrfs (fieldList d "blackhole") (fieldList d "ifname")
      (fieldList d "distance") = some rows ↔ (∀ i ∈ positions reach vrfs ips,
        Reaches i (fieldList d "blackhole") ∧ Reaches i (fieldList d "distance")) ∧
        rows = rowsOf d vrfs reach := by
    intro rows
    rw [reachableRows_eq_some_iff hlen, rowsOf, hips]
    refine and_congr_left fun _ => forall₂_congr fun i hi => ?_
    exact ⟨fun h => ⟨h.1, h.2.2⟩, fun h => ⟨h.1, hreach i hi, h.2⟩⟩
  unfold reconstructStaticRouteConfig
  rw [hips, hvrfs]
  simp only [Option.bind_eq_bind, Option.bind_some]
  refine ⟨⟨fun h => ?_, fun h => ?_⟩, fun e he => ?_⟩
  · obtain ⟨e, he⟩ := Option.ne_none_iff_exists'.1 h
    obtain ⟨rows, heq, -⟩ := Option.bind_eq_some_iff.1 he
    exact ((hrows rows).1 heq).1
  · rw [(hrows _).2 ⟨h, rfl⟩]
    exact nofun
  · obtain ⟨rows, heq, he⟩ := Option.bind_eq_some_iff.1 he
    obtain rfl := ((hrows rows).1 heq).2
    obtain rfl := Option.some.inj he
    intro f hf
    refine get?_reconstruct (fun v => newConfigField_list _ hf v) ?_
    rintro rfl
    exact absurd hf (by decide)

/-! ## Accepted updates -/

/-- A VRF of a next hop is that of the route, or is read from a list. -/
theorem mem_nhVrfList {env : Env} {s : State} {key : String} {data : Data} {u : Update}
    (h : acceptedUpdate env s key data = some u) {v : String} (hv : v ∈ u.nhVrfList) :
    v = u.vrf ∨ (v ≠ "" ∧ ',' ∉ v.toList ∧ strip v = v) := by
  obtain ⟨-, vrf, ipPrefix, stored, nhVrfList, new, -, -, hp, -, rfl⟩ := acceptedUpdate_cases h
  obtain ⟨vrfs, hvrfs, hpair⟩ := Option.bind_eq_some_iff.1 hp
  obtain ⟨-, rfl⟩ := Prod.mk.inj (Option.some.inj hpair)
  unfold nhVrfListOf at hvrfs
  split at hvrfs
  · obtain ⟨ips, -, rfl⟩ := Option.map_eq_some_iff.1 hvrfs
    exact .inl (List.eq_of_mem_replicate hv)
  · next l hl =>
    obtain rfl := Option.some.inj hvrfs
    obtain ⟨x, hx, rfl⟩ := List.mem_map.1 hv
    obtain ⟨text, -, htext⟩ := Option.bind_eq_some_iff.1 hl
    by_cases hempty : x = ""
    · rw [if_pos hempty]
      exact .inl rfl
    · rw [if_neg hempty]
      exact .inr ⟨hempty, mem_argList htext hx⟩

/-- Members without commas and blanks are read back. -/
theorem eq_of_argList_join {l l' : List String} (hne : l ≠ [])
    (h : ∀ v ∈ l, ',' ∉ v.toList ∧ strip v = v) (hl : argList (join "," l) = some l') : l' = l := by
  have hsplit : split ',' (join "," l) = l := split_join hne fun v hv => (h v hv).1
  have hstrip : l.map strip = l.map id := List.map_congr_left fun v hv => (h v hv).2
  unfold argList at hl
  split_ifs at hl
  rw [hsplit, hstrip, List.map_id] at hl
  exact (Option.some.inj hl).symm

/-- The text of VRFs has at least as many members as it was made from. -/
theorem length_argList_join {l l' : List String} (hne : l ≠ [])
    (hl : argList (join "," l) = some l') : l.length ≤ l'.length := by
  unfold argList at hl
  split_ifs at hl
  have hcount := count_join (c := ',') hne
  have hsplit := length_split ',' (join "," l)
  rw [← Option.some.inj hl, List.length_map, hsplit]
  exact hcount ▸ Nat.le_add_right _ _

/-- A joined text is empty only if it has at most one part, and that is empty. -/
theorem join_eq_empty {xs : List String} (h : join "," xs = "") : xs = [] ∨ xs = [""] := by
  by_cases hne : xs = []
  · exact .inl hne
  · right
    have hcount := count_join (c := ',') hne
    have hempty : join (String.singleton ',') xs = "" := h
    rw [hempty] at hcount
    obtain ⟨x, rest, rfl⟩ := List.exists_cons_of_ne_nil hne
    rw [List.length_cons] at hcount
    obtain rfl : rest = [] := List.length_eq_zero_iff.1 (by simp at hcount; omega)
    have htext := congrArg String.toList h
    rw [toList_join_cons] at htext
    rw [String.toList_inj.1 (show x.toList = "".toList by simpa using htext)]

/-- The rebuilt lists have, at one place, the members of one position, for exactly the positions
    whose pair is in the set. -/
def Aligned (u : Update) (reach : List (String × String)) : Prop :=
  ∃ e, reconstructStaticRouteConfig u.data reach = some e ∧
    Publishes u.data (rowsOf u.data u.nhVrfList reach) e

/-- The lists reach to every position that is kept, and the stored text of VRFs gives the rows of
    the VRFs it was made from. -/
def Sound (u : Update) (reach : List (String × String)) : Prop :=
  ∃ vrfs, fieldList u.data "nexthop-vrf" = some vrfs ∧
    (∀ i ∈ positions reach vrfs ((fieldList u.data "nexthop").getD []),
      Reaches i (fieldList u.data "blackhole") ∧ Reaches i (fieldList u.data "distance")) ∧
    rowsOf u.data vrfs reach = rowsOf u.data u.nhVrfList reach

section Rows

variable {u : Update} {ips vrfs : List String} {reach : List (String × String)} {f : String}

/-- The members of the rows in one list. -/
theorem map_field_rowsOf (hips : fieldList u.data "nexthop" = some ips) (hf : f ∈ listFields) :
    (rowsOf u.data vrfs reach).map (Row.field · f) = (positions reach vrfs ips).map
      (memberAt (if f = "nexthop-vrf" then some vrfs else fieldList u.data f)) := by
  rw [rowsOf, List.map_map, hips]
  refine List.map_congr_left fun i _ => ?_
  simp only [listFields, List.mem_cons, List.not_mem_nil, or_false] at hf
  rcases hf with rfl | rfl | rfl | rfl | rfl <;> simp [Row.field, rowAt, hips]

/-- As read back, no member has a comma. -/
theorem not_mem_field (hips : fieldList u.data "nexthop" = some ips)
    (hvrfs : fieldList u.data "nexthop-vrf" = some vrfs) (hf : f ∈ listFields) {x : String}
    (hx : x ∈ (rowsOf u.data vrfs reach).map (Row.field · f)) : ',' ∉ x.toList := by
  rw [map_field_rowsOf hips hf, ← hvrfs] at hx
  obtain ⟨i, -, rfl⟩ := List.mem_map.1 hx
  split_ifs
  · exact not_mem_memberAt i
  · exact not_mem_memberAt i

/-- The positions of a set of pairs of the update are not empty, if the set is not. -/
theorem positions_ne_nil {vrfs ips : List String} (hlen : vrfs.length = ips.length)
    {p : String × String} (hp : p ∈ reach) (hpair : p ∈ vrfs.zip ips) :
    positions reach vrfs ips ≠ [] := by
  obtain ⟨i, hi, rfl⟩ := List.mem_iff_getElem.1 hpair
  rw [List.length_zip, hlen, Nat.min_self] at hi
  refine List.ne_nil_of_mem (List.mem_filter.2 ⟨List.mem_range.2 hi, decide_eq_true ?_⟩)
  rw [List.getD_eq_getElem _ _ (hlen ▸ hi), List.getD_eq_getElem _ _ hi]
  rwa [List.getElem_zip] at hp

/-- The only row of a set is gone in the text, as its members are empty. -/
theorem rowsOf_eq_nil_or {vrfs : List String} (hips : fieldList u.data "nexthop" = some ips)
    (h : ∀ f ∈ listFields, join "," ((rowsOf u.data vrfs reach).map (Row.field · f)) = "" ∨
      u.data.get? f = none) (hv : u.data.get? "nexthop-vrf" ≠ none) :
    positions reach vrfs ips = [] ∨ ∃ i, i < ips.length ∧ positions reach vrfs ips = [i] ∧
      vrfs.getD i "" = "" ∧ ips.getD i "" = "" := by
  have hcol := fun f hf => (h f hf).imp_left join_eq_empty
  have hn := (hcol "nexthop" (by decide)).resolve_right (get?_of_fieldList hips)
  have hvrf := (hcol "nexthop-vrf" (by decide)).resolve_right hv
  rw [map_field_rowsOf hips (by decide), if_neg (by decide), hips, List.map_eq_nil_iff] at hn
  rw [map_field_rowsOf hips (by decide), if_pos rfl, List.map_eq_nil_iff] at hvrf
  rcases hn with hn | hn
  · exact .inl hn
  · obtain ⟨i, hpos, hip⟩ := List.map_eq_singleton_iff.1 hn
    rw [hpos] at hvrf
    have hmem : i ∈ positions reach vrfs ips := hpos ▸ List.mem_singleton_self i
    refine .inr ⟨i, List.mem_range.1 (List.mem_filter.1 hmem).1, hpos, ?_, hip⟩
    simpa [memberAt] using hvrf

/-- Lists that make the same texts are those of the same rows. -/
theorem rowsOf_eq_of_publishes (hips : fieldList u.data "nexthop" = some ips)
    (hvrfs : fieldList u.data "nexthop-vrf" = some vrfs) {vrfs' : List String} {e : Data}
    (hlen : (rowsOf u.data vrfs' reach).length = (rowsOf u.data vrfs reach).length)
    (h : Publishes u.data (rowsOf u.data vrfs reach) e)
    (h' : Publishes u.data (rowsOf u.data vrfs' reach) e) :
    rowsOf u.data vrfs reach = rowsOf u.data vrfs' reach := by
  refine rows_ext fun f hf => ?_
  have htext := (h f hf).symm.trans (h' f hf)
  cases hd : u.data.get? f with
  | none =>
    -- there is no such list, and all members are empty
    have hne : f ≠ "nexthop-vrf" := by
      rintro rfl
      exact get?_of_fieldList hvrfs hd
    have hnone : fieldList u.data f = none := by
      rw [fieldList, hd]
      rfl
    rw [rowsOf, rowsOf, List.length_map, List.length_map, hips] at hlen
    rw [map_field_rowsOf hips hf, map_field_rowsOf hips hf, if_neg hne, if_neg hne, hnone]
    change (positions reach vrfs ips).map (fun _ => "") =
      (positions reach vrfs' ips).map fun _ => ""
    rw [List.map_const', List.map_const']
    exact congrArg (List.replicate · "") hlen.symm
  | some text =>
    rw [hd] at htext
    refine (join_inj (c := ',') ?_ (fun x hx => not_mem_field hips hvrfs hf hx)
      (Option.some.inj htext).symm).symm
    rw [List.length_map, List.length_map, hlen]

theorem length_rowsOf (hips : fieldList u.data "nexthop" = some ips) (vrfs : List String) :
    (rowsOf u.data vrfs reach).length = (positions reach vrfs ips).length := by
  rw [rowsOf, List.length_map, hips]
  rfl

/-- Texts of rows that are there tell how many there are. -/
theorem length_eq_of_join {vrfs vrfs' : List String} (hips : fieldList u.data "nexthop" = some ips)
    (hpos : positions reach vrfs ips ≠ []) (hpos' : positions reach vrfs' ips ≠ [])
    (h : join "," ((rowsOf u.data vrfs reach).map (Row.field · "nexthop")) =
      join "," ((rowsOf u.data vrfs' reach).map (Row.field · "nexthop"))) :
    (positions reach vrfs' ips).length = (positions reach vrfs ips).length := by
  rw [map_field_rowsOf hips (by decide), map_field_rowsOf hips (by decide), if_neg (by decide),
    if_neg (by decide)] at h
  have hcount : ∀ l : List Nat, l ≠ [] → (join "," (l.map
      (memberAt (fieldList u.data "nexthop")))).toList.count ',' + 1 = l.length := by
    intro l hl
    have hcomma : ∀ x ∈ l.map (memberAt (fieldList u.data "nexthop")), ',' ∉ x.toList := by
      rintro x hx
      obtain ⟨i, -, rfl⟩ := List.mem_map.1 hx
      exact not_mem_memberAt i
    have hmap : l.map (memberAt (fieldList u.data "nexthop")) ≠ [] := mt List.map_eq_nil_iff.1 hl
    have hjoin := count_join (c := ',') hmap
    rw [sum_count_eq_zero.2 hcomma, Nat.add_zero, List.length_map] at hjoin
    exact hjoin
  rw [← hcount _ hpos, ← hcount _ hpos', h]

end Rows

/-- A VRF of a next hop is empty only if that of the route is, and then all are read back. -/
theorem vrfs_eq_of_empty {env : Env} {s : State} {key : String} {data : Data} {u : Update}
    (hacc : acceptedUpdate env s key data = some u) {vrfs : List String}
    (hread : argList (join "," u.nhVrfList) = some vrfs) (hempty : "" ∈ u.nhVrfList) :
    vrfs = u.nhVrfList := by
  refine eq_of_argList_join (List.ne_nil_of_mem hempty) (fun v hv => ?_) hread
  have hvrf : "" = u.vrf := (mem_nhVrfList hacc hempty).resolve_right fun h => h.1 rfl
  rcases mem_nhVrfList hacc hv with rfl | h
  · rw [← hvrf]
    decide
  · exact h.2

/-- For every accepted update and every set of its pairs. -/
theorem reconstruct_aligned_iff {env : Env} {s : State} {key : String} {data : Data} {u : Update}
    (hacc : acceptedUpdate env s key data = some u) {reach : List (String × String)}
    (hreach : ∀ p ∈ reach, p ∈ u.nexthops.map Nexthop.pair) :
    Aligned u reach ↔ Sound u reach := by
  have hspec := acceptedUpdate_spec hacc
  obtain ⟨ips, intfs, hips, hintfs, hintfsLen, hvrfsLen, hnexthops⟩ := hspec.lists
  have hne : u.nhVrfList ≠ [] := by
    intro hnil
    rw [hnil, List.length_nil] at hvrfsLen
    exact fieldList_ne_nil hips (List.length_eq_zero_iff.1 hvrfsLen.symm)
  have hread : fieldList u.data "nexthop-vrf" = argList (join "," u.nhVrfList) := by
    rw [fieldList, hspec.vrfText, Option.bind_some]
  cases hvrfs : fieldList u.data "nexthop-vrf" with
  | none =>
    refine iff_of_false ?_ ?_
    · rintro ⟨e, he, -⟩
      rw [reconstructStaticRouteConfig, hips, hvrfs] at he
      cases he
    · rintro ⟨vrfs, h, -⟩
      rw [hvrfs] at h
      cases h
  | some vrfs =>
    have hlen := length_argList_join hne (hread.symm.trans hvrfs)
    rw [hvrfsLen] at hlen
    obtain ⟨hsome, hpub⟩ := reconstruct_iff hips hvrfs hlen hintfs hintfsLen reach
    have hsound : Sound u reach ↔ reconstructStaticRouteConfig u.data reach ≠ none ∧
        rowsOf u.data vrfs reach = rowsOf u.data u.nhVrfList reach := by
      rw [hsome, Sound, hvrfs, hips]
      simp
    rw [hsound]
    constructor
    · rintro ⟨e, he, hown⟩
      refine ⟨by rw [he]; nofun, rowsOf_eq_of_publishes hips hvrfs ?_ (hpub e he) hown⟩
      rw [length_rowsOf hips, length_rowsOf hips]
      have htext : ∀ f ∈ listFields, join "," ((rowsOf u.data vrfs reach).map (Row.field · f)) =
          join "," ((rowsOf u.data u.nhVrfList reach).map (Row.field · f)) ∨
            u.data.get? f = none := by
        intro f hf
        have heq := (hpub e he f hf).symm.trans (hown f hf)
        cases hd : u.data.get? f with
        | none => exact .inr rfl
        | some v =>
          rw [hd] at heq
          exact .inl (Option.some.inj heq)
      have hstored := get?_of_fieldList hvrfs
      by_cases hpos : positions reach vrfs ips = []
      · -- nothing is kept: a next hop that is missing would have no text, and so no VRF
        have hnil : rowsOf u.data vrfs reach = [] := by
          rw [← List.length_eq_zero_iff, length_rowsOf hips, hpos, List.length_nil]
        rw [hnil] at htext
        rcases rowsOf_eq_nil_or hips (fun f hf => (htext f hf).imp_left Eq.symm) hstored with
          hown' | ⟨i, hi, hown', hvrf, -⟩
        · rw [hpos, hown']
        · have hempty : "" ∈ u.nhVrfList := by
            rw [List.getD_eq_getElem _ _ (hvrfsLen ▸ hi)] at hvrf
            exact hvrf ▸ List.getElem_mem _
          rw [vrfs_eq_of_empty hacc (hread.symm.trans hvrfs) hempty]
      by_cases hown' : positions reach u.nhVrfList ips = []
      · -- a next hop that should not be kept would be one of the set
        have hnil : rowsOf u.data u.nhVrfList reach = [] := by
          rw [← List.length_eq_zero_iff, length_rowsOf hips, hown', List.length_nil]
        rw [hnil] at htext
        rcases rowsOf_eq_nil_or hips htext hstored with hnone | ⟨i, hi, hone, -, -⟩
        · exact absurd hnone hpos
        · have hmem : i ∈ positions reach vrfs ips := hone ▸ List.mem_singleton_self i
          have hpair := of_decide_eq_true (List.mem_filter.1 hmem).2
          have hzip := hreach _ hpair
          rw [hnexthops, (zipNexthops_pair hintfsLen hvrfsLen).1] at hzip
          exact absurd hown' (positions_ne_nil hvrfsLen hpair hzip)
      exact length_eq_of_join hips hpos hown'
        ((htext "nexthop" (by decide)).resolve_right (get?_of_fieldList hips))
    · rintro ⟨hraises, hrows⟩
      obtain ⟨e, he⟩ := Option.ne_none_iff_exists'.1 hraises
      exact ⟨e, he, hrows ▸ hpub e he⟩

/-- Two next hops, of which the first has a distance. -/
def oneDistance (distance : String) : Data :=
  [("nexthop", "10.0.0.1,10.0.0.3"), ("ifname", "Ethernet0,Ethernet4"), ("bfd", "true"),
    ("distance", distance)]

/-- The first one alone is published with its distance. -/
theorem reconstruct_first :
    ∃ u e, acceptedUpdate ipv4Env init "1.1.1.0/24" (oneDistance "10") = some u ∧
      reconstructStaticRouteConfig u.data [("default", "10.0.0.1")] = some e ∧
      e.get? "distance" = some "10" ∧ e.get? "ifname" = some "Ethernet0" := by
  have hsome : (acceptedUpdate ipv4Env init "1.1.1.0/24" (oneDistance "10")).isSome := by
    decide +kernel
  obtain ⟨u, hu⟩ := Option.isSome_iff_exists.1 hsome
  have hall : ∀ u ∈ acceptedUpdate ipv4Env init "1.1.1.0/24" (oneDistance "10"),
      (∀ p ∈ [("default", "10.0.0.1")], p ∈ u.nexthops.map Nexthop.pair) ∧
      (fieldList u.data "nexthop-vrf" = some ["default", "default"] ∧
        (∀ i ∈ positions [("default", "10.0.0.1")] ["default", "default"]
            ((fieldList u.data "nexthop").getD []),
          Reaches i (fieldList u.data "blackhole") ∧ Reaches i (fieldList u.data "distance")) ∧
        rowsOf u.data ["default", "default"] [("default", "10.0.0.1")] =
          rowsOf u.data u.nhVrfList [("default", "10.0.0.1")]) ∧
      u.data.get? "distance" = some "10" ∧ u.data.get? "ifname" = some "Ethernet0,Ethernet4" ∧
      rowsOf u.data u.nhVrfList [("default", "10.0.0.1")] =
        [⟨"", "10.0.0.1", "Ethernet0", "10", "default"⟩] := by
    decide +kernel
  obtain ⟨hreach, hsound, hdist, hifname, hrows⟩ := hall u hu
  obtain ⟨e, he, hfields⟩ := (reconstruct_aligned_iff hu hreach).2 ⟨_, hsound⟩
  refine ⟨u, e, hu, he, ?_, ?_⟩
  · rw [hfields _ (by decide), hdist, hrows]
    rfl
  · rw [hfields _ (by decide), hifname, hrows]
    rfl

/-- With one distance for two next hops the update is accepted, and the rebuilding raises when
    the second one is reachable. -/
theorem reconstruct_raises :
    ∃ u, acceptedUpdate ipv4Env init "1.1.1.0/24" (oneDistance "10") = some u ∧
      reconstructStaticRouteConfig u.data [("default", "10.0.0.3")] = none := by
  have hsome : (acceptedUpdate ipv4Env init "1.1.1.0/24" (oneDistance "10")).isSome := by
    decide +kernel
  obtain ⟨u, hu⟩ := Option.isSome_iff_exists.1 hsome
  have hall : ∀ u ∈ acceptedUpdate ipv4Env init "1.1.1.0/24" (oneDistance "10"),
      reconstructStaticRouteConfig u.data [("default", "10.0.0.3")] = none := by
    decide +kernel
  exact ⟨u, hu, hall u hu⟩

end SonicBuildimage.StaticRouteBfd
