/-
  `LOCAL_NEXTHOP_TABLE` against the stored routes, and `LOCAL_SRT_TABLE` against the
  sessions.

  `IndexInv`: the entry of `vrf|ip` is the set of routes that are stored with bfd enabled
  and list the next hop. It needs names that can be told apart in the keys and lists of
  the tables (`NamesOk`), and nothing else: updates that change interfaces only, routes
  with one address on two interfaces and rejected updates are all inside.

  `ReachInv`: a reachable next hop of a route is one that the route lists and whose
  session is UP. The daemon does not keep this in every run. A report that is neither UP
  nor DOWN overwrites the state of a session and leaves the reachable sets alone
  (`reachable_after_admin_down`), and an entry of `LOCAL_BFD_PENDING_TABLE` that outlived
  its route creates the session of a reachable next hop anew. `index_of_run`: in every run
  without these two (`ReachOk`), both invariants hold in every state reached.
-/
import SonicBuildimage.StaticRouteBfd.Steps

namespace SonicBuildimage.StaticRouteBfd

open SonicBuildimage.Lib

/-! ## Names -/

/-- The name of a VRF: not empty, without blanks and without separators. -/
def PlainName (v : String) : Prop :=
  v ≠ "" ∧ ∀ c ∈ v.toList, isspace c = false ∧ c ≠ ',' ∧ c ≠ ':' ∧ c ≠ '|'

-- `List.decidableBAll` by name: the search finds the one that runs through all characters
instance (v : String) : Decidable (PlainName v) :=
  have : Decidable (∀ c ∈ v.toList, isspace c = false ∧ c ≠ ',' ∧ c ≠ ':' ∧ c ≠ '|') :=
    List.decidableBAll _ _
  inferInstanceAs (Decidable (_ ∧ _))

/-- A next hop that the keys of the tables tell apart from every other. -/
def PlainPair (p : String × String) : Prop := PlainName p.1 ∧ '|' ∉ p.2.toList

instance (p : String × String) : Decidable (PlainPair p) :=
  inferInstanceAs (Decidable (_ ∧ _))

theorem PlainName.not_mem {v : String} {c : Char} (h : PlainName v)
    (hc : c = ',' ∨ c = ':' ∨ c = '|') : c ∉ v.toList := by
  intro hm
  obtain ⟨_, h1, h2, h3⟩ := h.2 c hm
  rcases hc with rfl | rfl | rfl
  · exact h1 rfl
  · exact h2 rfl
  · exact h3 rfl

theorem nhKey_inj {p q : String × String} (hq : PlainPair q) (h : nhKey p = nhKey q) : p = q := by
  have hl : q.1.toList ++ '|' :: q.2.toList = p.1.toList ++ '|' :: p.2.toList := by
    simpa [nhKey] using (congrArg String.toList h).symm
  obtain ⟨h1, _, h2⟩ := (List.append_cons_inj_of_notMem (hq.1.not_mem (by simp)) hq.2).1 hl
  exact Prod.ext (String.toList_inj.1 h1.symm) (String.toList_inj.1 h2.symm)

/-- The text of a session key, cut at its first two colons. -/
theorem sessionKey_inj {vrf intf peerIp vrf' intf' peerIp' : String}
    (hv : ':' ∉ vrf.toList) (hv' : ':' ∉ vrf'.toList) (hi : ':' ∉ intf.toList)
    (hi' : ':' ∉ intf'.toList)
    (h : vrf ++ ":" ++ intf ++ ":" ++ peerIp = vrf' ++ ":" ++ intf' ++ ":" ++ peerIp') :
    vrf = vrf' ∧ intf = intf' ∧ peerIp = peerIp' := by
  have hl : vrf.toList ++ ':' :: (intf.toList ++ ':' :: peerIp.toList) =
      vrf'.toList ++ ':' :: (intf'.toList ++ ':' :: peerIp'.toList) := by
    simpa using congrArg String.toList h
  obtain ⟨h1, hl⟩ := append_cons_inj hv hv' hl
  obtain ⟨h2, h3⟩ := append_cons_inj hi hi' hl
  exact ⟨String.toList_inj.1 h1, String.toList_inj.1 h2, String.toList_inj.1 h3⟩

theorem bfdKey_eq (p : String × String) : bfdKey p = p.1 ++ ":" ++ "default" ++ ":" ++ p.2 := by
  rw [← String.toList_inj]
  simp [bfdKey]

theorem bfdKey_inj {p q : String × String} (hp : PlainPair p) (hq : PlainPair q)
    (h : bfdKey p = bfdKey q) : p = q := by
  rw [bfdKey_eq, bfdKey_eq] at h
  obtain ⟨h1, _, h2⟩ := sessionKey_inj (hp.1.not_mem (by simp)) (hq.1.not_mem (by simp))
    (by decide) (by decide) h
  exact Prod.ext h1 h2

/-- A text that can be a member of a comma list. -/
def ListMember (v : String) : Prop := v ≠ "" ∧ ',' ∉ v.toList ∧ strip v = v

instance (v : String) : Decidable (ListMember v) :=
  inferInstanceAs (Decidable (_ ∧ _ ∧ _))

theorem PlainName.listMember {v : String} (h : PlainName v) : ListMember v :=
  ⟨h.1, h.not_mem (by simp), strip_eq_self fun c hc => (h.2 c hc).1⟩

/-- A list of names is read back from the text it is stored as. -/
theorem argList_join {l : List String} (hne : l ≠ []) (h : ∀ v ∈ l, ListMember v) :
    argList (join "," l) = some l := by
  have hsplit : split ',' (join "," l) = l := split_join hne fun v hv => (h v hv).2.1
  have hstrip : l.map strip = l := by
    have hid : ∀ v ∈ l, strip v = id v := fun v hv => (h v hv).2.2
    rw [List.map_congr_left hid, List.map_id]
  have hnb : strip (join "," l) ≠ "" := by
    obtain ⟨v, l, rfl⟩ := List.exists_cons_of_ne_nil hne
    have hv := h v List.mem_cons_self
    obtain ⟨c, hc, hspace⟩ := exists_of_strip_ne_empty (hv.2.2.symm ▸ hv.1)
    refine strip_ne_empty ?_ hspace
    rw [toList_join_cons]
    exact List.mem_append_left _ hc
  unfold argList
  rw [if_neg hnb, hsplit, hstrip]

/-- The members of a comma list have no comma and no blanks around them. -/
theorem mem_argList {v x : String} {l : List String} (h : argList v = some l) (hx : x ∈ l) :
    ',' ∉ x.toList ∧ strip x = x := by
  unfold argList at h
  split at h
  · simp at h
  · obtain rfl := Option.some.inj h
    obtain ⟨y, hy, rfl⟩ := List.mem_map.1 hx
    exact ⟨fun hc => not_mem_of_mem_split hy (mem_of_mem_strip hc), strip_strip y⟩

theorem fieldList_ne_nil {d : Data} {f : String} {l : List String} (h : fieldList d f = some l) :
    l ≠ [] := by
  rintro rfl
  obtain ⟨v, _, hv⟩ := Option.bind_eq_some_iff.1 h
  unfold argList at hv
  split at hv
  · simp at hv
  · exact split_ne_nil ',' v (List.map_eq_nil_iff.1 (Option.some.inj hv))

/-! ## Lists of a stored route -/

/-- The three lists of a stored route have one length. -/
def ListsMatch (d : Data) : Prop :=
  ∃ vrfs intfs ips, fieldList d "nexthop-vrf" = some vrfs ∧ fieldList d "ifname" = some intfs ∧
    fieldList d "nexthop" = some ips ∧ intfs.length = ips.length ∧ vrfs.length = ips.length

theorem zipNexthops_pair {vrfs intfs ips : List String} (h : intfs.length = ips.length)
    (h' : vrfs.length = ips.length) :
    (zipNexthops vrfs intfs ips).map Nexthop.pair = vrfs.zip ips ∧
      (zipNexthops vrfs intfs ips).map Nexthop.vrf = vrfs := by
  induction ips generalizing vrfs intfs with
  | nil =>
    rw [List.length_nil, List.length_eq_zero_iff] at h'
    subst h'
    exact ⟨rfl, rfl⟩
  | cons ip ips ih =>
    obtain ⟨intf, intfs, rfl⟩ := List.exists_cons_of_length_eq_add_one h
    obtain ⟨vrf, vrfs, rfl⟩ := List.exists_cons_of_length_eq_add_one h'
    obtain ⟨h1, h2⟩ := ih (Nat.succ.inj h) (Nat.succ.inj h')
    simp [zipNexthops, h1, h2, Nexthop.pair]

theorem ListsMatch.storedPairs_eq {d : Data} (h : ListsMatch d) :
    storedPairs d = (storedNexthops d).map Nexthop.pair := by
  obtain ⟨vrfs, intfs, ips, hv, hi, hn, h1, h2⟩ := h
  unfold storedPairs storedNexthops
  rw [hv, hi, hn]
  dsimp only
  rw [if_pos h2.symm, (zipNexthops_pair h1 h2).1]

theorem ListsMatch.existing {d : Data} (h : ListsMatch d) (vrf : String) (new : List Nexthop) :
    existingNexthops vrf d new = some (storedNexthops d) := by
  obtain ⟨vrfs, intfs, ips, hv, hi, hn, _⟩ := h
  unfold existingNexthops storedNexthops
  rw [hv, hi, hn]
  rfl

theorem SameRoute.listsMatch {env : Env} {d d' : Data} (h : SameRoute env d d')
    (hl : ListsMatch d) : ListsMatch d' := by
  obtain ⟨vrfs, intfs, ips, hv, hi, hn, hlen⟩ := hl
  refine ⟨vrfs, intfs, ips, ?_, ?_, ?_, hlen⟩
  · rw [h.lists _ (by decide), hv]
  · rw [h.lists _ (by decide), hi]
  · rw [h.lists _ (by decide), hn]

/-- The lists that an accepted update stores are the next hops it is compared by. -/
theorem Accepted.stored {env : Env} {s : State} {u : Update} (h : Accepted env s u)
    (hplain : ∀ nh ∈ u.nexthops, PlainPair nh.pair) :
    ListsMatch u.data ∧ storedNexthops u.data = u.nexthops := by
  obtain ⟨ips, intfs, hn, hi, h1, h2, hu⟩ := h.lists
  have hvrfs : ∀ v ∈ u.nhVrfList, PlainName v := by
    intro v hv
    rw [← (zipNexthops_pair h1 h2).2, ← hu] at hv
    obtain ⟨nh, hm, rfl⟩ := List.mem_map.1 hv
    exact (hplain nh hm).1
  have hne : u.nhVrfList ≠ [] := by
    intro hnil
    rw [hnil, List.length_nil] at h2
    exact fieldList_ne_nil hn (List.length_eq_zero_iff.1 h2.symm)
  have hv : fieldList u.data "nexthop-vrf" = some u.nhVrfList := by
    unfold fieldList
    rw [h.vrfText, Option.bind_some, argList_join hne fun v hv => (hvrfs v hv).listMember]
  refine ⟨⟨u.nhVrfList, intfs, ips, hv, hi, hn, h1, h2⟩, ?_⟩
  unfold storedNexthops
  rw [hv, hi, hn, hu]

theorem Accepted.nexthopPairs_eq {env : Env} {s : State} {u : Update} (h : Accepted env s u)
    (hplain : ∀ nh ∈ u.nexthops, PlainPair nh.pair) :
    nexthopPairs u.data = some (storedPairs u.data) := by
  obtain ⟨⟨vrfs, intfs, ips, hv, _, hn, _, h2⟩, _⟩ := h.stored hplain
  unfold nexthopPairs storedPairs
  rw [hv, hn]
  simp [h2]

theorem Accepted.storedPairs_eq {env : Env} {s : State} {u : Update} (h : Accepted env s u)
    (hplain : ∀ nh ∈ u.nexthops, PlainPair nh.pair) :
    storedPairs u.data = u.nexthops.map Nexthop.pair := by
  obtain ⟨hl, hs⟩ := h.stored hplain
  rw [hl.storedPairs_eq, hs]

/-! ## The index -/

/-- The names of the next hops of an accepted update are plain. -/
def NamesOk (env : Env) (s : State) : Event → Prop
  | .staticRouteSet key data =>
    ∀ u ∈ acceptedUpdate env s key data, ∀ nh ∈ u.nexthops, PlainPair nh.pair
  | _ => True

instance (env : Env) (s : State) (e : Event) : Decidable (NamesOk env s e) :=
  match e with
  | .staticRouteSet _ _ => inferInstanceAs (Decidable (∀ u ∈ _, ∀ nh ∈ _, _))
  | .interfaceSet _ | .interfaceDel _ | .staticRouteDel _ | .bfdStateSet _ _ | .bfdStateDel _ =>
    inferInstanceAs (Decidable True)

/-- The entries of `LOCAL_NEXTHOP_TABLE` are the routes that list the next hop. -/
structure IndexInv (env : Env) (s : State) : Prop where
  lists : ∀ r, bfdEnabled env (s.config.getD r []) → ListsMatch (s.config.getD r [])
  plain : ∀ r, bfdEnabled env (s.config.getD r []) →
    ∀ p ∈ storedPairs (s.config.getD r []), PlainPair p
  index : ∀ k r, r ∈ s.nexthop.getD k [] ↔
    bfdEnabled env (s.config.getD r []) ∧ k ∈ (storedPairs (s.config.getD r [])).map nhKey

theorem indexInv_init (env : Env) : IndexInv env init := by
  have hoff : ∀ r, ¬ bfdEnabled env (init.config.getD r []) := by
    intro r
    rw [show init.config.getD r [] = [] from rfl, bfdEnabled_nil]
    simp
  refine ⟨fun r h => absurd h (hoff r), fun r h => absurd h (hoff r), fun k r => ?_⟩
  constructor
  · intro h
    exact absurd h List.not_mem_nil
  · exact fun h => absurd h.1 (hoff r)

theorem IndexInv.mem_iff {env : Env} {s : State} (hi : IndexInv env s) (p : String × String)
    (r : String) : r ∈ s.nexthop.getD (nhKey p) [] ↔
      bfdEnabled env (s.config.getD r []) ∧ p ∈ storedPairs (s.config.getD r []) := by
  rw [hi.index]
  refine and_congr_right fun hb => ?_
  constructor
  · intro h
    obtain ⟨q, hq, hk⟩ := List.mem_map.1 h
    rw [nhKey_inj (hi.plain r hb q hq) hk.symm]
    exact hq
  · exact fun h => List.mem_map_of_mem h

theorem IndexInv.congr {env : Env} {s s' : State} (hi : IndexInv env s)
    (hc : ∀ r, SameRoute env (s.config.getD r []) (s'.config.getD r []))
    (hn : s'.nexthop = s.nexthop) : IndexInv env s' := by
  refine ⟨fun r hb => ?_, fun r hb => ?_, fun k r => ?_⟩
  · exact (hc r).listsMatch (hi.lists r ((hc r).enabled ▸ hb))
  · rw [(hc r).storedPairs_eq]
    exact hi.plain r ((hc r).enabled ▸ hb)
  · rw [hn, hi.index, (hc r).enabled, (hc r).storedPairs_eq]

/-- Routes with bfd are stored as before, if only `x` changes and has no bfd afterwards. -/
theorem getD_of_bfdEnabled {env : Env} {s : State} {x r : String} {config : Dict String Data}
    (hcfg : ∀ r, r ≠ x → config.getD r [] = s.config.getD r [])
    (hoff : bfdEnabled env (config.getD x []) = false) (hb : bfdEnabled env (config.getD r [])) :
    config.getD r [] = s.config.getD r [] := by
  refine hcfg r ?_
  rintro rfl
  rw [hoff] at hb
  exact absurd hb (by simp)

/-- A route that is stored without bfd and was not indexed. -/
theorem IndexInv.store {env : Env} {s : State} {x : String} {config : Dict String Data}
    (hi : IndexInv env s) (hx : ¬ bfdEnabled env (s.config.getD x []))
    (hcfg : ∀ r, r ≠ x → config.getD r [] = s.config.getD r [])
    (hoff : bfdEnabled env (config.getD x []) = false)
    (t : Dict String (List (String × String))) (a : Dict String Data) :
    IndexInv env { s with config := config, srt := t, applRoute := a } := by
  have hon (r : String) := getD_of_bfdEnabled hcfg hoff (r := r)
  refine ⟨fun r hb => ?_, fun r hb => ?_, fun k r => ?_⟩
  · exact hon r hb ▸ hi.lists r (hon r hb ▸ hb)
  · exact hon r hb ▸ hi.plain r (hon r hb ▸ hb)
  · by_cases hr : r = x
    · subst hr
      rw [hi.index]
      simp [hx, hoff]
    · dsimp only
      rw [hi.index, hcfg r hr]

/-- A route that is cleared and stored without bfd, or not stored any more. -/
theorem IndexInv.clear {env : Env} {s : State} {x : String} {config : Dict String Data}
    (hi : IndexInv env s)
    (hcfg : ∀ r, r ≠ x → config.getD r [] = s.config.getD r [])
    (hoff : bfdEnabled env (config.getD x []) = false) :
    IndexInv env { cleared s x with config := config } := by
  have hon (r : String) := getD_of_bfdEnabled hcfg hoff (r := r)
  refine ⟨fun r hb => ?_, fun r hb => ?_, fun k r => ?_⟩
  · exact hon r hb ▸ hi.lists r (hon r hb ▸ hb)
  · exact hon r hb ▸ hi.plain r (hon r hb ▸ hb)
  · refine (mem_foldl_release x (storedPairs (s.config.getD x [])) s k r).trans ?_
    rw [hi.index]
    by_cases hr : r = x
    · subst hr
      simp only [hoff, true_and]
      tauto
    · dsimp only
      rw [hcfg r hr]
      simp [hr]

section Update

variable {env : Env} {s : State} {u : Update}

theorem IndexInv.mem_droppedPairs (hi : IndexInv env s) (vrf r : String) (new : List Nexthop)
    (p : String × String) : p ∈ droppedPairs env s vrf r new ↔
      bfdEnabled env (s.config.getD r []) ∧
        ∃ nh ∈ storedNexthops (s.config.getD r []), nh ∉ new ∧ nh.pair = p := by
  unfold droppedPairs
  by_cases hb : bfdEnabled env (s.config.getD r [])
  · rw [if_pos ((curBfdEnabled_iff env s r).2 hb), (hi.lists r hb).existing]
    dsimp only
    rw [mem_dropped]
    exact (and_iff_right hb).symm
  · rw [if_neg fun h => hb ((curBfdEnabled_iff env s r).1 h)]
    simp [hb]

/-- A stored next hop that is not dropped is listed again. -/
theorem IndexInv.listed_of_not_dropped (hi : IndexInv env s) {vrf r : String}
    {new : List Nexthop} {p : String × String} (hb : bfdEnabled env (s.config.getD r []))
    (hp : p ∈ storedPairs (s.config.getD r [])) (hnd : p ∉ droppedPairs env s vrf r new) :
    p ∈ new.map Nexthop.pair := by
  rw [(hi.lists r hb).storedPairs_eq] at hp
  obtain ⟨nh, hnh, rfl⟩ := List.mem_map.1 hp
  refine List.mem_map_of_mem ?_
  by_contra hnew
  exact hnd ((hi.mem_droppedPairs vrf r new _).2 ⟨hb, nh, hnh, hnew, rfl⟩)

theorem IndexInv.plain_of_dropped (hi : IndexInv env s) {vrf r : String} {new : List Nexthop}
    {p : String × String} (h : p ∈ droppedPairs env s vrf r new) :
    bfdEnabled env (s.config.getD r []) ∧ p ∈ storedPairs (s.config.getD r []) ∧ PlainPair p := by
  obtain ⟨hb, nh, hnh, _, rfl⟩ := (hi.mem_droppedPairs vrf r new p).1 h
  have hp : nh.pair ∈ storedPairs (s.config.getD r []) := by
    rw [(hi.lists r hb).storedPairs_eq]
    exact List.mem_map_of_mem hnh
  exact ⟨hb, hp, hi.plain r hb _ hp⟩

theorem IndexInv.listed (hi : IndexInv env s) (hacc : Accepted env s u)
    (hplain : ∀ nh ∈ u.nexthops, PlainPair nh.pair) : IndexInv env (listed env s u) := by
  have hne : ∀ {r : String}, r ≠ u.route →
      (s.config.set u.route u.data).getD r [] = s.config.getD r [] :=
    fun hr => Dict.getD_set_ne _ _ _ (Ne.symm hr)
  have hpairs := hacc.storedPairs_eq hplain
  refine ⟨fun r => ?_, fun r => ?_, fun k r => ?_⟩
  · rw [listed_config]
    by_cases hr : r = u.route
    · rw [hr, Dict.getD_set_self]
      exact fun _ => (hacc.stored hplain).1
    · rw [hne hr]
      exact hi.lists r
  · rw [listed_config]
    by_cases hr : r = u.route
    · rw [hr, Dict.getD_set_self, hpairs]
      intro _ p hp
      obtain ⟨nh, hnh, rfl⟩ := List.mem_map.1 hp
      exact hplain nh hnh
    · rw [hne hr]
      exact hi.plain r
  · rw [mem_listed_nexthop, listed_config]
    by_cases hr : r = u.route
    · rw [hr, Dict.getD_set_self, hpairs, List.map_map]
      simp only [hacc.enabled, true_and]
      constructor
      · rintro (⟨hold, hnd⟩ | hnew)
        · -- an entry of the old lists that survives belongs to a next hop that is listed again
          obtain ⟨hb, hk⟩ := (hi.index k u.route).1 hold
          obtain ⟨p, hp, rfl⟩ := List.mem_map.1 hk
          have hnew := hi.listed_of_not_dropped hb hp fun hd => hnd (List.mem_map_of_mem hd)
          rw [← List.map_map]
          exact List.mem_map_of_mem hnew
        · exact hnew
      · exact Or.inr
    · rw [hne hr, hi.index]
      simp [hr]

theorem IndexInv.update {s' : State} (hi : IndexInv env s) (hacc : Accepted env s u)
    (hplain : ∀ nh ∈ u.nexthops, PlainPair nh.pair)
    (h : updateBfdRoute env s u.vrf u.route u.data u.nexthops = some s') : IndexInv env s' := by
  have hl := hi.listed hacc hplain
  obtain ⟨pairs, _, ⟨_, rfl⟩ | ⟨_, e, srt, config, _, hcfg, _, rfl⟩⟩ := update_cases h
  · exact hl
  · refine hl.congr (fun r => ?_) rfl
    rw [listed_config]
    dsimp only
    rw [hcfg, Dict.getD_set]
    split
    · exact SameRoute.set_hold env _ _
    · exact SameRoute.refl env _

end Update

theorem IndexInv.del {env : Env} {s : State} (hi : IndexInv env s) (key : String) :
    IndexInv env (staticRouteDelHandler env s key true) := by
  rcases del_cases env s key with h | ⟨vrf, p, _, hb, h⟩ | ⟨vrf, p, _, _, h⟩ <;> rw [h]
  · exact hi
  · refine hi.store hb (fun r hr => Dict.getD_erase_ne _ _ (Ne.symm hr)) ?_ _ s.applRoute
    rw [Dict.getD_erase_self, bfdEnabled_nil]
  · refine hi.clear (fun r hr => Dict.getD_erase_ne _ _ (Ne.symm hr)) ?_
    rw [Dict.getD_erase_self, bfdEnabled_nil]

theorem IndexInv.set {env : Env} {s s' : State} {key : String} {data : Data}
    (hi : IndexInv env s) (hok : NamesOk env s (.staticRouteSet key data))
    (h : staticRouteSetHandler env s key data = some s') : IndexInv env s' := by
  rcases set_cases h with rfl | ⟨vrf, p, d, _, hd, hb, rfl⟩ | ⟨vrf, p, d, _, hd, _, _, rfl⟩ |
    ⟨vrf, p, _, _, rfl⟩ | ⟨u, p, hu, _, _, hupd⟩
  · exact hi
  · refine hi.store hb (fun r hr => Dict.getD_set_ne _ _ _ (Ne.symm hr)) ?_ s.srt s.applRoute
    rw [Dict.getD_set_self, hd]
  · refine hi.clear (fun r hr => Dict.getD_set_ne _ _ _ (Ne.symm hr)) ?_
    rw [Dict.getD_set_self, hd]
  · obtain ⟨a, hbefore, _⟩ := beforeUpdate_frame env s (routeCfgKey vrf p) data
    rw [hbefore]
    exact hi.congr (fun _ => SameRoute.refl env _) rfl
  · obtain ⟨a, hbefore, _⟩ := beforeUpdate_frame env s u.route data
    rw [hbefore] at hupd
    have hi' : IndexInv env { s with applRoute := a } :=
      hi.congr (fun _ => SameRoute.refl env _) rfl
    obtain ⟨h1, h2, h3, h4⟩ := acceptedUpdate_spec hu
    exact hi'.update ⟨h1, h2, h3, h4⟩ (hok u hu) hupd

/-- Every event with plain names keeps the index. -/
theorem IndexInv.step {env : Env} {s s' : State} {e : Event} (hi : IndexInv env s)
    (hok : NamesOk env s e) (h : Step env s e s') : IndexInv env s' := by
  have hsame : ∀ r, SameRoute env (s.config.getD r []) (s.config.getD r []) :=
    fun _ => SameRoute.refl env _
  obtain ⟨order, _, h⟩ := h
  cases e with
  | interfaceSet key =>
    obtain ⟨i, b, p, a, hf⟩ := interfaceSet_frame env s key
    rw [← Option.some.inj h, hf]
    exact hi.congr hsame rfl
  | interfaceDel key =>
    obtain ⟨i, hf⟩ := interfaceDel_frame env s key
    rw [← Option.some.inj h, hf]
    exact hi.congr hsame rfl
  | staticRouteSet key data => exact hi.set hok h
  | staticRouteDel key =>
    rw [← Option.some.inj h]
    exact hi.del key
  | bfdStateSet key data =>
    obtain ⟨vrf, intf, peerIp, _, ⟨_, rfl⟩ | ⟨_, s₁, rfl, ⟨_, h⟩ | ⟨_, _, h⟩ | ⟨_, _, rfl⟩⟩⟩ :=
      bfdSet_cases h
    · exact hi
    · have hr := foldlM_up_republished env h
      exact hi.congr hr.routes hr.nexthop_eq
    · obtain ⟨t, a, rfl, _⟩ := foldlM_down h
      exact hi.congr hsame rfl
    · exact hi.congr hsame rfl
  | bfdStateDel key =>
    obtain ⟨q, _, h⟩ := Option.bind_eq_some_iff.1 h
    obtain ⟨t, a, rfl, _⟩ := foldlM_del h
    exact hi.congr hsame rfl

/-! ## Reachable next hops -/

/-- Some route has the next hop in its reachable set. -/
def Reachable (s : State) (p : String × String) : Prop :=
  ∃ r ∈ s.srt.keys, p ∈ s.srt.getD r []

instance (s : State) (p : String × String) : Decidable (Reachable s p) :=
  inferInstanceAs (Decidable (∃ r ∈ _, _))

theorem reachable_of_mem {s : State} {r : String} {p : String × String}
    (h : p ∈ s.srt.getD r []) : Reachable s p := by
  refine ⟨r, ?_, h⟩
  by_contra hr
  rw [Dict.getD_eq_of_not_mem_keys _ _ hr] at h
  simp at h

/-- The side condition of `index_of_run`: plain names; a report about a session of the daemon
    names it as the daemon does and is UP or DOWN, or its next hop is not reachable; no
    pending entry of an interface that gets an address is the session of a reachable next
    hop. -/
def ReachOk (env : Env) (s : State) (e : Event) : Prop :=
  NamesOk env s e ∧
    match e with
    | .bfdStateSet key data =>
      ∀ q ∈ bfdStateSplitKey key, s.bfd.getD (q.1 ++ ":" ++ q.2.1 ++ ":" ++ q.2.2) [] ≠ [] →
        q.2.1 = "default" ∧ ':' ∉ q.1.toList ∧
          (env.upper (data.getD "state" "DOWN") = "UP" ∨
            env.upper (data.getD "state" "DOWN") = "DOWN" ∨ ¬ Reachable s (q.1, q.2.2))
    | .interfaceSet key =>
      ∀ q ∈ getIpFromKey env key, ∀ entry ∈ s.bfdPending, entry.2.1 = q.2.1 →
        ∀ r ∈ s.srt.keys, ∀ p ∈ s.srt.getD r [], bfdKey p ≠ entry.2.2.2
    | _ => True

instance (env : Env) (s : State) (e : Event) : Decidable (ReachOk env s e) :=
  match e with
  | .bfdStateSet _ _ => inferInstanceAs (Decidable (_ ∧ ∀ q ∈ _, _ → _))
  | .interfaceSet _ =>
    inferInstanceAs (Decidable (_ ∧ ∀ q ∈ _, ∀ entry ∈ _, _ → ∀ r ∈ _, ∀ p ∈ _, _))
  | .interfaceDel _ | .staticRouteSet _ _ | .staticRouteDel _ | .bfdStateDel _ =>
    inferInstanceAs (Decidable (_ ∧ True))

/-- A reachable next hop is listed by its route and its session is UP; a route in hold has
    none. -/
structure ReachInv (env : Env) (s : State) : Prop where
  reach : ∀ r p, p ∈ s.srt.getD r [] →
    bfdEnabled env (s.config.getD r []) ∧ p ∈ storedPairs (s.config.getD r []) ∧
      sessionUp env (s.bfd.getD (bfdKey p) []) = true
  held : ∀ r, (s.config.getD r []).get? "bfd_nh_hold" = some "true" → s.srt.getD r [] = []

theorem reachInv_init (env : Env) : ReachInv env init :=
  ⟨fun _ _ h => absurd h List.not_mem_nil, fun _ _ => rfl⟩

section Reach

variable {env : Env} {s s' : State}

/-- What another route reaches is not orphaned by this one. -/
theorem ReachInv.not_orphaned (hr : ReachInv env s) (hi : IndexInv env s) {r x : String}
    {p q : String × String} (hx : x ≠ r) (hp : p ∈ s.srt.getD x []) (hq : PlainPair q)
    (ho : Orphaned s r q) : bfdKey q ≠ bfdKey p := by
  intro hk
  obtain ⟨hb, hm, _⟩ := hr.reach x p hp
  obtain rfl := bfdKey_inj hq (hi.plain x hb p hm) hk
  exact hx (ho x ((hi.mem_iff q x).2 ⟨hb, hm⟩))

theorem ReachInv.of_frame (hr : ReachInv env s) (hcfg : s'.config = s.config)
    (hsrt : ∀ r p, p ∈ s'.srt.getD r [] → p ∈ s.srt.getD r [])
    (hbfd : ∀ r p, p ∈ s'.srt.getD r [] →
      sessionUp env (s'.bfd.getD (bfdKey p) []) = sessionUp env (s.bfd.getD (bfdKey p) [])) :
    ReachInv env s' := by
  refine ⟨fun r p hp => ?_, fun r hh => ?_⟩
  · rw [hcfg, hbfd r p hp]
    exact hr.reach r p (hsrt r p hp)
  · rw [hcfg] at hh
    rw [List.eq_nil_iff_forall_not_mem]
    intro p hp
    have := hsrt r p hp
    rw [hr.held r hh] at this
    exact absurd this List.not_mem_nil

/-- Storing or deleting a route without bfd, which reaches nothing. -/
theorem ReachInv.store (hr : ReachInv env s) {x : String} {config : Dict String Data}
    {t : Dict String (List (String × String))} (hx : ¬ bfdEnabled env (s.config.getD x []))
    (hcfg : ∀ r, r ≠ x → config.getD r [] = s.config.getD r [])
    (hsrt : ∀ r p, p ∈ t.getD r [] → p ∈ s.srt.getD r []) :
    ReachInv env { s with config := config, srt := t } := by
  have hne : ∀ r p, p ∈ t.getD r [] → r ≠ x := by
    rintro r p hp rfl
    exact hx (hr.reach r p (hsrt r p hp)).1
  refine ⟨fun r p hp => ?_, fun r hh => ?_⟩
  · dsimp only
    rw [hcfg r (hne r p hp)]
    exact hr.reach r p (hsrt r p hp)
  · rw [List.eq_nil_iff_forall_not_mem]
    intro p hp
    dsimp only at hh
    rw [hcfg r (hne r p hp)] at hh
    have := hsrt r p hp
    rw [hr.held r hh] at this
    exact absurd this List.not_mem_nil

/-- Clearing a route keeps the sessions that other routes reach. -/
theorem ReachInv.clear (hr : ReachInv env s) (hi : IndexInv env s) {x : String}
    {config : Dict String Data} (hb : bfdEnabled env (s.config.getD x []))
    (hcfg : ∀ r, r ≠ x → config.getD r [] = s.config.getD r []) :
    ReachInv env { cleared s x with config := config } := by
  have hne : ∀ r p, p ∈ (s.srt.erase x).getD r [] → r ≠ x ∧ p ∈ s.srt.getD r [] := by
    intro r p hp
    by_cases hrx : r = x
    · rw [hrx, Dict.getD_erase_self] at hp
      exact absurd hp List.not_mem_nil
    · rw [Dict.getD_erase_ne _ _ (Ne.symm hrx)] at hp
      exact ⟨hrx, hp⟩
  refine ⟨fun r p hp => ?_, fun r hh => ?_⟩
  · obtain ⟨hrx, hp⟩ := hne r p hp
    have hkept := foldl_release_kept (r := x) (L := storedPairs (s.config.getD x [])) (s := s)
      (b := bfdKey p) fun q hq ho => hr.not_orphaned hi hrx hp (hi.plain x hb q hq) ho
    have hbfd : (cleared s x).bfd.getD (bfdKey p) [] = s.bfd.getD (bfdKey p) [] :=
      Dict.getD_congr _ hkept.1
    dsimp only
    rw [hbfd, hcfg r hrx]
    exact hr.reach r p hp
  · rw [List.eq_nil_iff_forall_not_mem]
    intro p hp
    obtain ⟨hrx, hp⟩ := hne r p hp
    dsimp only at hh
    rw [hcfg r hrx] at hh
    rw [hr.held r hh] at hp
    exact absurd hp List.not_mem_nil

/-- What stays in the reachable set of an updated route, or of any other, stays UP. -/
theorem ReachInv.staysUp (hr : ReachInv env s) (hi : IndexInv env s) {u : Update} {x : String}
    {p : String × String} (hp : p ∈ (listed env s u).srt.getD x []) : StaysUp env s u p := by
  rw [mem_listed_srt] at hp
  obtain ⟨hb, hm, hup⟩ := hr.reach x p hp.1
  refine ⟨hup, fun q hq ho => ?_⟩
  obtain ⟨_, _, hplain⟩ := hi.plain_of_dropped hq
  by_cases hx : x = u.route
  · intro hk
    rw [bfdKey_inj hplain (hi.plain x hb p hm) hk] at hq
    exact hp.2 ⟨hx, hq⟩
  · exact hr.not_orphaned hi hx hp.1 hplain ho

/-- What an update leaves of the reachable sets is listed by what it stores. -/
theorem ReachInv.listed_reach (hr : ReachInv env s) (hi : IndexInv env s) {u : Update}
    (hacc : Accepted env s u) (hplain : ∀ nh ∈ u.nexthops, PlainPair nh.pair) {x : String}
    {p : String × String} (hp : p ∈ (listed env s u).srt.getD x []) :
    bfdEnabled env ((s.config.set u.route u.data).getD x []) ∧
      p ∈ storedPairs ((s.config.set u.route u.data).getD x []) := by
  rw [mem_listed_srt] at hp
  obtain ⟨hb, hm, _⟩ := hr.reach x p hp.1
  by_cases hx : x = u.route
  · subst hx
    rw [Dict.getD_set_self, hacc.storedPairs_eq hplain]
    exact ⟨hacc.enabled, hi.listed_of_not_dropped hb hm fun hd => hp.2 ⟨rfl, hd⟩⟩
  · rw [Dict.getD_set_ne _ _ _ (Ne.symm hx)]
    exact ⟨hb, hm⟩

theorem ReachInv.update (hr : ReachInv env s) (hi : IndexInv env s) {u : Update}
    (hacc : Accepted env s u) (hplain : ∀ nh ∈ u.nexthops, PlainPair nh.pair)
    (h : updateBfdRoute env s u.vrf u.route u.data u.nexthops = some s') : ReachInv env s' := by
  have hpairs := hacc.nexthopPairs_eq hplain
  have hother : ∀ r, r ≠ u.route → (s.config.getD r []).get? "bfd_nh_hold" = some "true" →
      (listed env s u).srt.getD r [] = [] := by
    intro r _ hh
    rw [List.eq_nil_iff_forall_not_mem]
    intro p hp
    have := ((mem_listed_srt env s u r p).1 hp).1
    rw [hr.held r hh] at this
    exact absurd this List.not_mem_nil
  obtain ⟨pairs, hp, ⟨hquiet, rfl⟩ | ⟨_, e, srt, config, hsrt, hcfg, _, rfl⟩⟩ := update_cases h
  · obtain rfl := Option.some.inj (hpairs.symm.trans hp)
    refine ⟨fun r p hp => ?_, fun r hh => ?_⟩
    · rw [listed_config, sessionUp_listed_iff]
      obtain ⟨hb, hm⟩ := hr.listed_reach hi hacc hplain hp
      exact ⟨hb, hm, hr.staysUp hi hp⟩
    · by_cases hx : r = u.route
      · subst hx
        rw [List.eq_nil_iff_forall_not_mem]
        intro p hp
        have hm := (hr.listed_reach hi hacc hplain hp).2
        rw [Dict.getD_set_self] at hm
        exact hquiet p hm (hr.staysUp hi hp)
      · rw [listed_config, Dict.getD_set_ne _ _ _ (Ne.symm hx)] at hh
        exact hother r hx hh
  · obtain rfl := Option.some.inj (hpairs.symm.trans hp)
    have hconf : ∀ r,
        SameRoute env ((s.config.set u.route u.data).getD r []) (config.getD r []) := by
      intro r
      rw [hcfg, Dict.getD_set]
      split
      · exact SameRoute.set_hold env _ _
      · exact SameRoute.refl env _
    refine ⟨fun r p hp => ?_, fun r hh => ?_⟩
    · dsimp only
      rw [(hconf r).enabled, (hconf r).storedPairs_eq, sessionUp_listed_iff]
      rcases (hsrt r p).1 hp with hp | ⟨rfl, hm, hup⟩
      · obtain ⟨hb, hm⟩ := hr.listed_reach hi hacc hplain hp
        exact ⟨hb, hm, hr.staysUp hi hp⟩
      · rw [Dict.getD_set_self]
        exact ⟨hacc.enabled, hm, hup⟩
    · dsimp only at hh ⊢
      rw [hcfg] at hh
      by_cases hx : r = u.route
      · rw [if_pos hx.symm, Dict.get?_set_self] at hh
        exact absurd hh (by decide)
      · rw [if_neg (Ne.symm hx)] at hh
        rw [List.eq_nil_iff_forall_not_mem]
        intro p hp
        rcases (hsrt r p).1 hp with hp | ⟨hx', _⟩
        · rw [hother r hx hh] at hp
          exact absurd hp List.not_mem_nil
        · exact hx hx'

theorem ReachInv.del (hr : ReachInv env s) (hi : IndexInv env s) (key : String) :
    ReachInv env (staticRouteDelHandler env s key true) := by
  rcases del_cases env s key with h | ⟨vrf, p, _, hb, h⟩ | ⟨vrf, p, _, hb, h⟩ <;> rw [h]
  · exact hr
  · refine hr.store hb (fun r hne => Dict.getD_erase_ne _ _ (Ne.symm hne)) fun r q hq => ?_
    rw [Dict.getD_erase] at hq
    split at hq
    · exact absurd hq List.not_mem_nil
    · exact hq
  · exact hr.clear hi hb fun r hne => Dict.getD_erase_ne _ _ (Ne.symm hne)

theorem ReachInv.set {key : String} {data : Data} (hr : ReachInv env s) (hi : IndexInv env s)
    (hok : NamesOk env s (.staticRouteSet key data))
    (h : staticRouteSetHandler env s key data = some s') : ReachInv env s' := by
  rcases set_cases h with rfl | ⟨vrf, p, d, _, hd, hb, rfl⟩ | ⟨vrf, p, d, _, hd, _, hb, rfl⟩ |
    ⟨vrf, p, _, _, rfl⟩ | ⟨u, p, hu, _, _, hupd⟩
  · exact hr
  · exact hr.store hb (fun r hne => Dict.getD_set_ne _ _ _ (Ne.symm hne)) fun _ _ hp => hp
  · exact hr.clear hi hb fun r hne => Dict.getD_set_ne _ _ _ (Ne.symm hne)
  · obtain ⟨a, hbefore, _⟩ := beforeUpdate_frame env s (routeCfgKey vrf p) data
    rw [hbefore]
    exact ⟨hr.reach, hr.held⟩
  · obtain ⟨a, hbefore, _⟩ := beforeUpdate_frame env s u.route data
    rw [hbefore] at hupd
    have hr' : ReachInv env { s with applRoute := a } := ⟨hr.reach, hr.held⟩
    have hi' : IndexInv env { s with applRoute := a } := ⟨hi.lists, hi.plain, hi.index⟩
    obtain ⟨h1, h2, h3, h4⟩ := acceptedUpdate_spec hu
    exact hr'.update hi' ⟨h1, h2, h3, h4⟩ (hok u hu) hupd

/-- A report about a session of the daemon, as `ReachOk` asks for it, is about one pair. -/
theorem pair_of_report {vrf intf peerIp : String} {p : String × String} (hp : PlainPair p)
    (hintf : intf = "default") (hv : ':' ∉ vrf.toList)
    (h : vrf ++ ":" ++ intf ++ ":" ++ peerIp = bfdKey p) : p = (vrf, peerIp) := by
  rw [hintf, bfdKey_eq] at h
  obtain ⟨h1, _, h3⟩ := sessionKey_inj hv (hp.1.not_mem (by simp)) (by decide) (by decide) h
  exact Prod.ext h1.symm h3.symm

/-- A state in which the report has been recorded keeps the other sessions. -/
theorem ReachInv.other_session (hr : ReachInv env s) {b : String} (session : Data)
    (hb : ∀ r p, p ∈ s.srt.getD r [] → p ∈ s'.srt.getD r [] → b ≠ bfdKey p)
    (hcfg : s'.config = s.config) (hsrt : ∀ r p, p ∈ s'.srt.getD r [] → p ∈ s.srt.getD r [])
    (hbfd : s'.bfd = s.bfd.set b session) : ReachInv env s' := by
  refine hr.of_frame hcfg hsrt fun r p hp => ?_
  rw [hbfd, Dict.getD_set_ne _ _ _ (hb r p (hsrt r p hp) hp)]

/-- One iteration of the loop of an UP report. -/
theorem ReachInv.up {nh : String × String} {r : String} (hr : ReachInv env s)
    (hb : bfdEnabled env (s.config.getD r [])) (hm : nh ∈ storedPairs (s.config.getD r []))
    (hup : sessionUp env (s.bfd.getD (bfdKey nh) []) = true)
    (h : bfdStateUp nh s r = some s') : ReachInv env s' := by
  have hrep := bfdStateUp_republished env h
  rcases bfdStateUp_cases h with ⟨_, rfl⟩ | ⟨e, _, rfl⟩
  · exact hr
  · refine ⟨fun x p hp => ?_, fun x hh => ?_⟩
    · rw [(hrep.routes x).enabled, (hrep.routes x).storedPairs_eq]
      dsimp only at hp ⊢
      rw [Dict.mem_getD_addMember] at hp
      rcases hp with hp | ⟨rfl, rfl⟩
      · exact hr.reach x p hp
      · exact ⟨hb, hm, hup⟩
    · dsimp only at hh ⊢
      rw [Dict.getD_set] at hh
      split at hh
      · rw [Dict.get?_set_self] at hh
        exact absurd hh (by decide)
      · next hx =>
        rw [Dict.getD_addMember, if_neg hx]
        exact hr.held x hh

theorem ReachInv.bfdSet {order : List String → List String} {key : String} {data : Data}
    (hr : ReachInv env s) (hi : IndexInv env s) (horder : IterOrder order)
    (hok : ReachOk env s (.bfdStateSet key data))
    (h : bfdStateSetHandler env order s key data = some s') : ReachInv env s' := by
  obtain ⟨vrf, intf, peerIp, hk, ⟨_, rfl⟩ | ⟨hrec, s₁, hs₁, hcase⟩⟩ := bfdSet_cases h
  · exact hr
  obtain ⟨hintf, hv, hstate⟩ := hok.2 _ hk hrec
  dsimp only at hintf hv hstate
  have hpair : ∀ r p, p ∈ s.srt.getD r [] →
      vrf ++ ":" ++ intf ++ ":" ++ peerIp = bfdKey p → p = (vrf, peerIp) := by
    intro r p hp
    obtain ⟨hb, hm, _⟩ := hr.reach r p hp
    exact pair_of_report (hi.plain r hb p hm) hintf hv
  have hkey : vrf ++ ":" ++ intf ++ ":" ++ peerIp = bfdKey (vrf, peerIp) := by
    rw [hintf, bfdKey_eq]
  rcases hcase with ⟨hup, h⟩ | ⟨hnup, hdown, h⟩ | ⟨hnup, hndown, rfl⟩
  · -- every reachable next hop of the session stays UP, and the loop adds only this one
    have hnew : sessionUp env (s₁.bfd.getD (bfdKey (vrf, peerIp)) []) = true := by
      rw [hs₁, ← hkey]
      dsimp only
      rw [Dict.getD_set_self]
      unfold sessionUp
      rw [Dict.get?_set_self]
      simpa using hup
    have hr₁ : ReachInv env s₁ := by
      refine ⟨fun r p hp => ?_, fun r hh => ?_⟩
      · have hp' : p ∈ s.srt.getD r [] := by rw [hs₁] at hp; exact hp
        obtain ⟨hb, hm, hsess⟩ := hr.reach r p hp'
        refine ⟨by rw [hs₁]; exact hb, by rw [hs₁]; exact hm, ?_⟩
        by_cases hkp : vrf ++ ":" ++ intf ++ ":" ++ peerIp = bfdKey p
        · rw [hpair r p hp' hkp]
          exact hnew
        · rw [hs₁]
          dsimp only
          rw [Dict.getD_set_ne _ _ _ hkp]
          exact hsess
      · rw [hs₁] at hh ⊢
        exact hr.held r hh
    have hi₁ : IndexInv env s₁ := by
      rw [hs₁]
      exact ⟨hi.lists, hi.plain, hi.index⟩
    have hloop := foldlM_invariant (P := fun t => Republished env s₁ t ∧ ReachInv env t)
      (fun t r t' hrL ht h₁ => by
        have hrn : r ∈ s₁.nexthop.getD (nhKey (vrf, peerIp)) [] := by
          rw [hs₁]
          exact horder.mem.1 hrL
        obtain ⟨hb, hm⟩ := (hi₁.mem_iff (vrf, peerIp) r).1 hrn
        refine ⟨ht.1.trans (bfdStateUp_republished env h₁), ht.2.up ?_ ?_ ?_ h₁⟩
        · rw [(ht.1.routes r).enabled]
          exact hb
        · rw [(ht.1.routes r).storedPairs_eq]
          exact hm
        · rw [ht.1.bfd_eq]
          exact hnew) h ⟨Republished.refl env s₁, hr₁⟩
    exact hloop.2
  · obtain ⟨t, a, rfl, hmem⟩ := foldlM_down h
    rw [hs₁] at hmem ⊢
    refine hr.other_session _ (fun r p hp hp' hkp => ?_) rfl (fun r p hp => (hmem r p hp).1) rfl
    obtain ⟨hb, hm, _⟩ := hr.reach r p hp
    have hpe := hpair r p hp hkp
    refine (hmem r p hp').2 ⟨?_, fun hh => ?_, hpe⟩
    · rw [horder.mem, ← hpe]
      exact (hi.mem_iff p r).2 ⟨hb, hm⟩
    · rw [hr.held r hh] at hp
      exact absurd hp List.not_mem_nil
  · rw [hs₁]
    refine hr.other_session _ (fun r p hp _ hkp => ?_) rfl (fun _ _ hp => hp) rfl
    rcases hstate with hup | hdown | hreach
    · exact hnup hup
    · exact hndown hdown
    · exact hreach (hpair r p hp hkp ▸ reachable_of_mem hp)

theorem ReachInv.step {e : Event} (hr : ReachInv env s) (hi : IndexInv env s)
    (hok : ReachOk env s e) (h : Step env s e s') : ReachInv env s' := by
  obtain ⟨order, horder, h⟩ := h
  cases e with
  | interfaceSet key =>
    have hs' := Option.some.inj h
    obtain ⟨i, b, q, a, hf⟩ := interfaceSet_frame env s key
    have hbfd : ∀ r p, p ∈ s.srt.getD r [] →
        (interfaceSetHandler env s key).bfd.getD (bfdKey p) [] = s.bfd.getD (bfdKey p) [] := by
      intro r p hp
      obtain ⟨x, hx, hpx⟩ := reachable_of_mem hp
      exact interfaceSet_kept fun q hq entry he hif =>
        Ne.symm (hok.2 q hq entry he hif x hx p hpx)
    rw [← hs']
    refine hr.of_frame (by rw [hf]) (fun r p hp => ?_) (fun r p hp => ?_)
    · rw [hf] at hp
      exact hp
    · rw [hf] at hp
      rw [hbfd r p hp]
  | interfaceDel key =>
    obtain ⟨i, hf⟩ := interfaceDel_frame env s key
    rw [← Option.some.inj h, hf]
    exact ⟨hr.reach, hr.held⟩
  | staticRouteSet key data => exact hr.set hi hok.1 h
  | staticRouteDel key =>
    rw [← Option.some.inj h]
    exact hr.del hi key
  | bfdStateSet key data => exact hr.bfdSet hi horder hok h
  | bfdStateDel key =>
    obtain ⟨q, _, h⟩ := Option.bind_eq_some_iff.1 h
    obtain ⟨t, a, rfl, hmem⟩ := foldlM_del h
    exact hr.of_frame rfl hmem fun _ _ _ => rfl

end Reach

/-- In every run from the empty daemon whose events meet `ReachOk`, the entry of a next hop in
    `LOCAL_NEXTHOP_TABLE` is the set of routes stored with bfd enabled that list it, and every
    reachable next hop of a route is listed by the route and has a session that is UP. -/
theorem index_of_run (env : Env) {es : List Event} {s : State}
    (hrun : Run (Step env) (ReachOk env) init es s) :
    (∀ vrf ip r, r ∈ s.nexthop.getD (nhKey (vrf, ip)) [] ↔
      bfdEnabled env (s.config.getD r []) = true ∧ (vrf, ip) ∈ storedPairs (s.config.getD r [])) ∧
    (∀ r vrf ip, (vrf, ip) ∈ s.srt.getD r [] → (vrf, ip) ∈ storedPairs (s.config.getD r []) ∧
      sessionUp env (s.bfd.getD (bfdKey (vrf, ip)) []) = true) := by
  have hinv : IndexInv env s ∧ ReachInv env s :=
    hrun.invariant (P := fun t => IndexInv env t ∧ ReachInv env t)
      (fun _ _ _ hs hok h => ⟨hs.1.step hok.1 h, hs.2.step hs.1 hok h⟩)
      ⟨indexInv_init env, reachInv_init env⟩
  exact ⟨fun vrf ip r => hinv.1.mem_iff (vrf, ip) r,
    fun r vrf ip hp => (hinv.2.reach r (vrf, ip) hp).2⟩

theorem index_upRun :
    ∃ s, Run (Step ipv4Env) (ReachOk ipv4Env) init upRun s ∧
      s.srt.getD "default|1.1.1.0/24" [] = [("default", "10.0.0.1")] ∧
      ("default", "10.0.0.1") ∈ storedPairs (s.config.getD "default|1.1.1.0/24" []) ∧
      sessionUp ipv4Env (s.bfd.getD (bfdKey ("default", "10.0.0.1")) []) = true := by
  have hend : ∃ s, Run (Step ipv4Env) (ReachOk ipv4Env) init upRun s ∧
      s.srt.getD "default|1.1.1.0/24" [] = [("default", "10.0.0.1")] :=
    exists_run step_of_handle (by decide +kernel)
  obtain ⟨s, hrun, hsrt⟩ := hend
  refine ⟨s, hrun, hsrt, (index_of_run ipv4Env hrun).2 _ _ _ ?_⟩
  rw [hsrt]
  exact List.mem_singleton.2 rfl

/-- The session is not UP any more and its next hop is still reachable. -/
theorem reachable_after_admin_down :
    ∃ s, Run (Step ipv4Env) (fun _ _ => True) init
        (upRun ++ [.bfdStateSet "default|default|10.0.0.1" [("state", "Admin_Down")]]) s ∧
      s.srt.getD "default|1.1.1.0/24" [] = [("default", "10.0.0.1")] ∧
      (s.bfd.getD (bfdKey ("default", "10.0.0.1")) []).get? "state" = some "Admin_Down" ∧
      sessionUp ipv4Env (s.bfd.getD (bfdKey ("default", "10.0.0.1")) []) = false :=
  exists_run step_of_handle (by decide +kernel)

end SonicBuildimage.StaticRouteBfd
