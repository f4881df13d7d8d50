/-
  The APPL_DB entry of a route against its reachable next hops.

  `PublishedAs entry d reach`: the entry exists exactly when something is reachable, and
  its three lists are those of the stored fields `d`, restricted to `reach`. The daemon
  does not keep this for every route with bfd enabled that is not in hold:
  `refresh_active_nh` returns without touching APPL_DB when no listed next hop is UP, so
  an update that loses its last reachable next hop leaves the old entry behind
  (`stale_entry_after_update`), while a DOWN report in the same situation deletes it.

  `publishedAs_of_run`: in every run in which no update loses its last reachable next hop
  while the route is published (`QuietUpdateOk`), and in which an event writes no APPL_DB
  key that another stored route has (`ApplKeyApart`), every state reached has every such
  route published as its reachable next hops. No other condition is put on the events.
-/
import SonicBuildimage.StaticRouteBfd.Steps

namespace SonicBuildimage.StaticRouteBfd

open SonicBuildimage.Lib

/-! ## What is published -/

/-- The next hops of the stored fields that are reachable. -/
def keptNexthops (d : Data) (reach : List (String × String)) : List Nexthop :=
  (storedNexthops d).filter fun nh => nh.pair ∈ reach

/-- The entry exists exactly when something is reachable, and then lists the reachable part
    of the stored next hops. -/
def PublishedAs (entry : Option Data) (d : Data) (reach : List (String × String)) : Prop :=
  match entry with
  | none => reach = []
  | some e => reach ≠ [] ∧
      e.get? "nexthop" = some (join "," ((keptNexthops d reach).map Nexthop.ip)) ∧
      e.get? "ifname" = some (join "," ((keptNexthops d reach).map Nexthop.ifname)) ∧
      e.get? "nexthop-vrf" = some (join "," ((keptNexthops d reach).map Nexthop.vrf))

instance (entry : Option Data) (d : Data) (reach : List (String × String)) :
    Decidable (PublishedAs entry d reach) :=
  match entry with
  | none => inferInstanceAs (Decidable (_ = _))
  | some _ => inferInstanceAs (Decidable (_ ∧ _))

theorem keptNexthops_congr {d d' : Data} {reach reach' : List (String × String)}
    (hd : storedNexthops d = storedNexthops d') (h : ∀ p, p ∈ reach ↔ p ∈ reach') :
    keptNexthops d reach = keptNexthops d' reach' := by
  unfold keptNexthops
  rw [hd]
  exact List.filter_congr fun nh _ => by simp [h]

theorem publishedAs_congr {entry : Option Data} {d d' : Data}
    {reach reach' : List (String × String)} (hd : storedNexthops d = storedNexthops d')
    (h : ∀ p, p ∈ reach ↔ p ∈ reach') :
    PublishedAs entry d reach ↔ PublishedAs entry d' reach' := by
  have hnil : reach = [] ↔ reach' = [] := by
    rw [List.eq_nil_iff_forall_not_mem, List.eq_nil_iff_forall_not_mem]
    simp only [h]
  unfold PublishedAs
  rw [keptNexthops_congr hd h]
  cases entry with
  | none => exact hnil
  | some e => simp only [ne_eq, hnil]

theorem zipNexthops_nil (vrfs intfs : List String) : zipNexthops vrfs intfs [] = [] := by
  cases vrfs with
  | nil => rfl
  | cons v vrfs => cases intfs <;> rfl

/-- The kept rows of the loop are the reachable next hops, column by column. -/
theorem reachableRows_eq {reach : List (String × String)} {ips vrfs intfs : List String}
    {bkh dist : Option (List String)} {rows : List Row} (hlen : intfs.length = ips.length)
    (h : reachableRows reach ips vrfs bkh (some intfs) dist = some rows) :
    rows.map Row.nexthop =
        ((zipNexthops vrfs intfs ips).filter fun nh => nh.pair ∈ reach).map Nexthop.ip ∧
      rows.map Row.ifname =
        ((zipNexthops vrfs intfs ips).filter fun nh => nh.pair ∈ reach).map Nexthop.ifname ∧
      rows.map Row.nexthopVrf =
        ((zipNexthops vrfs intfs ips).filter fun nh => nh.pair ∈ reach).map Nexthop.vrf := by
  induction ips generalizing vrfs intfs bkh dist rows with
  | nil =>
    simp only [reachableRows, Option.some.injEq] at h
    subst h
    simp [zipNexthops_nil]
  | cons ip ips ih =>
    cases vrfs with
    | nil => simp [reachableRows] at h
    | cons vrf vrfs =>
      cases intfs with
      | nil => simp at hlen
      | cons intf intfs =>
        simp only [reachableRows, Option.map_some, List.tail_cons, Option.bind_eq_bind] at h
        obtain ⟨rest, hrest, h⟩ := Option.bind_eq_some_iff.1 h
        have ih := ih (by simpa using hlen) hrest
        have hpair : (⟨vrf, intf, ip⟩ : Nexthop).pair = (vrf, ip) := rfl
        by_cases hm : (vrf, ip) ∈ reach
        · rw [if_pos hm] at h
          obtain ⟨b, _, h⟩ := Option.bind_eq_some_iff.1 h
          obtain ⟨i, hi, h⟩ := Option.bind_eq_some_iff.1 h
          obtain ⟨dd, _, h⟩ := Option.bind_eq_some_iff.1 h
          have hi : i = intf := by simpa [item] using hi.symm
          have h : rows = ⟨b, ip, i, dd, vrf⟩ :: rest := (Option.some.inj h).symm
          simp [h, hi, zipNexthops, hpair, hm, ih]
        · rw [if_neg hm] at h
          have h : rows = rest := (Option.some.inj h).symm
          simp [h, zipNexthops, hpair, hm, ih]

theorem candidate_eq_join (column : List String) : candidate column = join "," column :=
  drop_foldl_append_eq_join "," column

/-- The interface list of a stored route with bfd enabled matches its next hops. -/
def WellListed (d : Data) : Prop :=
  ∃ ips intfs, fieldList d "nexthop" = some ips ∧ fieldList d "ifname" = some intfs ∧
    intfs.length = ips.length

theorem wellListed_set_hold {d : Data} (v : String) (h : WellListed d) :
    WellListed (d.set "bfd_nh_hold" v) := by
  obtain ⟨ips, intfs, h1, h2, h3⟩ := h
  refine ⟨ips, intfs, ?_, ?_, h3⟩
  · rw [fieldList_set_ne _ _ (by decide), h1]
  · rw [fieldList_set_ne _ _ (by decide), h2]

theorem get?_of_fieldList {d : Data} {f : String} {l : List String}
    (h : fieldList d f = some l) : d.get? f ≠ none := by
  unfold fieldList at h
  intro hn
  rw [hn] at h
  simp at h

/-- What `reconstruct_static_route_config` returns is the reachable part of the route. -/
theorem publishedAs_reconstruct {d e : Data} {reach : List (String × String)}
    (hd : WellListed d) (hne : reach ≠ [])
    (h : reconstructStaticRouteConfig d reach = some e) : PublishedAs (some e) d reach := by
  obtain ⟨ips, intfs, hips, hintfs, hlen⟩ := hd
  unfold reconstructStaticRouteConfig at h
  rw [hips, hintfs] at h
  simp only [Option.bind_eq_bind, Option.bind_some] at h
  obtain ⟨vrfs, hvrfs, h⟩ := Option.bind_eq_some_iff.1 h
  obtain ⟨rows, hrows, h⟩ := Option.bind_eq_some_iff.1 h
  have he := (Option.some.inj h).symm
  obtain ⟨h1, h2, h3⟩ := reachableRows_eq hlen hrows
  have hkept : keptNexthops d reach =
      (zipNexthops vrfs intfs ips).filter fun nh => nh.pair ∈ reach := by
    simp [keptNexthops, storedNexthops, hips, hintfs, hvrfs]
  refine ⟨hne, ?_, ?_, ?_⟩
  · rw [he, Dict.get?_set_ne _ _ (by decide), hkept, ← h1, ← candidate_eq_join]
    exact Dict.get?_filterMapValues _ _ _ _ (fun v => by simp [newConfigField])
      (get?_of_fieldList hips)
  · rw [he, Dict.get?_set_ne _ _ (by decide), hkept, ← h2, ← candidate_eq_join]
    exact Dict.get?_filterMapValues _ _ _ _ (fun v => by simp [newConfigField])
      (get?_of_fieldList hintfs)
  · rw [he, Dict.get?_set_ne _ _ (by decide), hkept, ← h3, ← candidate_eq_join]
    exact Dict.get?_filterMapValues _ _ _ _ (fun v => by simp [newConfigField])
      (get?_of_fieldList hvrfs)

/-! ## The side condition -/

/-- No other route that is stored with bfd enabled has the APPL_DB key of `x`. -/
def ApplKeyApart (env : Env) (s : State) (x : String) : Prop :=
  ∀ r ∈ s.config.keys, bfdEnabled env (s.config.getD r []) → applKey r = applKey x → r = x

instance (env : Env) (s : State) (x : String) : Decidable (ApplKeyApart env s x) :=
  inferInstanceAs (Decidable (∀ r ∈ _, _ → _ → _))

theorem ApplKeyApart.eq {env : Env} {s : State} {x r : String} (h : ApplKeyApart env s x)
    (hb : bfdEnabled env (s.config.getD r [])) (hk : applKey r = applKey x) : r = x := by
  refine h r ?_ hb hk
  by_contra hr
  rw [Dict.getD_eq_of_not_mem_keys _ _ hr, bfdEnabled_nil] at hb
  exact absurd hb (by simp)

/-- The routes whose APPL_DB entry an event may write. -/
def touched (env : Env) (s : State) : Event → List String
  | .staticRouteSet key _ | .staticRouteDel key =>
    match routeOf env key with
    | some (vrf, ipPrefix) => [routeCfgKey vrf ipPrefix]
    | none => []
  | .bfdStateSet key _ | .bfdStateDel key =>
    match bfdStateSplitKey key with
    | some (vrf, _, peerIp) => s.nexthop.getD (nhKey (vrf, peerIp)) []
    | none => []
  | .interfaceSet _ | .interfaceDel _ => []

/-- The reachable next hops that an update leaves in `LOCAL_SRT_TABLE`. -/
def keptReach (env : Env) (s : State) (u : Update) : List (String × String) :=
  (s.srt.getD u.route []).filter fun p =>
    p ∉ droppedPairs env s u.vrf u.route u.nexthops

instance (env : Env) (s : State) (u : Update) (p : String × String) :
    Decidable (StaysUp env s u p) :=
  inferInstanceAs (Decidable (_ ∧ ∀ q ∈ _, (∀ x ∈ _, _) → _))

/-- An accepted update is a toggle to bfd, or lists a next hop that stays UP, or leaves nothing
    reachable of a route that has no APPL_DB entry. -/
def QuietUpdateOk (env : Env) (s : State) (u : Update) : Prop :=
  curBfdDisabled env s u.route ∨ (∃ p ∈ (nexthopPairs u.data).getD [], StaysUp env s u p) ∨
    (s.applRoute.get? (applKey u.route) = none ∧ keptReach env s u = [])

instance (env : Env) (s : State) (u : Update) : Decidable (QuietUpdateOk env s u) :=
  inferInstanceAs (Decidable (_ ∨ _ ∨ _ ∧ _))

/-- The side condition of `publishedAs_of_run`. -/
def PublishOk (env : Env) (s : State) (e : Event) : Prop :=
  (∀ x ∈ touched env s e, ApplKeyApart env s x) ∧
    match e with
    | .staticRouteSet key data =>
      ∀ u ∈ acceptedUpdate env s key data, QuietUpdateOk env s u
    | _ => True

instance (env : Env) (s : State) (e : Event) : Decidable (PublishOk env s e) :=
  match e with
  | .staticRouteSet _ _ => inferInstanceAs (Decidable ((∀ x ∈ _, _) ∧ ∀ u ∈ _, _))
  | .interfaceSet _ | .interfaceDel _ | .staticRouteDel _ | .bfdStateSet _ _ | .bfdStateDel _ =>
    inferInstanceAs (Decidable ((∀ x ∈ _, _) ∧ True))

/-! ## The invariant -/

/-- Every route with bfd enabled and not in hold is published as its reachable next hops. -/
structure PubInv (env : Env) (s : State) : Prop where
  lists : ∀ r, bfdEnabled env (s.config.getD r []) → WellListed (s.config.getD r [])
  published : ∀ r, bfdEnabled env (s.config.getD r []) →
    (s.config.getD r []).get? "bfd_nh_hold" ≠ some "true" →
    PublishedAs (s.applRoute.get? (applKey r)) (s.config.getD r []) (s.srt.getD r [])

theorem pubInv_init (env : Env) : PubInv env init where
  lists r h := by
    rw [show init.config.getD r [] = [] from rfl, bfdEnabled_nil] at h
    exact absurd h (by simp)
  published r h := by
    rw [show init.config.getD r [] = [] from rfl, bfdEnabled_nil] at h
    exact absurd h (by simp)

/-- An event that writes the tables of one route only keeps the invariant of the others. -/
theorem pubInv_touch {env : Env} {s s' : State} {x : String} (hi : PubInv env s)
    (hap : ApplKeyApart env s x)
    (hcfg : ∀ r, r ≠ x → s'.config.getD r [] = s.config.getD r [])
    (hsrt : ∀ r, r ≠ x → ∀ p, p ∈ s'.srt.getD r [] ↔ p ∈ s.srt.getD r [])
    (happl : ∀ k, k ≠ applKey x → s'.applRoute.get? k = s.applRoute.get? k)
    (hlists : bfdEnabled env (s'.config.getD x []) → WellListed (s'.config.getD x []))
    (hpub : bfdEnabled env (s'.config.getD x []) →
      (s'.config.getD x []).get? "bfd_nh_hold" ≠ some "true" →
      PublishedAs (s'.applRoute.get? (applKey x)) (s'.config.getD x []) (s'.srt.getD x [])) :
    PubInv env s' := by
  refine ⟨fun r hb => ?_, fun r hb hh => ?_⟩
  · by_cases hr : r = x
    · subst hr
      exact hlists hb
    · rw [hcfg r hr] at hb ⊢
      exact hi.lists r hb
  · by_cases hr : r = x
    · subst hr
      exact hpub hb hh
    · rw [hcfg r hr] at hb hh ⊢
      rw [happl _ fun hk => hr (hap.eq hb hk)]
      exact (publishedAs_congr rfl (hsrt r hr)).2 (hi.published r hb hh)

/-! ## BFD state events -/

/-- One iteration of the loops over the routes of a next hop: it touches one route, keeps its
    stored fields up to the hold flag, and leaves it published. -/
structure TouchesRoute (env : Env) (s s' : State) (x : String) : Prop where
  cfg : ∀ r, r ≠ x → s'.config.getD r [] = s.config.getD r []
  hold : s'.config.getD x [] = s.config.getD x [] ∨
    s'.config.getD x [] = (s.config.getD x []).set "bfd_nh_hold" "false"
  srt : ∀ r, r ≠ x → ∀ p, p ∈ s'.srt.getD r [] ↔ p ∈ s.srt.getD r []
  appl : ∀ k, k ≠ applKey x → s'.applRoute.get? k = s.applRoute.get? k
  pub : WellListed (s.config.getD x []) →
    PublishedAs (s'.applRoute.get? (applKey x)) (s'.config.getD x []) (s'.srt.getD x [])

theorem TouchesRoute.enabled {env : Env} {s s' : State} {x : String}
    (h : TouchesRoute env s s' x) (r : String) :
    bfdEnabled env (s'.config.getD r []) = bfdEnabled env (s.config.getD r []) := by
  by_cases hr : r = x
  · subst hr
    rcases h.hold with he | he <;> rw [he]
    exact bfdEnabled_set_ne env _ _ (by decide)
  · rw [h.cfg r hr]

theorem TouchesRoute.pubInv {env : Env} {s s' : State} {x : String}
    (h : TouchesRoute env s s' x) (hap : ApplKeyApart env s x) (hi : PubInv env s) :
    PubInv env s' := by
  refine pubInv_touch hi hap h.cfg h.srt h.appl (fun hb => ?_) (fun hb _ => ?_)
  · rw [h.enabled] at hb
    rcases h.hold with he | he <;> rw [he]
    · exact hi.lists x hb
    · exact wellListed_set_hold _ (hi.lists x hb)
  · rw [h.enabled] at hb
    exact h.pub (hi.lists x hb)

theorem TouchesRoute.apart {env : Env} {s s' : State} {x y : String}
    (h : TouchesRoute env s s' x) (hap : ApplKeyApart env s y) : ApplKeyApart env s' y := by
  intro r _ hb hk
  rw [h.enabled] at hb
  exact hap.eq hb hk

theorem withdrawOrPublish_touches {env : Env} {s s' : State} {x : String} {nh : String × String}
    (h : withdrawOrPublish (removeFromSrtTableEntry s x nh) x = some s') :
    TouchesRoute env s s' x := by
  have hsrt : ∀ r, r ≠ x → ∀ p, p ∈ (s.srt.removeMember x nh).getD r [] ↔ p ∈ s.srt.getD r [] := by
    intro r hr p
    rw [Dict.mem_getD_removeMember]
    exact and_iff_left fun hx => hr hx.1.symm
  rcases withdrawOrPublish_cases h with ⟨hnil, rfl⟩ | ⟨hne, e, he, rfl⟩
  · refine ⟨fun _ _ => rfl, Or.inl rfl, hsrt, fun k hk => Dict.get?_erase_ne _ (Ne.symm hk), ?_⟩
    intro _
    dsimp only
    rw [Dict.get?_erase_self]
    exact hnil
  · refine ⟨fun _ _ => rfl, Or.inl rfl, hsrt, fun k hk => Dict.get?_set_ne _ _ (Ne.symm hk), ?_⟩
    intro hw
    dsimp only
    rw [Dict.get?_set_self]
    exact publishedAs_reconstruct hw hne he

theorem bfdStateUp_touches {env : Env} {s s' : State} {x : String} {nh : String × String}
    (h : bfdStateUp nh s x = some s') : s' = s ∨ TouchesRoute env s s' x := by
  unfold bfdStateUp at h
  split at h
  · exact Or.inl (Option.some.inj h).symm
  · right
    obtain ⟨e, he, rfl⟩ := publish_eq h
    dsimp only [appendToSrtTableEntry] at he ⊢
    rw [Dict.getD_set_self] at he
    refine ⟨fun r hr => Dict.getD_set_ne _ _ _ (Ne.symm hr), Or.inr (Dict.getD_set_self _ _ _ _),
      fun r hr p => ?_, fun k hk => Dict.get?_set_ne _ _ (Ne.symm hk), fun hw => ?_⟩
    · dsimp only
      rw [Dict.mem_getD_addMember]
      exact or_iff_left fun hx => hr hx.1.symm
    · dsimp only
      rw [Dict.get?_set_self, Dict.getD_set_self]
      refine publishedAs_reconstruct (wellListed_set_hold _ hw) ?_ he
      rw [Dict.getD_addMember, if_pos rfl]
      exact setAdd_ne_nil _ _

theorem bfdStateDown_touches {env : Env} {s s' : State} {x : String} {nh : String × String}
    (h : bfdStateDown nh s x = some s') : s' = s ∨ TouchesRoute env s s' x := by
  unfold bfdStateDown at h
  obtain ⟨hold, _, h⟩ := Option.bind_eq_some_iff.1 h
  split at h
  · exact Or.inl (Option.some.inj h).symm
  · exact Or.inr (withdrawOrPublish_touches h)

/-- The loops of the BFD state handlers keep the invariant. -/
theorem pubInv_foldlM {env : Env} {f : State → String → Option State} {L : List String}
    (hf : ∀ s x s', f s x = some s' → s' = s ∨ TouchesRoute env s s' x)
    {s s' : State} (h : L.foldlM f s = some s') (hi : PubInv env s)
    (hap : ∀ x ∈ L, ApplKeyApart env s x) : PubInv env s' := by
  have hstep : ∀ s x s', x ∈ L → (PubInv env s ∧ ∀ y ∈ L, ApplKeyApart env s y) →
      f s x = some s' → PubInv env s' ∧ ∀ y ∈ L, ApplKeyApart env s' y := by
    rintro s x s' hx ⟨hi, hap⟩ hs
    rcases hf s x s' hs with rfl | ht
    · exact ⟨hi, hap⟩
    · exact ⟨ht.pubInv (hap x hx) hi, fun y hy => ht.apart (hap y hy)⟩
  exact (foldlM_invariant hstep h ⟨hi, hap⟩).1

/-! ## Static route events -/

/-- A route that ends up without bfd is out of the invariant's reach. -/
theorem pubInv_disable {env : Env} {s s' : State} {x : String} (hi : PubInv env s)
    (hap : ApplKeyApart env s x)
    (hcfg : ∀ r, r ≠ x → s'.config.getD r [] = s.config.getD r [])
    (hsrt : ∀ r, r ≠ x → s'.srt.getD r [] = s.srt.getD r [])
    (happl : ∀ k, k ≠ applKey x → s'.applRoute.get? k = s.applRoute.get? k)
    (hoff : bfdEnabled env (s'.config.getD x []) = false) : PubInv env s' := by
  refine pubInv_touch hi hap hcfg (fun r hr p => by rw [hsrt r hr]) happl ?_ ?_
  · intro hb
    rw [hoff] at hb
    exact absurd hb (by simp)
  · intro hb
    rw [hoff] at hb
    exact absurd hb (by simp)

theorem pubInv_cleared {env : Env} {s : State} {x : String} {config : Dict String Data}
    (hi : PubInv env s) (hap : ApplKeyApart env s x)
    (hcfg : ∀ r, r ≠ x → config.getD r [] = s.config.getD r [])
    (hoff : bfdEnabled env (config.getD x []) = false) :
    PubInv env { cleared s x with config := config } := by
  obtain ⟨n, b, a, hf⟩ := cleared_frame s x
  rw [hf]
  exact pubInv_disable hi hap hcfg (fun r hr => Dict.getD_erase_ne _ _ (Ne.symm hr))
    (fun k hk => Dict.get?_erase_ne _ (Ne.symm hk)) hoff

theorem pubInv_del {env : Env} {s : State} {key : String} (hi : PubInv env s)
    (hap : ∀ x ∈ touched env s (.staticRouteDel key), ApplKeyApart env s x) :
    PubInv env (staticRouteDelHandler env s key true) := by
  have htouch : ∀ vrf ipPrefix, routeOf env key = some (vrf, ipPrefix) →
      ApplKeyApart env s (routeCfgKey vrf ipPrefix) := by
    intro vrf ipPrefix hr
    exact hap _ (by simp [touched, hr])
  rcases del_cases env s key with h | ⟨vrf, p, hr, _, h⟩ | ⟨vrf, p, hr, _, h⟩ <;> rw [h]
  · exact hi
  · refine pubInv_disable hi (htouch vrf p hr) (fun r hne => Dict.getD_erase_ne _ _ (Ne.symm hne))
      (fun r hne => Dict.getD_erase_ne _ _ (Ne.symm hne)) (fun _ _ => rfl) ?_
    dsimp only
    rw [Dict.getD_erase_self, bfdEnabled_nil]
  · refine pubInv_cleared hi (htouch vrf p hr)
      (fun r hne => Dict.getD_erase_ne _ _ (Ne.symm hne)) ?_
    rw [Dict.getD_erase_self, bfdEnabled_nil]

theorem wellListed_of_accepted {env : Env} {s : State} {key : String} {data : Data} {u : Update}
    (h : acceptedUpdate env s key data = some u) : WellListed u.data := by
  obtain ⟨ips, intfs, h1, h2, h3, _⟩ := (acceptedUpdate_spec h).lists
  exact ⟨ips, intfs, h1, h2, h3⟩

/-- An accepted update under `QuietUpdateOk`. -/
theorem pubInv_update {env : Env} {s s' : State} {key : String} {data : Data} {u : Update}
    (hi : PubInv env s) (hap : ApplKeyApart env s u.route)
    (hu : acceptedUpdate env s key data = some u) (hq : QuietUpdateOk env s u)
    (h : updateBfdRoute env (beforeUpdate env s u.route data) u.vrf u.route u.data u.nexthops =
      some s') : PubInv env s' := by
  have hhold := (acceptedUpdate_spec hu).hold
  have hwl := wellListed_of_accepted hu
  obtain ⟨a, hbefore, happl, hsame⟩ := beforeUpdate_frame env s u.route data
  rw [hbefore] at h
  have hne : ∀ {r : String} (d : Data), r ≠ u.route →
      (s.config.set u.route d).getD r [] = s.config.getD r [] :=
    fun d hr => Dict.getD_set_ne _ _ _ (Ne.symm hr)
  obtain ⟨pairs, hpairs, ⟨hquiet, rfl⟩ | ⟨hex, e, srt, config, hsrt, hcfg, he, rfl⟩⟩ :=
    update_cases h
  · -- nothing listed is UP: nothing is written, the side condition speaks about this case
    refine pubInv_touch hi hap (fun r hr => ?_) (fun r hr p => ?_) (fun k hk => ?_) ?_ ?_
    · rw [listed_config]
      exact hne _ hr
    · rw [mem_listed_srt]
      exact and_iff_left fun hx => hr hx.1
    · rw [listed_applRoute]
      exact happl k hk
    · rw [listed_config, Dict.getD_set_self]
      exact fun _ => hwl
    · rw [listed_config, Dict.getD_set_self, listed_applRoute, hhold]
      intro _ hnot
      have hcur : ¬ curBfdDisabled env s u.route := by
        intro hdis
        exact hnot (by simp [holdOf, hdis])
      rcases hq with hdis | ⟨p, hp, hup⟩ | ⟨hnone, hkept⟩
      · exact absurd hdis hcur
      · rw [hpairs, Option.getD_some] at hp
        exact absurd hup (hquiet p hp)
      · dsimp only
        rw [hsame hcur, hnone]
        have hpub : PublishedAs none u.data (keptReach env s u) := hkept
        refine (publishedAs_congr rfl fun p => ?_).2 hpub
        rw [mem_listed_srt]
        simp only [keptReach, List.mem_filter, true_and, decide_eq_true_eq]
  · have hself : config.getD u.route [] = u.data.set "bfd_nh_hold" "false" := by
      rw [hcfg, if_pos rfl]
    refine pubInv_touch hi hap (fun r hr => ?_) (fun r hr p => ?_) (fun k hk => ?_) ?_ ?_
    · rw [hcfg r, if_neg (Ne.symm hr)]
    · dsimp only
      rw [hsrt, mem_listed_srt]
      constructor
      · rintro (hp | hx)
        · exact hp.1
        · exact absurd hx.1 hr
      · exact fun hp => Or.inl ⟨hp, fun hx => hr hx.1⟩
    · dsimp only
      rw [Dict.get?_set_ne _ _ (Ne.symm hk)]
      exact happl k hk
    · dsimp only
      rw [hself]
      exact fun _ => wellListed_set_hold _ hwl
    · dsimp only
      rw [hself]
      intro _ _
      rw [Dict.get?_set_self]
      obtain ⟨p, hp, hup⟩ := hex
      exact publishedAs_reconstruct (wellListed_set_hold _ hwl)
        (List.ne_nil_of_mem ((hsrt u.route p).2 (Or.inr ⟨rfl, hp, hup⟩))) he

theorem pubInv_set {env : Env} {s s' : State} {key : String} {data : Data} (hi : PubInv env s)
    (hok : PublishOk env s (.staticRouteSet key data))
    (h : staticRouteSetHandler env s key data = some s') : PubInv env s' := by
  obtain ⟨hap, hq⟩ := hok
  have htouch : ∀ vrf ipPrefix, routeOf env key = some (vrf, ipPrefix) →
      ApplKeyApart env s (routeCfgKey vrf ipPrefix) := by
    intro vrf ipPrefix hr
    exact hap _ (by simp [touched, hr])
  rcases set_cases h with rfl | ⟨vrf, p, d, hr, hd, _, rfl⟩ | ⟨vrf, p, d, hr, hd, _, _, rfl⟩ |
    ⟨vrf, p, hr, _, rfl⟩ | ⟨u, p, hu, hr, hroute, hupd⟩
  · exact hi
  · refine pubInv_disable hi (htouch vrf p hr)
      (fun r hne => Dict.getD_set_ne _ _ _ (Ne.symm hne)) (fun _ _ => rfl) (fun _ _ => rfl) ?_
    dsimp only
    rw [Dict.getD_set_self, hd]
  · refine pubInv_cleared hi (htouch vrf p hr)
      (fun r hne => Dict.getD_set_ne _ _ _ (Ne.symm hne)) ?_
    rw [Dict.getD_set_self, hd]
  · -- rejected: only a toggle has written anything, and the route is stored without bfd
    by_cases hdis : curBfdDisabled env s (routeCfgKey vrf p)
    · obtain ⟨a, hbefore, happl, _⟩ := beforeUpdate_frame env s (routeCfgKey vrf p) data
      rw [hbefore]
      exact pubInv_disable hi (htouch vrf p hr) (fun _ _ => rfl) (fun _ _ => rfl) happl
        (by simpa using hdis.2)
    · rw [show beforeUpdate env s (routeCfgKey vrf p) data = s from if_neg hdis]
      exact hi
  · exact pubInv_update hi (hroute ▸ htouch u.vrf p hr) hu (hq u hu) hupd

/-! ## Runs -/

theorem pubInv_step {env : Env} {s s' : State} {e : Event} (hi : PubInv env s)
    (hok : PublishOk env s e) (h : Step env s e s') : PubInv env s' := by
  obtain ⟨order, horder, h⟩ := h
  cases e with
  | interfaceSet key =>
    obtain ⟨i, b, p, a, hf⟩ := interfaceSet_frame env s key
    rw [← Option.some.inj h, hf]
    exact ⟨hi.lists, hi.published⟩
  | interfaceDel key =>
    obtain ⟨i, hf⟩ := interfaceDel_frame env s key
    rw [← Option.some.inj h, hf]
    exact ⟨hi.lists, hi.published⟩
  | staticRouteSet key data => exact pubInv_set hi hok h
  | staticRouteDel key =>
    rw [← Option.some.inj h]
    exact pubInv_del hi hok.1
  | bfdStateSet key data =>
    obtain ⟨hap, _⟩ := hok
    obtain ⟨⟨vrf, intf, peerIp⟩, hk, h⟩ := Option.bind_eq_some_iff.1 h
    have htouch : ∀ x ∈ order (s.nexthop.getD (nhKey (vrf, peerIp)) []),
        ApplKeyApart env s x := by
      intro x hx
      exact hap x (by simpa [touched, hk] using horder.mem.1 hx)
    dsimp only at h
    split at h
    · exact Option.some.inj h ▸ hi
    · have hi' : ∀ b, PubInv env { s with bfd := b } := fun _ => ⟨hi.lists, hi.published⟩
      split at h
      · exact pubInv_foldlM (fun _ _ _ hs => bfdStateUp_touches hs) h (hi' _) htouch
      · split at h
        · exact pubInv_foldlM (fun _ _ _ hs => bfdStateDown_touches hs) h (hi' _) htouch
        · exact Option.some.inj h ▸ hi' _
  | bfdStateDel key =>
    obtain ⟨hap, _⟩ := hok
    obtain ⟨⟨vrf, intf, peerIp⟩, hk, h⟩ := Option.bind_eq_some_iff.1 h
    refine pubInv_foldlM (fun _ _ _ hs => Or.inr (withdrawOrPublish_touches hs)) h hi ?_
    intro x hx
    exact hap x (by simpa [touched, hk] using horder.mem.1 hx)

/-- In every run from the empty daemon whose events meet `PublishOk`, a route that is stored
    with bfd enabled and is not in hold has an APPL_DB entry exactly when something of it is
    reachable, and then the entry lists the reachable part of its stored next hops. -/
theorem publishedAs_of_run (env : Env) {es : List Event} {s : State}
    (hrun : Run (Step env) (PublishOk env) init es s) (r : String)
    (hb : bfdEnabled env (s.config.getD r []) = true)
    (hh : (s.config.getD r []).get? "bfd_nh_hold" ≠ some "true") :
    PublishedAs (s.applRoute.get? (applKey r)) (s.config.getD r []) (s.srt.getD r []) :=
  (hrun.invariant (fun _ _ _ hi hok h => pubInv_step hi hok h) (pubInv_init env)).published r hb hh

/-- An update replaces the next hop of the route by one without a session. -/
def replaceNexthop : Event :=
  .staticRouteSet "1.1.1.0/24" [("nexthop", "10.0.0.2"), ("ifname", "Ethernet0"), ("bfd", "true")]

theorem publishedAs_upRun :
    ∃ s, Run (Step ipv4Env) (PublishOk ipv4Env) init upRun s ∧
      s.srt.getD "default|1.1.1.0/24" [] = [("default", "10.0.0.1")] ∧
      PublishedAs (s.applRoute.get? (applKey "default|1.1.1.0/24"))
        (s.config.getD "default|1.1.1.0/24" []) (s.srt.getD "default|1.1.1.0/24" []) := by
  have hend : ∃ s, Run (Step ipv4Env) (PublishOk ipv4Env) init upRun s ∧
      bfdEnabled ipv4Env (s.config.getD "default|1.1.1.0/24" []) = true ∧
      (s.config.getD "default|1.1.1.0/24" []).get? "bfd_nh_hold" ≠ some "true" ∧
      s.srt.getD "default|1.1.1.0/24" [] = [("default", "10.0.0.1")] :=
    exists_run step_of_handle (by decide +kernel)
  obtain ⟨s, hrun, hb, hh, hsrt⟩ := hend
  exact ⟨s, hrun, hsrt, publishedAs_of_run ipv4Env hrun _ hb hh⟩

/-- The update loses the only reachable next hop and the old entry stays in APPL_DB. -/
theorem stale_entry_after_update :
    ∃ s, Run (Step ipv4Env) (fun _ _ => True) init (upRun ++ [replaceNexthop]) s ∧
      bfdEnabled ipv4Env (s.config.getD "default|1.1.1.0/24" []) = true ∧
      (s.config.getD "default|1.1.1.0/24" []).get? "bfd_nh_hold" = some "false" ∧
      s.srt.getD "default|1.1.1.0/24" [] = [] ∧
      (s.applRoute.getD "default:1.1.1.0/24" []).get? "nexthop" = some "10.0.0.1" ∧
      ¬ PublishedAs (s.applRoute.get? (applKey "default|1.1.1.0/24"))
        (s.config.getD "default|1.1.1.0/24" []) (s.srt.getD "default|1.1.1.0/24" []) :=
  exists_run step_of_handle (by decide +kernel)

end SonicBuildimage.StaticRouteBfd
