/-
  Hold: a route that is turned from bfd off to bfd on stays published with its full
  next-hop list until a session of one of its next hops comes up.

  The flag `bfd_nh_hold` is written by every update and read by the DOWN branch of
  `bfd_state_set_handler` only. So a second SET of the route ends the hold, and a session
  deletion ignores it: in both cases the route is withdrawn although nothing has come up
  (`withdrawn_in_hold`). A next hop whose session is already UP when the route is turned
  on, or set again, narrows the route at once.

  `held_of_run`: after a toggle that lists no next hop with a session UP, the entry of the
  route is the one the toggle published, in every state of every continuation of the kind
  the hold is for (`Continues`) that keeps clear of these three cases (`HoldOk`).
-/
import SonicBuildimage.StaticRouteBfd.Publish
import SonicBuildimage.StaticRouteBfd.Index

namespace SonicBuildimage.StaticRouteBfd

open SonicBuildimage.Lib

/-! ## The continuation of a toggle -/

/-- What a toggle to bfd publishes: the fields of the update with all its next hops. -/
def toggleEntry (env : Env) (data : Data) : Data :=
  ((lowerNexthop env data).set "bfd" "false").set "expiry" "false"

/-- The route is not deleted and not turned back, and no session of its next hops is reported
    UP. -/
def Continues (env : Env) (r : String) (s : State) : Event → Prop
  | .staticRouteSet key data =>
    ∀ q ∈ routeOf env key, routeCfgKey q.1 q.2 = r →
      data = [] ∨ bfdEnabled env (lowerNexthop env data) = true
  | .staticRouteDel key => ∀ q ∈ routeOf env key, routeCfgKey q.1 q.2 ≠ r
  | .bfdStateSet key data =>
    ∀ q ∈ bfdStateSplitKey key, (q.1, q.2.2) ∈ storedPairs (s.config.getD r []) →
      env.upper (data.getD "state" "DOWN") ≠ "UP"
  | _ => True

instance (env : Env) (r : String) (s : State) (e : Event) : Decidable (Continues env r s e) :=
  match e with
  | .staticRouteSet _ _ => inferInstanceAs (Decidable (∀ q ∈ _, _ → _))
  | .staticRouteDel _ => inferInstanceAs (Decidable (∀ q ∈ _, _))
  | .bfdStateSet _ _ => inferInstanceAs (Decidable (∀ q ∈ _, _ → _))
  | .interfaceSet _ | .interfaceDel _ | .bfdStateDel _ => inferInstanceAs (Decidable True)

/-- No next hop of an update has a session that is UP. -/
def NothingUp (env : Env) (s : State) (u : Update) : Prop :=
  ∀ nh ∈ u.nexthops, sessionUp env (s.bfd.getD (bfdKey nh.pair) []) = false

instance (env : Env) (s : State) (u : Update) : Decidable (NothingUp env s u) :=
  inferInstanceAs (Decidable (∀ nh ∈ _, _))

/-- The side condition of `held_of_run`: plain names and APPL_DB keys that no other route has;
    a SET of the route lists nothing that is UP; a DOWN report about a session of one of its
    next hops comes while the flag is set; none of these sessions is deleted. -/
def HoldOk (env : Env) (r : String) (s : State) (e : Event) : Prop :=
  NamesOk env s e ∧ (∀ x ∈ touched env s e, applKey x = applKey r → x = r) ∧
    match e with
    | .staticRouteSet key data =>
      ∀ u ∈ acceptedUpdate env s key data, u.route = r → NothingUp env s u
    | .bfdStateSet key data =>
      ∀ q ∈ bfdStateSplitKey key, (q.1, q.2.2) ∈ storedPairs (s.config.getD r []) →
        s.bfd.getD (q.1 ++ ":" ++ q.2.1 ++ ":" ++ q.2.2) [] ≠ [] →
        env.upper (data.getD "state" "DOWN") = "DOWN" →
        (s.config.getD r []).get? "bfd_nh_hold" = some "true"
    | .bfdStateDel key =>
      ∀ q ∈ bfdStateSplitKey key, (q.1, q.2.2) ∉ storedPairs (s.config.getD r [])
    | _ => True

instance (env : Env) (r : String) (s : State) (e : Event) : Decidable (HoldOk env r s e) :=
  match e with
  | .staticRouteSet _ _ => inferInstanceAs (Decidable (_ ∧ (∀ x ∈ _, _ → _) ∧ ∀ u ∈ _, _ → _))
  | .bfdStateSet _ _ =>
    inferInstanceAs (Decidable (_ ∧ (∀ x ∈ _, _ → _) ∧ ∀ q ∈ _, _ → _ → _ → _))
  | .bfdStateDel _ => inferInstanceAs (Decidable (_ ∧ (∀ x ∈ _, _ → _) ∧ ∀ q ∈ _, _))
  | .interfaceSet _ | .interfaceDel _ | .staticRouteDel _ =>
    inferInstanceAs (Decidable (_ ∧ (∀ x ∈ _, _ → _) ∧ True))

/-! ## The invariant -/

/-- The route is stored with bfd enabled and `entry` is what APPL_DB holds for it. -/
structure HoldInv (env : Env) (r : String) (entry : Data) (s : State) : Prop where
  index : IndexInv env s
  enabled : bfdEnabled env (s.config.getD r []) = true
  entry : s.applRoute.get? (applKey r) = some entry

section Steps

variable {env : Env} {r : String} {entry : Data} {s s' : State}

/-- An update of the route that finds nothing UP leaves APPL_DB alone. -/
theorem applRoute_of_nothingUp {u : Update} (hacc : Accepted env s u)
    (hplain : ∀ nh ∈ u.nexthops, PlainPair nh.pair) (hup : NothingUp env s u)
    (h : updateBfdRoute env s u.vrf u.route u.data u.nexthops = some s') :
    s'.applRoute = s.applRoute ∧ s'.config.getD u.route [] = u.data := by
  obtain ⟨pairs, hp, ⟨_, rfl⟩ | ⟨⟨p, hpp, hsu⟩, _⟩⟩ := update_cases h
  · rw [listed_applRoute, listed_config, Dict.getD_set_self]
    exact ⟨rfl, rfl⟩
  · rw [hacc.nexthopPairs_eq hplain, hacc.storedPairs_eq hplain] at hp
    rw [← Option.some.inj hp] at hpp
    obtain ⟨nh, hm, rfl⟩ := List.mem_map.1 hpp
    exact absurd hsu.1 (by simp [hup nh hm])

/-- An update of another route leaves the entry alone. -/
theorem applRoute_of_other {u : Update} (hr : u.route ≠ r) (hk : applKey u.route ≠ applKey r)
    (h : updateBfdRoute env s u.vrf u.route u.data u.nexthops = some s') :
    s'.applRoute.get? (applKey r) = s.applRoute.get? (applKey r) ∧
      s'.config.getD r [] = s.config.getD r [] := by
  obtain ⟨pairs, _, ⟨_, rfl⟩ | ⟨_, e, srt, config, _, hcfg, _, rfl⟩⟩ := update_cases h
  · rw [listed_applRoute, listed_config, Dict.getD_set_ne _ _ _ hr]
    exact ⟨rfl, rfl⟩
  · dsimp only
    rw [Dict.get?_set_ne _ _ hk, hcfg, if_neg hr]
    exact ⟨rfl, rfl⟩

theorem HoldInv.set {key : String} {data : Data} (hi : HoldInv env r entry s)
    (hc : Continues env r s (.staticRouteSet key data))
    (hok : HoldOk env r s (.staticRouteSet key data))
    (h : staticRouteSetHandler env s key data = some s') : HoldInv env r entry s' := by
  obtain ⟨hnames, hapart, hquiet⟩ := hok
  have hindex := hi.index.set hnames h
  have hkey : ∀ vrf p, routeOf env key = some (vrf, p) → routeCfgKey vrf p ≠ r →
      applKey (routeCfgKey vrf p) ≠ applKey r := by
    intro vrf p hr hne hk
    exact hne (hapart _ (by simp [touched, hr]) hk)
  by_cases hd : data = []
  · unfold staticRouteSetHandler at h
    rw [if_pos hd] at h
    exact Option.some.inj h ▸ hi
  rcases set_cases h with rfl | ⟨vrf, p, d, hr, hdis, hb, rfl⟩ |
    ⟨vrf, p, d, hr, hdis, hnb, hb, rfl⟩ | ⟨vrf, p, hr, _, rfl⟩ | ⟨u, p, hu, hr, hroute, hupd⟩
  · exact hi
  · have hne : routeCfgKey vrf p ≠ r := fun he => hb (he ▸ hi.enabled)
    refine ⟨hindex, ?_, hi.entry⟩
    dsimp only
    rw [Dict.getD_set_ne _ _ _ hne]
    exact hi.enabled
  · have hne : routeCfgKey vrf p ≠ r := by
      intro he
      rcases hc (vrf, p) hr he with h | h
      · exact hd h
      · exact hnb h
    obtain ⟨n, b, a, hf⟩ := cleared_frame s (routeCfgKey vrf p)
    rw [hf] at hindex ⊢
    refine ⟨hindex, ?_, ?_⟩
    · dsimp only
      rw [Dict.getD_set_ne _ _ _ hne]
      exact hi.enabled
    · dsimp only
      rw [Dict.get?_erase_ne _ (hkey vrf p hr hne)]
      exact hi.entry
  · obtain ⟨a, hbefore, happl, hsame⟩ := beforeUpdate_frame env s (routeCfgKey vrf p) data
    rw [hbefore] at hindex ⊢
    refine ⟨hindex, hi.enabled, ?_⟩
    by_cases hne : routeCfgKey vrf p = r
    · dsimp only
      rw [hsame fun hdis => hdis.2 (hne ▸ hi.enabled)]
      exact hi.entry
    · dsimp only
      rw [happl _ (Ne.symm (hkey vrf p hr hne))]
      exact hi.entry
  · obtain ⟨a, hbefore, happl, hsame⟩ := beforeUpdate_frame env s u.route data
    rw [hbefore] at hupd
    by_cases hne : u.route = r
    · subst hne
      obtain ⟨h1, h2, h3, h4⟩ := acceptedUpdate_spec hu
      have hspec := applRoute_of_nothingUp (s := { s with applRoute := a }) ⟨h1, h2, h3, h4⟩
        (hnames u hu) (hquiet u hu rfl) hupd
      refine ⟨hindex, ?_, ?_⟩
      · rw [hspec.2]
        exact h3
      · rw [hspec.1]
        dsimp only
        rw [hsame fun hdis => hdis.2 hi.enabled]
        exact hi.entry
    · have hk : applKey u.route ≠ applKey r := hroute ▸ hkey u.vrf p hr (hroute ▸ hne)
      have hspec := applRoute_of_other hne hk hupd
      refine ⟨hindex, ?_, ?_⟩
      · rw [hspec.2]
        exact hi.enabled
      · rw [hspec.1]
        dsimp only
        rw [happl _ (Ne.symm hk)]
        exact hi.entry

theorem HoldInv.del {key : String} (hi : HoldInv env r entry s)
    (hc : Continues env r s (.staticRouteDel key)) (hok : HoldOk env r s (.staticRouteDel key)) :
    HoldInv env r entry (staticRouteDelHandler env s key true) := by
  have hindex := hi.index.del key
  rcases del_cases env s key with h | ⟨vrf, p, hr, _, h⟩ | ⟨vrf, p, hr, _, h⟩ <;> rw [h] at hindex ⊢
  · exact hi
  · have hne : routeCfgKey vrf p ≠ r := hc (vrf, p) hr
    refine ⟨hindex, ?_, hi.entry⟩
    dsimp only
    rw [Dict.getD_erase_ne _ _ hne]
    exact hi.enabled
  · have hne : routeCfgKey vrf p ≠ r := hc (vrf, p) hr
    have hk : applKey (routeCfgKey vrf p) ≠ applKey r := fun hk =>
      hne (hok.2.1 _ (by simp [touched, hr]) hk)
    obtain ⟨n, b, a, hf⟩ := cleared_frame s (routeCfgKey vrf p)
    rw [hf] at hindex ⊢
    refine ⟨hindex, ?_, ?_⟩
    · dsimp only
      rw [Dict.getD_erase_ne _ _ hne]
      exact hi.enabled
    · dsimp only
      rw [Dict.get?_erase_ne _ hk]
      exact hi.entry

/-- The loops over other routes leave the entry alone. -/
theorem entry_of_loop {f : State → String → Option State} {L : List String}
    (hf : ∀ t x t', f t x = some t' →
      ∀ k, k ≠ applKey x → t'.applRoute.get? k = t.applRoute.get? k)
    (hL : ∀ x ∈ L, applKey x ≠ applKey r) (h : L.foldlM f s = some s') :
    s'.applRoute.get? (applKey r) = s.applRoute.get? (applKey r) :=
  foldlM_invariant
    (P := fun t => t.applRoute.get? (applKey r) = s.applRoute.get? (applKey r))
    (fun t x t' hx ht ht' => (hf t x t' ht' _ (Ne.symm (hL x hx))).trans ht) h rfl

theorem bfdStateUp_applRoute {nh : String × String} {t t' : State} {x : String}
    (h : bfdStateUp nh t x = some t') (k : String) (hk : k ≠ applKey x) :
    t'.applRoute.get? k = t.applRoute.get? k := by
  rcases bfdStateUp_cases h with ⟨_, rfl⟩ | ⟨e, _, rfl⟩
  · rfl
  · exact Dict.get?_set_ne _ _ (Ne.symm hk)

theorem withdraw_applRoute {nh : String × String} {t t' : State} {x : String}
    (h : withdrawOrPublish (removeFromSrtTableEntry t x nh) x = some t') (k : String)
    (hk : k ≠ applKey x) : t'.applRoute.get? k = t.applRoute.get? k := by
  obtain ⟨a, rfl, ha⟩ := withdraw_frame h
  exact ha k hk

/-- The loop of a DOWN report skips the route while the flag is set. -/
theorem entry_of_down {nh : String × String} {L : List String}
    (h : L.foldlM (bfdStateDown nh) s = some s')
    (hhold : r ∈ L → (s.config.getD r []).get? "bfd_nh_hold" = some "true")
    (hL : ∀ x ∈ L, applKey x = applKey r → x = r) :
    s'.applRoute.get? (applKey r) = s.applRoute.get? (applKey r) := by
  have hinv := foldlM_invariant
    (P := fun t => t.config = s.config ∧
      t.applRoute.get? (applKey r) = s.applRoute.get? (applKey r))
    (fun t x t' hx ht ht' => ?_) h ⟨rfl, rfl⟩
  · exact hinv.2
  · rcases bfdStateDown_cases ht' with ⟨_, rfl⟩ | ⟨hnot, hw⟩
    · exact ht
    · have hk : applKey r ≠ applKey x := by
        intro hk
        obtain rfl := hL x hx hk.symm
        rw [ht.1] at hnot
        exact hnot (hhold hx)
      obtain ⟨a, rfl, ha⟩ := withdraw_frame hw
      exact ⟨ht.1, (ha _ hk).trans ht.2⟩

theorem HoldInv.step {e : Event} (hi : HoldInv env r entry s) (hc : Continues env r s e)
    (hok : HoldOk env r s e) (h : Step env s e s') : HoldInv env r entry s' := by
  have hindex := hi.index.step hok.1 h
  obtain ⟨order, horder, h⟩ := h
  cases e with
  | interfaceSet key =>
    obtain ⟨i, b, p, a, hf⟩ := interfaceSet_frame env s key
    have hs' := Option.some.inj h
    rw [hf] at hs'
    subst hs'
    exact ⟨hindex, hi.enabled, hi.entry⟩
  | interfaceDel key =>
    obtain ⟨i, hf⟩ := interfaceDel_frame env s key
    have hs' := Option.some.inj h
    rw [hf] at hs'
    subst hs'
    exact ⟨hindex, hi.enabled, hi.entry⟩
  | staticRouteSet key data => exact hi.set hc hok h
  | staticRouteDel key =>
    rw [← Option.some.inj h]
    exact hi.del hc hok
  | bfdStateSet key data =>
    obtain ⟨vrf, intf, peerIp, hk, ⟨_, rfl⟩ | ⟨hrec, s₁, rfl, hcase⟩⟩ := bfdSet_cases h
    · exact hi
    have htouch : ∀ x ∈ order (s.nexthop.getD (nhKey (vrf, peerIp)) []),
        applKey x = applKey r → x = r := by
      intro x hx
      exact hok.2.1 x (by simpa [touched, hk] using horder.mem.1 hx)
    have hmine : r ∈ order (s.nexthop.getD (nhKey (vrf, peerIp)) []) →
        (vrf, peerIp) ∈ storedPairs (s.config.getD r []) := by
      intro hr
      exact ((hi.index.mem_iff (vrf, peerIp) r).1 (horder.mem.1 hr)).2
    rcases hcase with ⟨hup, h⟩ | ⟨_, hdown, h⟩ | ⟨_, _, rfl⟩
    · have hrep := foldlM_up_republished env h
      refine ⟨hindex, (hrep.routes r).enabled.trans hi.enabled, ?_⟩
      rw [entry_of_loop (fun _ _ _ => bfdStateUp_applRoute) (fun x hx hkx => ?_) h]
      · exact hi.entry
      · obtain rfl := htouch x hx hkx
        exact hc (vrf, intf, peerIp) hk (hmine hx) hup
    · have hentry := entry_of_down h
        (fun hr => hok.2.2 (vrf, intf, peerIp) hk (hmine hr) hrec hdown) htouch
      obtain ⟨t, a, rfl, _⟩ := foldlM_down h
      exact ⟨hindex, hi.enabled, hentry.trans hi.entry⟩
    · exact ⟨hindex, hi.enabled, hi.entry⟩
  | bfdStateDel key =>
    obtain ⟨⟨vrf, intf, peerIp⟩, hk, h⟩ := Option.bind_eq_some_iff.1 h
    have hentry := entry_of_loop (r := r) (fun _ _ _ => withdraw_applRoute) (fun x hx hkx => by
      have hx := horder.mem.1 hx
      obtain rfl := hok.2.1 x (by simpa [touched, hk] using hx) hkx
      exact hok.2.2 (vrf, intf, peerIp) hk ((hi.index.mem_iff (vrf, peerIp) x).1 hx).2) h
    obtain ⟨t, a, rfl, _⟩ := foldlM_del h
    exact ⟨hindex, hi.enabled, hentry.trans hi.entry⟩

end Steps

/-! ## Runs -/

/-- A route of a reachable state is turned from bfd off to bfd on and lists nothing that is
    UP: in every state of every continuation that meets `Continues` and `HoldOk`, APPL_DB
    holds the entry with all next hops that the toggle published. -/
theorem held_of_run (env : Env) {es₀ es : List Event} {s₀ s₁ s : State} {key : String}
    {data : Data} {u : Update} (hrun₀ : Run (Step env) (NamesOk env) init es₀ s₀)
    (hu : acceptedUpdate env s₀ key data = some u) (hoff : curBfdDisabled env s₀ u.route)
    (hnames : NamesOk env s₀ (.staticRouteSet key data)) (hquiet : NothingUp env s₀ u)
    (hstep : Step env s₀ (.staticRouteSet key data) s₁)
    (hrun : Run (Step env)
      (fun t e => Continues env u.route t e ∧ HoldOk env u.route t e) s₁ es s) :
    s.applRoute.get? (applKey u.route) = some (toggleEntry env data) := by
  have hi₀ : IndexInv env s₀ :=
    hrun₀.invariant (fun _ _ _ hi hok h => hi.step hok h) (indexInv_init env)
  have hi₁ : HoldInv env u.route (toggleEntry env data) s₁ := by
    have hindex := hi₀.step hnames hstep
    obtain ⟨order, _, h⟩ := hstep
    have h : staticRouteSetHandler env s₀ key data = some s₁ := h
    rw [set_accepted hu, show beforeUpdate env s₀ u.route data = _ from if_pos hoff] at h
    obtain ⟨h1, h2, h3, h4⟩ := acceptedUpdate_spec hu
    have hspec := applRoute_of_nothingUp
      (s := { s₀ with applRoute := s₀.applRoute.set (applKey u.route) (toggleEntry env data) })
      ⟨h1, h2, h3, h4⟩ (hnames u hu) hquiet h
    refine ⟨hindex, ?_, ?_⟩
    · rw [hspec.2]
      exact h3
    · rw [hspec.1]
      exact Dict.get?_set_self _ _ _
  exact (hrun.invariant (fun _ _ _ hi hok h => hi.step hok.1 hok.2 h) hi₁).entry

/-- The fields of a route with one next hop. -/
def oneNexthop (bfd : String) : Data :=
  [("nexthop", "10.0.0.1"), ("ifname", "Ethernet0"), ("bfd", bfd)]

/-- A route is stored with bfd off, on an interface that has an address. -/
def storedOff : List Event :=
  [.interfaceSet "Ethernet0|10.0.0.0/31", .staticRouteSet "1.1.1.0/24" (oneNexthop "false")]

theorem held_after_down_report :
    ∃ s₀ s₁ s, Run (Step ipv4Env) (NamesOk ipv4Env) init storedOff s₀ ∧
      Step ipv4Env s₀ (.staticRouteSet "1.1.1.0/24" (oneNexthop "true")) s₁ ∧
      Step ipv4Env s₁ (.bfdStateSet "default|default|10.0.0.1" [("state", "Down")]) s ∧
      s.applRoute.get? (applKey "default|1.1.1.0/24") =
        some (toggleEntry ipv4Env (oneNexthop "true")) := by
  -- the three states, and every condition of the theorem, from one evaluation
  have hend : ∃ s₀, Run (Step ipv4Env) (NamesOk ipv4Env) init storedOff s₀ ∧
      NamesOk ipv4Env s₀ (.staticRouteSet "1.1.1.0/24" (oneNexthop "true")) ∧
      ∃ u ∈ acceptedUpdate ipv4Env s₀ "1.1.1.0/24" (oneNexthop "true"),
        u.route = "default|1.1.1.0/24" ∧ curBfdDisabled ipv4Env s₀ u.route ∧
        NothingUp ipv4Env s₀ u ∧
        ∃ s₁ ∈ handle ipv4Env id s₀ (.staticRouteSet "1.1.1.0/24" (oneNexthop "true")),
          Continues ipv4Env u.route s₁
            (.bfdStateSet "default|default|10.0.0.1" [("state", "Down")]) ∧
          HoldOk ipv4Env u.route s₁
            (.bfdStateSet "default|default|10.0.0.1" [("state", "Down")]) ∧
          ∃ s ∈ handle ipv4Env id s₁
            (.bfdStateSet "default|default|10.0.0.1" [("state", "Down")]), True :=
    exists_run step_of_handle (by decide +kernel)
  obtain ⟨s₀, hrun₀, hnames, u, hu, hr, hoff, hquiet, s₁, h₁, hc, hok, s, h, _⟩ := hend
  have hs₁ := step_of_handle _ _ _ h₁
  have hs := step_of_handle _ _ _ h
  refine ⟨s₀, s₁, s, hrun₀, hs₁, hs, ?_⟩
  rw [← hr]
  exact held_of_run ipv4Env hrun₀ hu hoff hnames hquiet hs₁
    (Run.cons ⟨hc, hok⟩ hs (Run.nil s))

/-- Nothing has come up since the toggle, and the route is withdrawn: by a DOWN report after a
    second SET of the same fields, and by the deletion of the session. -/
theorem withdrawn_in_hold :
    (∃ s, Run (Step ipv4Env) (fun _ _ => True) init
        (storedOff ++ [.staticRouteSet "1.1.1.0/24" (oneNexthop "true"),
          .staticRouteSet "1.1.1.0/24" (oneNexthop "true"),
          .bfdStateSet "default|default|10.0.0.1" [("state", "Down")]]) s ∧
      bfdEnabled ipv4Env (s.config.getD "default|1.1.1.0/24" []) = true ∧
      s.applRoute.get? (applKey "default|1.1.1.0/24") = none) ∧
    (∃ s, Run (Step ipv4Env) (fun _ _ => True) init
        (storedOff ++ [.staticRouteSet "1.1.1.0/24" (oneNexthop "true"),
          .bfdStateDel "default|default|10.0.0.1"]) s ∧
      bfdEnabled ipv4Env (s.config.getD "default|1.1.1.0/24" []) = true ∧
      s.applRoute.get? (applKey "default|1.1.1.0/24") = none) :=
  ⟨exists_run step_of_handle (by decide +kernel), exists_run step_of_handle (by decide +kernel)⟩

end SonicBuildimage.StaticRouteBfd
