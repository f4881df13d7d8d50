/-
  The commands of `StaticRouteMgr` keep FRR in step with the cache of the manager.

  Static route lines. The commands of an update are the difference of two sets of
  `IpNextHop` objects, but FRR stores texts, and two objects may have one text
  (`PortChannel0001` as an address, or as the interface of a zero address). If one of them
  goes and the other stays, the line of the one that stays is deleted
  (`line_lost_by_update`). `set_refines_iff`: this is the only way a SET leaves FRR behind
  the cache; `lines_of_run`: in every run without it, FRR holds the lines of the cache.

  Redistribution. Each VRF has its own flags, but the route-map is shared, and the last
  route of one VRF takes it away from the others (`route_map_lost`). `redistributed_of_run`:
  in every run in which the last route of a VRF is deleted only while no other VRF has
  routes, every VRF with routes has the flags of both families and the route-map.

  Not proved: anything about the routes that FRR computes from its lines.
-/
import SonicBuildimage.Bgpcfgd.StaticRt
import SonicBuildimage.Lib.ImageDiff

namespace SonicBuildimage.Bgpcfgd

open SonicBuildimage.Lib

variable {env : RtEnv} {dbName : String}

/-! ## What the handlers do -/

theorem routes_setRoute (s : RtState) (vrf p v : String) (entry : List IpNextHop × String) :
    (s.setRoute vrf p entry).routes v =
      if vrf = v then Dict.set (s.routes vrf) p entry else s.routes v :=
  Dict.getD_set _ _ _ _ _

theorem routes_popRoute (s : RtState) (vrf p v : String) :
    (s.popRoute vrf p).routes v =
      if vrf = v then Dict.erase (s.routes vrf) p else s.routes v :=
  Dict.getD_set _ _ _ _ _

/-- The entry of one route. -/
def RtState.entry (s : RtState) (vrf p : String) : Option (List IpNextHop × String) :=
  Dict.get? (s.routes vrf) p

theorem entry_setRoute (s : RtState) (vrf p v q : String) (entry : List IpNextHop × String) :
    (s.setRoute vrf p entry).entry v q =
      if vrf = v ∧ p = q then some entry else s.entry v q := by
  unfold RtState.entry
  rw [routes_setRoute]
  by_cases hv : vrf = v
  · subst hv
    rw [if_pos rfl, Dict.get?_set]
    simp
  · simp [hv]

theorem entry_popRoute (s : RtState) (vrf p v q : String) :
    (s.popRoute vrf p).entry v q = if vrf = v ∧ p = q then none else s.entry v q := by
  unfold RtState.entry
  rw [routes_popRoute]
  by_cases hv : vrf = v
  · subst hv
    rw [if_pos rfl, Dict.get?_erase]
    simp
  · simp [hv]

theorem skipApplDel_eq (dbName : String) (cfg : String → String → Option String) (s : RtState)
    (vrf p : String) :
    skipApplDel dbName cfg s vrf p = (s.popRoute vrf p, true) ∨
      skipApplDel dbName cfg s vrf p = (s, false) := by
  unfold skipApplDel
  dsimp only
  repeat' split
  all_goals simp

/-- What an accepted SET pushes after its route commands, and who waits for the AS number. -/
inductive FirstRoute (s : RtState) (vrf : String) : List Cmd → List String → Prop
  | more (h : s.routes vrf ≠ []) : FirstRoute s vrf [] s.vrfPendingRedistribution
  | enable (asn : String) (h : s.routes vrf = []) (hasn : s.bgpAsn = some asn) :
      FirstRoute s vrf (enableRedistributionCommand asn vrf) s.vrfPendingRedistribution
  | wait (h : s.routes vrf = []) (hasn : s.bgpAsn = none) :
      FirstRoute s vrf [] (setAdd s.vrfPendingRedistribution vrf)

/-- A SET leaves a route with bfd to the other daemon, is rejected, or is accepted. -/
theorem rtSetHandler_cases {order : List IpNextHop → List IpNextHop} {s s' : RtState}
    {key : String} {data : Dict String String} {cmds : List Cmd} {r : Bool}
    (h : rtSetHandler env order s key data = some (s', cmds, r)) :
    ∃ vrf p, splitKey env key = some (vrf, p) ∧
      ((rtBfdEnabled env data = true ∧ cmds = [] ∧ (s' = s ∨ s' = s.popRoute vrf p)) ∨
        (rtBfdEnabled env data = false ∧ (∃ e, nextHopsOf env p data = .error e) ∧
          cmds = [] ∧ s' = s) ∨
        (rtBfdEnabled env data = false ∧ ∃ nhs redist pending,
          nextHopsOf env p data = .ok nhs ∧ FirstRoute s vrf redist pending ∧
          cmds = staticRouteCommands env order nhs
            (Dict.getD (s.routes vrf) p ([], routeTag data)).1 p vrf (routeTag data)
            (Dict.getD (s.routes vrf) p ([], routeTag data)).2 ++ redist ∧
          s' = { s with vrfPendingRedistribution := pending }.setRoute vrf p
            (nhs, routeTag data))) := by
  unfold rtSetHandler at h
  obtain ⟨⟨vrf, p⟩, hkey, h⟩ := Option.bind_eq_some_iff.1 h
  refine ⟨vrf, p, hkey, ?_⟩
  dsimp only at h
  split at h
  · next hbfd =>
    obtain ⟨rfl, rfl, -⟩ : _ ∧ _ ∧ _ := by simpa using h
    refine Or.inl ⟨hbfd, rfl, ?_⟩
    split
    · exact Or.inl rfl
    · exact Or.inr rfl
  · next hbfd =>
    have hbfd : rtBfdEnabled env data = false := by simpa using hbfd
    refine Or.inr ?_
    split at h
    · next e he =>
      obtain ⟨rfl, rfl, -⟩ : _ ∧ _ ∧ _ := by simpa using h
      exact Or.inl ⟨hbfd, ⟨e, he⟩, rfl, rfl⟩
    · next nhs hnhs =>
      refine Or.inr ⟨hbfd, ?_⟩
      by_cases hfirst : s.routes vrf = []
      · cases hasn : s.bgpAsn with
        | some asn =>
          rw [if_pos hfirst, hasn] at h
          obtain ⟨rfl, rfl, -⟩ : _ ∧ _ ∧ _ := by simpa using h
          exact ⟨nhs, _, _, hnhs, .enable asn hfirst hasn, rfl, by rw [← hasn]⟩
        | none =>
          rw [if_pos hfirst, hasn] at h
          obtain ⟨rfl, rfl, -⟩ : _ ∧ _ ∧ _ := by simpa using h
          exact ⟨nhs, _, _, hnhs, .wait hfirst hasn, by simp, rfl⟩
      · rw [if_neg hfirst] at h
        obtain ⟨rfl, rfl, -⟩ : _ ∧ _ ∧ _ := by simpa using h
        exact ⟨nhs, _, _, hnhs, .more hfirst, by simp, rfl⟩

/-- What a DEL pushes after its route commands, and who waits for the AS number. -/
inductive LastRoute (s : RtState) (vrf p : String) : List Cmd → List String → Prop
  | more (h : ¬ isLastRoute s vrf p) : LastRoute s vrf p [] s.vrfPendingRedistribution
  | disable (asn : String) (h : isLastRoute s vrf p) (hasn : s.bgpAsn = some asn) :
      LastRoute s vrf p (disableRedistributionCommand asn vrf)
        (setDiscard s.vrfPendingRedistribution vrf)
  | unknown (h : isLastRoute s vrf p) (hasn : s.bgpAsn = none) :
      LastRoute s vrf p [] (setDiscard s.vrfPendingRedistribution vrf)

/-- A DEL only forgets the route, or also deletes its lines. -/
theorem rtDelHandler_cases {order : List IpNextHop → List IpNextHop} {s s' : RtState}
    {key : String} {cfg : String → String → Option String} {cmds : List Cmd}
    (h : rtDelHandler env dbName order s key cfg = some (s', cmds)) :
    ∃ vrf p, splitKey env key = some (vrf, p) ∧
      (((skipApplDel dbName cfg s vrf p).2 = true ∧ cmds = [] ∧ s' = s.popRoute vrf p) ∨
        ((skipApplDel dbName cfg s vrf p).2 = false ∧ ∃ redist pending,
          LastRoute s vrf p redist pending ∧
          cmds = staticRouteCommands env order []
            (Dict.getD (s.routes vrf) p ([], routeAdvertiseDisableTag)).1 p vrf
            (Dict.getD (s.routes vrf) p ([], routeAdvertiseDisableTag)).2
            (Dict.getD (s.routes vrf) p ([], routeAdvertiseDisableTag)).2 ++ redist ∧
          s' = { s with vrfPendingRedistribution := pending }.popRoute vrf p)) := by
  unfold rtDelHandler at h
  obtain ⟨⟨vrf, p⟩, hkey, h⟩ := Option.bind_eq_some_iff.1 h
  refine ⟨vrf, p, hkey, ?_⟩
  dsimp only at h
  rcases skipApplDel_eq dbName cfg s vrf p with hskip | hskip
  · rw [hskip] at h ⊢
    obtain ⟨rfl, rfl⟩ : _ ∧ _ := by simpa using h
    exact Or.inl ⟨rfl, rfl, rfl⟩
  · rw [hskip] at h ⊢
    refine Or.inr ⟨rfl, ?_⟩
    by_cases hlast : isLastRoute s vrf p
    · cases hasn : s.bgpAsn with
      | some asn =>
        simp only [hlast, hasn, if_true] at h
        obtain ⟨rfl, rfl⟩ : _ ∧ _ := by simpa using h
        exact ⟨_, _, .disable asn hlast hasn, rfl, by rw [← hasn]⟩
      | none =>
        simp only [hlast, hasn, if_true] at h
        obtain ⟨rfl, rfl⟩ : _ ∧ _ := by simpa using h
        exact ⟨_, _, .unknown hlast hasn, by simp, by rw [← hasn]⟩
    · simp only [hlast, if_false] at h
      obtain ⟨rfl, rfl⟩ : _ ∧ _ := by simpa using h
      exact ⟨_, _, .more hlast, by simp, rfl⟩

/-! ## Static route lines -/

/-- Where FRR stores a line: its VRF and its text. -/
def RouteLine.key (l : RouteLine) : String × String := (l.vrf, l.text)

/-- The lines of FRR as a set. -/
def Frr.lineSet (f : Frr) : Set (String × String) := {x | x ∈ f.lines}

theorem lineSet_foldl_no (ls : List RouteLine) (f : Frr) :
    ((ls.map (Cmd.route true)).foldl Frr.apply f).lineSet =
      f.lineSet \ RouteLine.key '' {l | l ∈ ls} := by
  induction ls generalizing f with
  | nil => simp
  | cons l ls ih =>
    rw [List.map_cons, List.foldl_cons, ih]
    ext x
    have hdel : x ∈ (f.apply (.route true l)).lineSet ↔ x ∈ f.lineSet ∧ x ≠ l.key :=
      mem_setDiscard _ _ _
    simp only [Set.mem_sdiff, hdel, Set.mem_image, Set.mem_ofPred_eq, List.mem_cons,
      exists_eq_or_imp, not_or]
    rw [ne_comm]
    tauto

theorem lineSet_foldl_add (ls : List RouteLine) (f : Frr) :
    ((ls.map (Cmd.route false)).foldl Frr.apply f).lineSet =
      f.lineSet ∪ RouteLine.key '' {l | l ∈ ls} := by
  induction ls generalizing f with
  | nil => simp
  | cons l ls ih =>
    rw [List.map_cons, List.foldl_cons, ih]
    ext x
    have hadd : x ∈ (f.apply (.route false l)).lineSet ↔ x ∈ f.lineSet ∨ x = l.key :=
      mem_setAdd _ _ _
    simp only [Set.mem_union, hadd, Set.mem_image, Set.mem_ofPred_eq, List.mem_cons,
      exists_eq_or_imp]
    rw [eq_comm]
    tauto

/-- Deletions, then additions, of the lines of one route. -/
theorem lineSet_foldl_routes (dels adds : List IpNextHop) (del add : IpNextHop → RouteLine)
    (f : Frr) :
    ((dels.map (fun nh => Cmd.route true (del nh)) ++
        adds.map fun nh => Cmd.route false (add nh)).foldl Frr.apply f).lineSet =
      patch f.lineSet ((fun nh => (del nh).key) '' {nh | nh ∈ dels})
        ((fun nh => (add nh).key) '' {nh | nh ∈ adds}) := by
  have himage : ∀ (g : IpNextHop → RouteLine) (nhs : List IpNextHop),
      RouteLine.key '' {l | l ∈ nhs.map g} = (fun nh => (g nh).key) '' {nh | nh ∈ nhs} := by
    intro g nhs
    ext x
    simp
  have hno := lineSet_foldl_no (dels.map del) f
  have hadd := lineSet_foldl_add (adds.map add)
    ((dels.map fun nh => Cmd.route true (del nh)).foldl Frr.apply f)
  rw [List.map_map, himage] at hno hadd
  rw [List.foldl_append]
  exact hadd.trans (congrArg (· ∪ _) hno)

/-- Commands that are not about static routes leave the lines alone. -/
theorem lines_foldl_of_not_route {cmds : List Cmd} (h : ∀ c ∈ cmds, ∀ no l, c ≠ .route no l)
    (f : Frr) : (cmds.foldl Frr.apply f).lines = f.lines := by
  induction cmds generalizing f with
  | nil => rfl
  | cons c cmds ih =>
    rw [List.foldl_cons, ih fun c' hc' => h c' (List.mem_cons_of_mem _ hc')]
    cases c with
    | route no l => exact absurd rfl (h _ List.mem_cons_self no l)
    | redistribute no =>
      simp only [Frr.apply]
      split <;> rfl
    | _ => rfl

theorem not_route_of_mem_enable {asn vrf : String} :
    ∀ c ∈ enableRedistributionCommand asn vrf, ∀ no l, c ≠ .route no l := by
  simp [enableRedistributionCommand, redistributeCommands]

theorem not_route_of_mem_disable {asn vrf : String} :
    ∀ c ∈ disableRedistributionCommand asn vrf, ∀ no l, c ≠ .route no l := by
  simp [disableRedistributionCommand, redistributeCommands]

/-- The key of the line of a next hop. -/
def lineKey (env : RtEnv) (p vrf tag : String) (nh : IpNextHop) : String × String :=
  (lineOf env p vrf tag nh).key

/-- With the tag unchanged the commands of an update patch FRR by the difference of the next
    hops. -/
theorem lineSet_commands_same {order : List IpNextHop → List IpNextHop} (ho : IterOrder order)
    (N C : List IpNextHop) (p vrf tag : String) (f : Frr) :
    ((staticRouteCommands env order N C p vrf tag tag).foldl Frr.apply f).lineSet =
      patch f.lineSet (lineKey env p vrf tag '' ({nh | nh ∈ C} \ {nh | nh ∈ N}))
        (lineKey env p vrf tag '' ({nh | nh ∈ N} \ {nh | nh ∈ C})) := by
  unfold staticRouteCommands
  rw [if_neg (not_not.2 rfl)]
  refine (lineSet_foldl_routes _ _ _ _ f).trans ?_
  have hdel : {nh | nh ∈ (order (N.filter (· ∉ C) ++ C.filter (· ∉ N))).filter (· ∈ C)} =
      {nh | nh ∈ C} \ {nh | nh ∈ N} := by
    ext nh
    simp only [Set.mem_ofPred_eq, List.mem_filter, ho.mem, List.mem_append, decide_eq_true_eq,
      Set.mem_sdiff]
    tauto
  have hadd : {nh | nh ∈ (order (N.filter (· ∉ C) ++ C.filter (· ∉ N))).filter (· ∉ C)} =
      {nh | nh ∈ N} \ {nh | nh ∈ C} := by
    ext nh
    simp only [Set.mem_ofPred_eq, List.mem_filter, ho.mem, List.mem_append, decide_eq_true_eq,
      Set.mem_sdiff]
    tauto
  rw [hdel, hadd]
  rfl

/-- With another tag all lines are deleted and written again. -/
theorem lineSet_commands_retag {order : List IpNextHop → List IpNextHop} (ho : IterOrder order)
    (N C : List IpNextHop) (p vrf : String) {tag curTag : String} (ht : tag ≠ curTag) (f : Frr) :
    ((staticRouteCommands env order N C p vrf tag curTag).foldl Frr.apply f).lineSet =
      patch f.lineSet (lineKey env p vrf curTag '' {nh | nh ∈ C})
        (lineKey env p vrf tag '' {nh | nh ∈ N}) := by
  unfold staticRouteCommands
  rw [if_pos ht]
  refine (lineSet_foldl_routes _ _ _ _ f).trans ?_
  simp only [ho.mem]
  rfl

/-! ## Lines of different routes -/

theorem append_blank {a b : List Char} (ha : a = [] ∨ ∃ r, a = ' ' :: r)
    (hb : ∃ r, b = ' ' :: r) : ∃ r, a ++ b = ' ' :: r := by
  obtain ⟨rb, rfl⟩ := hb
  rcases ha with rfl | ⟨ra, rfl⟩
  · exact ⟨rb, rfl⟩
  · exact ⟨ra ++ ' ' :: rb, rfl⟩

/-- A next hop is printed as nothing or with a leading blank. -/
theorem format_blank (env : RtEnv) (nh : IpNextHop) :
    (nh.format env).toList = [] ∨ ∃ r, (nh.format env).toList = ' ' :: r := by
  have hpart : ∀ (c : Prop) [Decidable c] (t : String), (∃ r, t.toList = ' ' :: r) →
      (if c then "" else t).toList = [] ∨ ∃ r, (if c then "" else t).toList = ' ' :: r := by
    intro c _ t ht
    split
    · exact Or.inl rfl
    · exact Or.inr ht
  have happ : ∀ a b : String, (a.toList = [] ∨ ∃ r, a.toList = ' ' :: r) →
      (b.toList = [] ∨ ∃ r, b.toList = ' ' :: r) →
      (a ++ b).toList = [] ∨ ∃ r, (a ++ b).toList = ' ' :: r := by
    intro a b ha hb
    rw [String.toList_append]
    rcases hb with hb | hb
    · rw [hb, List.append_nil]
      exact ha
    · exact Or.inr (append_blank ha hb)
  unfold IpNextHop.format
  refine happ _ _ (happ _ _ (happ _ _ (happ _ _ ?_ (hpart _ _ ?_)) (hpart _ _ ?_))
    (hpart _ _ ?_)) (hpart _ _ ?_)
  · split
    · exact Or.inr ⟨"blackhole".toList, by decide⟩
    · exact Or.inl rfl
  all_goals exact ⟨_, by rw [String.toList_append]; rfl⟩

/-- After the prefix of a line comes a blank. -/
theorem lineOf_text_toList (env : RtEnv) (p vrf tag : String) (nh : IpNextHop) :
    ∃ r, (lineOf env p vrf tag nh).text.toList =
      (if nh.af then "ipv6" else "ip").toList ++
        ' ' :: ("route".toList ++ ' ' :: (p.toList ++ ' ' :: r)) := by
  have htag : ∃ r, (" tag " ++ tag).toList = ' ' :: r :=
    ⟨_, by rw [String.toList_append]; rfl⟩
  have hvrf : (if vrf ≠ "default" then " vrf " ++ vrf else "").toList = [] ∨
      ∃ r, (if vrf ≠ "default" then " vrf " ++ vrf else "").toList = ' ' :: r := by
    split
    · exact Or.inr ⟨_, by rw [String.toList_append]; rfl⟩
    · exact Or.inl rfl
  obtain ⟨r, hr⟩ := append_blank (format_blank env nh) (append_blank hvrf htag)
  have hroute : " route ".toList = ' ' :: ("route".toList ++ [' ']) := by decide
  refine ⟨r, ?_⟩
  rw [← hr]
  simp only [lineOf, RouteLine.text, String.toList_append, hroute, List.append_assoc,
    List.cons_append, List.nil_append]
  rfl

/-- Prefixes without blanks are told apart by the lines. -/
theorem lineKey_inj {p q vrf v tag t : String} {nh nh' : IpNextHop} (hp : ' ' ∉ p.toList)
    (hq : ' ' ∉ q.toList) (h : lineKey env p vrf tag nh = lineKey env q v t nh') :
    vrf = v ∧ p = q := by
  obtain ⟨hv, htext⟩ := Prod.mk.inj h
  refine ⟨hv, ?_⟩
  obtain ⟨r, hr⟩ := lineOf_text_toList env p vrf tag nh
  obtain ⟨r', hr'⟩ := lineOf_text_toList env q v t nh'
  have hword : ∀ af : Bool, ' ' ∉ (if af then "ipv6" else "ip").toList := by decide
  have heq := congrArg String.toList htext
  rw [hr, hr'] at heq
  obtain ⟨-, heq⟩ := append_cons_inj (hword _) (hword _) heq
  obtain ⟨-, heq⟩ := append_cons_inj (by decide) (by decide) heq
  exact String.toList_inj.1 (append_cons_inj hp hq heq).1

/-! ## The lines of the cache -/

/-- The lines rendered from the cache. -/
def renderedSet (env : RtEnv) (s : RtState) : Set (String × String) :=
  {x | ∃ vrf p nhs tag, s.entry vrf p = some (nhs, tag) ∧
    ∃ nh ∈ nhs, x = lineKey env p vrf tag nh}

/-- The lines of the routes other than one. -/
def othersSet (env : RtEnv) (s : RtState) (vrf p : String) : Set (String × String) :=
  {x | ∃ v q nhs tag, ¬ (vrf = v ∧ p = q) ∧ s.entry v q = some (nhs, tag) ∧
    ∃ nh ∈ nhs, x = lineKey env q v tag nh}

theorem renderedSet_of_entry {s : RtState} {vrf p : String} {nhs : List IpNextHop} {tag : String}
    (h : s.entry vrf p = some (nhs, tag)) :
    renderedSet env s = othersSet env s vrf p ∪ lineKey env p vrf tag '' {nh | nh ∈ nhs} := by
  ext x
  constructor
  · rintro ⟨v, q, nhs', tag', he, nh, hnh, rfl⟩
    by_cases hvq : vrf = v ∧ p = q
    · obtain ⟨rfl, rfl⟩ := hvq
      obtain ⟨rfl, rfl⟩ := Prod.mk.inj (Option.some.inj (h.symm.trans he))
      exact Or.inr ⟨nh, hnh, rfl⟩
    · exact Or.inl ⟨v, q, nhs', tag', hvq, he, nh, hnh, rfl⟩
  · rintro (⟨v, q, nhs', tag', -, he, nh, hnh, rfl⟩ | ⟨nh, hnh, rfl⟩)
    · exact ⟨v, q, nhs', tag', he, nh, hnh, rfl⟩
    · exact ⟨vrf, p, nhs, tag, h, nh, hnh, rfl⟩

theorem renderedSet_of_no_entry {s : RtState} {vrf p : String} (h : s.entry vrf p = none) :
    renderedSet env s = othersSet env s vrf p := by
  ext x
  constructor
  · rintro ⟨v, q, nhs, tag, he, hnh⟩
    refine ⟨v, q, nhs, tag, ?_, he, hnh⟩
    rintro ⟨rfl, rfl⟩
    rw [h] at he
    exact Option.some_ne_none _ he.symm
  · rintro ⟨v, q, nhs, tag, -, he, hnh⟩
    exact ⟨v, q, nhs, tag, he, hnh⟩

/-- The lines of the cache around one route, as the handlers look it up. -/
theorem renderedSet_split (s : RtState) (vrf p dflt : String) :
    renderedSet env s = othersSet env s vrf p ∪
      lineKey env p vrf (Dict.getD (s.routes vrf) p ([], dflt)).2 ''
        {nh | nh ∈ (Dict.getD (s.routes vrf) p ([], dflt)).1} := by
  cases h : s.entry vrf p with
  | none =>
    have hcur : Dict.getD (s.routes vrf) p ([], dflt) = ([], dflt) := by
      unfold RtState.entry at h
      rw [Dict.getD, h]
      rfl
    rw [renderedSet_of_no_entry h, hcur]
    simp
  | some e =>
    have hcur : Dict.getD (s.routes vrf) p ([], dflt) = e := by
      unfold RtState.entry at h
      rw [Dict.getD, h]
      rfl
    obtain ⟨nhs, tag⟩ := e
    rw [renderedSet_of_entry h, hcur]

theorem othersSet_congr {s s' : RtState} {vrf p : String}
    (h : ∀ v q, ¬ (vrf = v ∧ p = q) → s'.entry v q = s.entry v q) :
    othersSet env s' vrf p = othersSet env s vrf p := by
  ext x
  constructor
  · rintro ⟨v, q, nhs, tag, hvq, he, hnh⟩
    exact ⟨v, q, nhs, tag, hvq, h v q hvq ▸ he, hnh⟩
  · rintro ⟨v, q, nhs, tag, hvq, he, hnh⟩
    exact ⟨v, q, nhs, tag, hvq, (h v q hvq).trans he, hnh⟩

theorem renderedSet_setRoute (s : RtState) (vrf p : String) (nhs : List IpNextHop)
    (tag : String) :
    renderedSet env (s.setRoute vrf p (nhs, tag)) =
      othersSet env s vrf p ∪ lineKey env p vrf tag '' {nh | nh ∈ nhs} := by
  have hentry : (s.setRoute vrf p (nhs, tag)).entry vrf p = some (nhs, tag) := by
    rw [entry_setRoute, if_pos ⟨rfl, rfl⟩]
  have hothers : othersSet env (s.setRoute vrf p (nhs, tag)) vrf p = othersSet env s vrf p :=
    othersSet_congr fun v q hvq => by rw [entry_setRoute, if_neg hvq]
  rw [renderedSet_of_entry hentry, hothers]

theorem renderedSet_popRoute (s : RtState) (vrf p : String) :
    renderedSet env (s.popRoute vrf p) = othersSet env s vrf p := by
  have hentry : (s.popRoute vrf p).entry vrf p = none := by
    rw [entry_popRoute, if_pos ⟨rfl, rfl⟩]
  have hothers : othersSet env (s.popRoute vrf p) vrf p = othersSet env s vrf p :=
    othersSet_congr fun v q hvq => by rw [entry_popRoute, if_neg hvq]
  rw [renderedSet_of_no_entry hentry, hothers]

/-! ## One message -/

/-- FRR holds the lines of the cache, and the cached prefixes are plain. -/
structure Refines (env : RtEnv) (sys : RtSys) : Prop where
  lines : sys.frr.lineSet = renderedSet env sys.mgr
  plain : ∀ vrf p, sys.mgr.entry vrf p ≠ none → ' ' ∉ p.toList

/-- A line of a next hop that goes and of one that stays is also the line of a new one. -/
def DiffOk (env : RtEnv) (p vrf tag : String) (C N : List IpNextHop) : Prop :=
  ∀ a ∈ C, a ∈ N → ∀ b ∈ C, b ∉ N →
    (lineOf env p vrf tag a).text = (lineOf env p vrf tag b).text →
    ∃ c ∈ N, c ∉ C ∧ (lineOf env p vrf tag c).text = (lineOf env p vrf tag a).text

instance (env : RtEnv) (p vrf tag : String) (C N : List IpNextHop) :
    Decidable (DiffOk env p vrf tag C N) :=
  inferInstanceAs (Decidable (∀ a ∈ C, a ∈ N → ∀ b ∈ C, b ∉ N → _ → ∃ c ∈ N, _))

theorem separates_iff_diffOk {p vrf tag : String} {C N : List IpNextHop} :
    Separates (lineKey env p vrf tag) {nh | nh ∈ C} {nh | nh ∈ N} ↔ DiffOk env p vrf tag C N := by
  have hkey : ∀ a b, lineKey env p vrf tag a = lineKey env p vrf tag b ↔
      (lineOf env p vrf tag a).text = (lineOf env p vrf tag b).text :=
    fun a b => ⟨fun h => (Prod.mk.inj h).2, fun h => Prod.ext rfl h⟩
  constructor
  · intro h a haC haN b hbC hbN hab
    obtain ⟨c, ⟨hcN, hcC⟩, hca⟩ := h a ⟨haC, haN⟩ b ⟨hbC, hbN⟩ ((hkey a b).2 hab)
    exact ⟨c, hcN, hcC, (hkey c a).1 hca⟩
  · rintro h a ⟨haC, haN⟩ b ⟨hbC, hbN⟩ hab
    obtain ⟨c, hcN, hcC, hca⟩ := h a haC haN b hbC hbN ((hkey a b).1 hab)
    exact ⟨c, ⟨hcN, hcC⟩, (hkey c a).2 hca⟩

/-- No line of another route is a line of a plain prefix. -/
theorem Refines.apart {sys : RtSys} (hinv : Refines env sys) {vrf p : String}
    (hp : ' ' ∉ p.toList) (tag : String) :
    ∀ x ∈ othersSet env sys.mgr vrf p, ∀ nh, lineKey env p vrf tag nh ≠ x := by
  rintro x ⟨v, q, nhs, t, hvq, he, nh', -, rfl⟩ nh h
  exact hvq (lineKey_inj hp (hinv.plain v q (by rw [he]; simp)) h)

/-- Exactly when the commands of an accepted SET write the lines of the new next hops. -/
theorem set_refines_iff {order : List IpNextHop → List IpNextHop} (ho : IterOrder order)
    {sys : RtSys} (hinv : Refines env sys) {vrf p : String} (hp : ' ' ∉ p.toList)
    (N : List IpNextHop) (tag : String) :
    ((staticRouteCommands env order N (Dict.getD (sys.mgr.routes vrf) p ([], tag)).1 p vrf tag
        (Dict.getD (sys.mgr.routes vrf) p ([], tag)).2).foldl Frr.apply sys.frr).lineSet =
      renderedSet env (sys.mgr.setRoute vrf p (N, tag)) ↔
    (tag = (Dict.getD (sys.mgr.routes vrf) p ([], tag)).2 →
      DiffOk env p vrf tag (Dict.getD (sys.mgr.routes vrf) p ([], tag)).1 N) := by
  have hlines := hinv.lines.trans (renderedSet_split sys.mgr vrf p tag)
  rw [renderedSet_setRoute]
  generalize Dict.getD (sys.mgr.routes vrf) p ([], tag) = cur at hlines ⊢
  obtain ⟨C, curTag⟩ := cur
  dsimp only at hlines ⊢
  by_cases ht : tag = curTag
  · subst ht
    rw [lineSet_commands_same ho, hlines,
      patch_image_iff fun x hx a _ => hinv.apart hp tag x hx a, separates_iff_diffOk]
    exact ⟨fun h _ => h, fun h => h rfl⟩
  · rw [lineSet_commands_retag ho _ _ _ _ ht, hlines, patch_replace]
    · exact ⟨fun _ h => absurd h ht, fun _ => rfl⟩
    · rintro x hx ⟨nh, -, hnh⟩
      exact hinv.apart hp curTag x hx nh hnh

/-- The commands of a DEL take the lines of the route away. -/
theorem del_refines {order : List IpNextHop → List IpNextHop} (ho : IterOrder order)
    {sys : RtSys} (hinv : Refines env sys) (vrf p dflt : String) :
    ((staticRouteCommands env order [] (Dict.getD (sys.mgr.routes vrf) p ([], dflt)).1 p vrf
        (Dict.getD (sys.mgr.routes vrf) p ([], dflt)).2
        (Dict.getD (sys.mgr.routes vrf) p ([], dflt)).2).foldl Frr.apply sys.frr).lineSet =
      renderedSet env (sys.mgr.popRoute vrf p) := by
  have hlines := hinv.lines.trans (renderedSet_split sys.mgr vrf p dflt)
  have hplain : (Dict.getD (sys.mgr.routes vrf) p ([], dflt)).1 ≠ [] → ' ' ∉ p.toList := by
    refine fun h => hinv.plain vrf p fun he => h ?_
    unfold RtState.entry at he
    rw [Dict.getD, he]
    rfl
  rw [renderedSet_popRoute, lineSet_commands_same ho, hlines]
  generalize Dict.getD (sys.mgr.routes vrf) p ([], dflt) = cur at hplain ⊢
  have hiff := patch_image_iff (f := lineKey env p vrf cur.2) (C := {nh | nh ∈ cur.1})
    (N := {nh | nh ∈ ([] : List IpNextHop)}) (O := othersSet env sys.mgr vrf p) ?_
  · refine (hiff.2 ?_).trans (by simp)
    rintro a ⟨-, ha⟩
    exact absurd ha List.not_mem_nil
  · rintro x hx a (ha | ha)
    · exact hinv.apart (hplain (List.ne_nil_of_mem ha)) cur.2 x hx a
    · exact absurd ha List.not_mem_nil

/-! ## Runs: static route lines -/

/-- Messages about routes without bfd whose prefix has no blank: a SET that keeps the tag takes
    no line away that a next hop that stays needs, and a DEL is not left to the manager of
    CONFIG_DB. -/
def LinesOk (env : RtEnv) (dbName : String) (sys : RtSys) : RtEvent → Prop
  | .set key data =>
    ∀ q ∈ splitKey env key, rtBfdEnabled env data = false ∧ ' ' ∉ q.2.toList ∧
      ∀ nhs ∈ (nextHopsOf env q.2 data).toOption,
        routeTag data = (Dict.getD (sys.mgr.routes q.1) q.2 ([], routeTag data)).2 →
        DiffOk env q.2 q.1 (routeTag data)
          (Dict.getD (sys.mgr.routes q.1) q.2 ([], routeTag data)).1 nhs
  | .del key cfg =>
    ∀ q ∈ splitKey env key, (skipApplDel dbName cfg sys.mgr q.1 q.2).2 = false
  | .bgpAsn _ => True

instance (env : RtEnv) (dbName : String) (sys : RtSys) (e : RtEvent) :
    Decidable (LinesOk env dbName sys e) :=
  match e with
  | .set _ _ => inferInstanceAs (Decidable (∀ q ∈ _, _ ∧ _ ∧ ∀ nhs ∈ _, _ → _))
  | .del _ _ => inferInstanceAs (Decidable (∀ q ∈ _, _))
  | .bgpAsn _ => inferInstanceAs (Decidable True)

theorem lineSet_firstRoute {s : RtState} {vrf : String} {redist : List Cmd}
    {pending : List String} (h : FirstRoute s vrf redist pending) (f : Frr) :
    (redist.foldl Frr.apply f).lineSet = f.lineSet := by
  unfold Frr.lineSet
  cases h with
  | more _ => rfl
  | enable asn _ _ => rw [lines_foldl_of_not_route not_route_of_mem_enable]
  | wait _ _ => rfl

theorem lineSet_lastRoute {s : RtState} {vrf p : String} {redist : List Cmd}
    {pending : List String} (h : LastRoute s vrf p redist pending) (f : Frr) :
    (redist.foldl Frr.apply f).lineSet = f.lineSet := by
  unfold Frr.lineSet
  cases h with
  | more _ => rfl
  | disable asn _ _ => rw [lines_foldl_of_not_route not_route_of_mem_disable]
  | unknown _ _ => rfl

theorem Refines.set {order : RtOrder} {sys sys' : RtSys} {key : String}
    {data : Dict String String} (hinv : Refines env sys)
    (hok : LinesOk env dbName sys (.set key data))
    (h : rtHandle env dbName order sys (.set key data) = some sys') : Refines env sys' := by
  obtain ⟨⟨s', cmds, r⟩, hset, h⟩ := Option.bind_eq_some_iff.1 h
  obtain rfl := Option.some.inj h
  obtain ⟨vrf, p, hkey, hcases⟩ := rtSetHandler_cases hset
  obtain ⟨hbfd, hp, hdiff⟩ := hok (vrf, p) hkey
  rcases hcases with ⟨hbfd', -⟩ | ⟨-, -, rfl, rfl⟩ |
    ⟨-, nhs, redist, pending, hnhs, hfirst, rfl, rfl⟩
  · rw [hbfd] at hbfd'
    exact absurd hbfd' (by simp)
  · exact hinv
  · constructor
    · dsimp only
      rw [List.foldl_append, lineSet_firstRoute hfirst]
      exact (set_refines_iff order.nexthops_iter hinv hp nhs (routeTag data)).2
        (hdiff nhs (by rw [hnhs]; rfl))
    · intro v q hq
      dsimp only at hq
      rw [entry_setRoute] at hq
      split at hq
      · next hvq =>
        exact hvq.2 ▸ hp
      · exact hinv.plain v q hq

theorem Refines.del {order : RtOrder} {sys sys' : RtSys} {key : String}
    {cfg : String → String → Option String} (hinv : Refines env sys)
    (hok : LinesOk env dbName sys (.del key cfg))
    (h : rtHandle env dbName order sys (.del key cfg) = some sys') : Refines env sys' := by
  obtain ⟨⟨s', cmds⟩, hdel, h⟩ := Option.bind_eq_some_iff.1 h
  obtain rfl := Option.some.inj h
  obtain ⟨vrf, p, hkey, hcases⟩ := rtDelHandler_cases hdel
  have hkept : (skipApplDel dbName cfg sys.mgr vrf p).2 = false := hok (vrf, p) hkey
  rcases hcases with ⟨hskip, -⟩ | ⟨-, redist, pending, hlast, rfl, rfl⟩
  · rw [hkept] at hskip
    exact absurd hskip (by simp)
  · constructor
    · dsimp only
      rw [List.foldl_append, lineSet_lastRoute hlast]
      exact del_refines order.nexthops_iter hinv vrf p _
    · intro v q hq
      dsimp only at hq
      rw [entry_popRoute] at hq
      split at hq
      · exact absurd rfl hq
      · exact hinv.plain v q hq

theorem Refines.bgpAsn {order : RtOrder} {sys sys' : RtSys} {asn : String}
    (hinv : Refines env sys) (h : rtHandle env dbName order sys (.bgpAsn asn) = some sys') :
    Refines env sys' := by
  obtain rfl := Option.some.inj h
  refine ⟨?_, hinv.plain⟩
  have hlines : (((order.vrfs sys.mgr.vrfPendingRedistribution).flatMap
      (enableRedistributionCommand asn)).foldl Frr.apply sys.frr).lines = sys.frr.lines := by
    refine lines_foldl_of_not_route (fun c hc => ?_) _
    obtain ⟨vrf, -, hc⟩ := List.mem_flatMap.1 hc
    exact not_route_of_mem_enable c hc
  exact (congrArg (fun l => {x | x ∈ l}) hlines).trans hinv.lines

theorem Refines.step {sys sys' : RtSys} {e : RtEvent} (hinv : Refines env sys)
    (hok : LinesOk env dbName sys e) (h : RtStep env dbName sys e sys') : Refines env sys' := by
  obtain ⟨order, h⟩ := h
  cases e with
  | set key data => exact hinv.set hok h
  | del key cfg => exact hinv.del hok h
  | bgpAsn asn => exact hinv.bgpAsn h

theorem Refines.init (asn : Option String) : Refines env ⟨{ bgpAsn := asn }, {}⟩ := by
  refine ⟨?_, fun vrf p h => absurd rfl h⟩
  ext x
  constructor
  · intro h
    exact absurd h List.not_mem_nil
  · rintro ⟨vrf, p, nhs, tag, he, -⟩
    exact absurd he (by simp [RtState.entry, RtState.routes])

/-- In every run whose messages meet `LinesOk`, the static route lines of each VRF in FRR are
    the lines rendered from the cache. -/
theorem lines_of_run {asn : Option String} {es : List RtEvent} {sys : RtSys}
    (hrun : Run (RtStep env dbName) (LinesOk env dbName) ⟨{ bgpAsn := asn }, {}⟩ es sys)
    (vrf text : String) :
    (vrf, text) ∈ sys.frr.lines ↔
      ∃ p nhs tag, Dict.get? (sys.mgr.routes vrf) p = some (nhs, tag) ∧
        ∃ nh ∈ nhs, text = (lineOf env p vrf tag nh).text := by
  have hinv : Refines env sys :=
    hrun.invariant (fun _ _ _ hs hok h => Refines.step hs hok h) (Refines.init asn)
  have hmem : (vrf, text) ∈ sys.frr.lineSet ↔ (vrf, text) ∈ renderedSet env sys.mgr := by
    rw [hinv.lines]
  refine hmem.trans ⟨?_, ?_⟩
  · rintro ⟨v, p, nhs, tag, he, nh, hnh, hx⟩
    obtain ⟨rfl, rfl⟩ := Prod.mk.inj hx
    exact ⟨p, nhs, tag, he, nh, hnh, rfl⟩
  · rintro ⟨p, nhs, tag, he, nh, hnh, rfl⟩
    exact ⟨vrf, p, nhs, tag, he, nh, hnh, rfl⟩

theorem lines_after_update :
    ∃ sys, Run (RtStep ipv4RtEnv "CONFIG_DB") (LinesOk ipv4RtEnv "CONFIG_DB") {}
        [.set "10.1.0.0/24" [("nexthop", "10.0.0.1,10.0.0.2")],
          .set "10.1.0.0/24" [("nexthop", "10.0.0.2,10.0.0.3")],
          .set "10.1.0.0/24" [("nexthop", "10.0.0.2"), ("advertise", "false")]] sys ∧
      ∃ p nhs tag, Dict.get? (sys.mgr.routes "default") p = some (nhs, tag) ∧
        ∃ nh ∈ nhs, "ip route 10.1.0.0/24 10.0.0.2 tag 2" =
          (lineOf ipv4RtEnv p "default" tag nh).text := by
  refine exists_run_imp (fun _ _ _ h => ⟨storedOrder, h⟩)
    (fun sys => ("default", "ip route 10.1.0.0/24 10.0.0.2 tag 2") ∈ sys.frr.lines)
    (by decide +kernel) ?_
  intro sys hrun hline
  exact (lines_of_run hrun "default" _).1 hline

/-- One port channel is listed as an address and as an interface; dropping the first spelling
    deletes the line of the second. -/
theorem line_lost_by_update :
    ∃ sys, Run (RtStep ipv4RtEnv "CONFIG_DB") (fun _ _ => True) {}
        [.set "10.1.0.0/24" [("nexthop", "PortChannel0001,0.0.0.0"),
            ("ifname", ",PortChannel0001")],
          .set "10.1.0.0/24" [("nexthop", "0.0.0.0"), ("ifname", "PortChannel0001")]] sys ∧
      ∃ entry ∈ Dict.get? (sys.mgr.routes "default") "10.1.0.0/24", ∃ nh ∈ entry.1,
        (lineOf ipv4RtEnv "10.1.0.0/24" "default" entry.2 nh).text =
            "ip route 10.1.0.0/24 PortChannel0001 tag 1" ∧
          ("default", "ip route 10.1.0.0/24 PortChannel0001 tag 1") ∉ sys.frr.lines :=
  exists_run (fun _ _ _ h => ⟨storedOrder, h⟩) (by decide +kernel)

/-! ## Redistribution -/

/-- A VRF redistributes its static routes through the route-map. -/
def Frr.Enabled (f : Frr) (vrf : String) : Prop :=
  (∀ af, (vrf, af) ∈ f.redistributed) ∧ f.routeMap = true

/-- Static route commands do not touch redistribution. -/
theorem enabled_foldl_routes {cmds : List Cmd} (h : ∀ c ∈ cmds, ∃ no l, c = .route no l)
    (f : Frr) (vrf : String) : (cmds.foldl Frr.apply f).Enabled vrf ↔ f.Enabled vrf := by
  induction cmds generalizing f with
  | nil => rfl
  | cons c cmds ih =>
    obtain ⟨no, l, rfl⟩ := h c List.mem_cons_self
    rw [List.foldl_cons, ih fun c' hc' => h c' (List.mem_cons_of_mem _ hc')]
    rfl

theorem staticRouteCommands_routes (order : List IpNextHop → List IpNextHop)
    (N C : List IpNextHop) (p vrf tag curTag : String) :
    ∀ c ∈ staticRouteCommands env order N C p vrf tag curTag, ∃ no l, c = .route no l := by
  have hmap : ∀ (no : Bool) (t : String) (nhs : List IpNextHop),
      ∀ c ∈ nhs.map (fun nh => Cmd.route no (lineOf env p vrf t nh)), ∃ no l, c = .route no l := by
    intro no t nhs c hc
    obtain ⟨nh, -, rfl⟩ := List.mem_map.1 hc
    exact ⟨no, _, rfl⟩
  intro c hc
  unfold staticRouteCommands at hc
  split at hc
  all_goals
    rcases List.mem_append.1 hc with hc | hc
    · exact hmap _ _ _ c hc
    · exact hmap _ _ _ c hc

/-- Enabling a VRF enables it and no command of it disables another one. -/
theorem enabled_enable (asn vrf v : String) (f : Frr) (h : v = vrf ∨ f.Enabled v) :
    ((enableRedistributionCommand asn vrf).foldl Frr.apply f).Enabled v := by
  have hflags : ((enableRedistributionCommand asn vrf).foldl Frr.apply f).redistributed =
      setAdd (setAdd f.redistributed (vrf, false)) (vrf, true) := rfl
  refine ⟨fun af => ?_, rfl⟩
  rw [hflags, mem_setAdd, mem_setAdd]
  rcases h with rfl | h
  · cases af with
    | false => exact Or.inl (Or.inr rfl)
    | true => exact Or.inr rfl
  · exact Or.inl (Or.inl (h.1 af))

/-- Every VRF with cached routes is enabled, and the AS number is known. -/
structure RedistInv (sys : RtSys) : Prop where
  asn : sys.mgr.bgpAsn ≠ none
  enabled : ∀ vrf, sys.mgr.routes vrf ≠ [] → sys.frr.Enabled vrf

/-- The last route of a VRF is deleted only while no other VRF has routes. -/
def RedistOk (env : RtEnv) (dbName : String) (sys : RtSys) : RtEvent → Prop
  | .del key cfg =>
    ∀ q ∈ splitKey env key, (skipApplDel dbName cfg sys.mgr q.1 q.2).2 = false →
      isLastRoute sys.mgr q.1 q.2 → ∀ e ∈ sys.mgr.staticRoutes, e.1 ≠ q.1 → e.2 = []
  | .set _ _ | .bgpAsn _ => True

instance (env : RtEnv) (dbName : String) (sys : RtSys) (e : RtEvent) :
    Decidable (RedistOk env dbName sys e) :=
  match e with
  | .del _ _ => inferInstanceAs (Decidable (∀ q ∈ _, _ → _ → ∀ e ∈ _, _ → _))
  | .set _ _ | .bgpAsn _ => inferInstanceAs (Decidable True)

theorem popRoute_routes_ne_nil {s : RtState} {vrf p v : String}
    (h : (s.popRoute vrf p).routes v ≠ []) : s.routes v ≠ [] := by
  rw [routes_popRoute] at h
  split at h
  · next hv =>
    subst hv
    intro hnil
    rw [hnil] at h
    exact h rfl
  · exact h

/-- Without its last route a VRF has no route. -/
theorem popRoute_of_isLastRoute {s : RtState} {vrf p : String} (h : isLastRoute s vrf p) :
    (s.popRoute vrf p).routes vrf = [] := by
  rw [routes_popRoute, if_pos rfl, Dict.erase, List.filter_eq_nil_iff]
  intro e he
  have hk : e.1 = p := h.2 e.1 (List.mem_map_of_mem he)
  simpa using hk

theorem routes_eq_nil {s : RtState} {vrf : String}
    (h : ∀ e ∈ s.staticRoutes, e.1 = vrf → e.2 = []) : s.routes vrf = [] := by
  unfold RtState.routes Dict.getD
  cases hg : Dict.get? s.staticRoutes vrf with
  | none => rfl
  | some d => exact h (vrf, d) (Dict.mem_of_get? hg) rfl

theorem RedistInv.set {order : RtOrder} {sys sys' : RtSys} {key : String}
    {data : Dict String String} (hinv : RedistInv sys)
    (h : rtHandle env dbName order sys (.set key data) = some sys') : RedistInv sys' := by
  obtain ⟨⟨s', cmds, r⟩, hset, h⟩ := Option.bind_eq_some_iff.1 h
  obtain rfl := Option.some.inj h
  obtain ⟨vrf, p, -, hcases⟩ := rtSetHandler_cases hset
  rcases hcases with ⟨-, rfl, rfl | rfl⟩ | ⟨-, -, rfl, rfl⟩ |
    ⟨-, nhs, redist, pending, -, hfirst, rfl, rfl⟩
  · exact hinv
  · exact ⟨hinv.asn, fun v hv => hinv.enabled v (popRoute_routes_ne_nil hv)⟩
  · exact hinv
  · refine ⟨hinv.asn, fun v hv => ?_⟩
    dsimp only at hv ⊢
    -- the routes of the other VRFs are those from before
    have hold : v = vrf ∨ sys.mgr.routes v ≠ [] := by
      rw [routes_setRoute] at hv
      split at hv
      · next hvrf =>
        exact Or.inl hvrf.symm
      · exact Or.inr hv
    have hkeep : ∀ w, sys.frr.Enabled w →
        ((staticRouteCommands env order.nexthops nhs
          (Dict.getD (sys.mgr.routes vrf) p ([], routeTag data)).1 p vrf (routeTag data)
          (Dict.getD (sys.mgr.routes vrf) p ([], routeTag data)).2).foldl Frr.apply
            sys.frr).Enabled w :=
      fun w => (enabled_foldl_routes (staticRouteCommands_routes _ _ _ _ _ _ _) _ w).2
    rw [List.foldl_append]
    cases hfirst with
    | more hmore =>
      rcases hold with rfl | hold
      · exact hkeep v (hinv.enabled v hmore)
      · exact hkeep v (hinv.enabled v hold)
    | enable asn _ _ =>
      exact enabled_enable asn vrf v _ (hold.imp_right fun hv => hkeep v (hinv.enabled v hv))
    | wait _ hasn => exact absurd hasn hinv.asn

theorem RedistInv.del {order : RtOrder} {sys sys' : RtSys} {key : String}
    {cfg : String → String → Option String} (hinv : RedistInv sys)
    (hok : RedistOk env dbName sys (.del key cfg))
    (h : rtHandle env dbName order sys (.del key cfg) = some sys') : RedistInv sys' := by
  obtain ⟨⟨s', cmds⟩, hdel, h⟩ := Option.bind_eq_some_iff.1 h
  obtain rfl := Option.some.inj h
  obtain ⟨vrf, p, hkey, hcases⟩ := rtDelHandler_cases hdel
  rcases hcases with ⟨-, rfl, rfl⟩ | ⟨hskip, redist, pending, hlast, rfl, rfl⟩
  · exact ⟨hinv.asn, fun v hv => hinv.enabled v (popRoute_routes_ne_nil hv)⟩
  · refine ⟨hinv.asn, fun v hv => ?_⟩
    dsimp only at hv ⊢
    have hold : sys.mgr.routes v ≠ [] := popRoute_routes_ne_nil hv
    rw [List.foldl_append]
    cases hlast with
    | more _ =>
      exact (enabled_foldl_routes (staticRouteCommands_routes _ _ _ _ _ _ _) _ v).2
        (hinv.enabled v hold)
    | disable asn hl _ =>
      -- neither this VRF nor, by the side condition, another one has routes now
      by_cases hvrf : v = vrf
      · subst hvrf
        exact absurd (popRoute_of_isLastRoute hl) hv
      · refine absurd (routes_eq_nil fun e he hev => ?_) hold
        exact hok (vrf, p) hkey hskip hl e he (hev ▸ hvrf)
    | unknown _ hasn => exact absurd hasn hinv.asn

theorem RedistInv.bgpAsn {order : RtOrder} {sys sys' : RtSys} {asn : String}
    (hinv : RedistInv sys) (h : rtHandle env dbName order sys (.bgpAsn asn) = some sys') :
    RedistInv sys' := by
  obtain rfl := Option.some.inj h
  refine ⟨by simp, fun v hv => ?_⟩
  have hloop : ∀ (vrfs : List String) (f : Frr), f.Enabled v →
      ((vrfs.flatMap (enableRedistributionCommand asn)).foldl Frr.apply f).Enabled v := by
    intro vrfs
    induction vrfs with
    | nil => exact fun f hf => hf
    | cons vrf vrfs ih =>
      intro f hf
      rw [List.flatMap_cons, List.foldl_append]
      exact ih _ (enabled_enable asn vrf v f (Or.inr hf))
  exact hloop _ _ (hinv.enabled v hv)

theorem RedistInv.step {sys sys' : RtSys} {e : RtEvent} (hinv : RedistInv sys)
    (hok : RedistOk env dbName sys e) (h : RtStep env dbName sys e sys') : RedistInv sys' := by
  obtain ⟨order, h⟩ := h
  cases e with
  | set key data => exact hinv.set h
  | del key cfg => exact hinv.del hok h
  | bgpAsn asn => exact hinv.bgpAsn h

/-- With the AS number known, in every run in which the last route of a VRF is deleted only
    while no other VRF has routes, each VRF with cached routes redistributes static routes in
    both families, and the route-map exists. -/
theorem redistributed_of_run {asn : String} {es : List RtEvent} {sys : RtSys}
    (hrun : Run (RtStep env dbName) (RedistOk env dbName) ⟨{ bgpAsn := some asn }, {}⟩ es sys)
    {vrf : String} (hvrf : sys.mgr.routes vrf ≠ []) :
    (∀ af, (vrf, af) ∈ sys.frr.redistributed) ∧ sys.frr.routeMap = true := by
  have hinit : RedistInv ⟨{ bgpAsn := some asn }, {}⟩ :=
    ⟨Option.some_ne_none _, fun v hv => absurd rfl hv⟩
  exact (hrun.invariant (fun _ _ _ hs hok h => RedistInv.step hs hok h) hinit).enabled vrf hvrf

theorem redistributed_two_vrfs :
    ∃ sys, Run (RtStep ipv4RtEnv "CONFIG_DB") (RedistOk ipv4RtEnv "CONFIG_DB")
        ⟨{ bgpAsn := some "65100" }, {}⟩
        [.set "Vrf1|10.1.0.0/24" [("nexthop", "10.0.0.1")],
          .set "Vrf1|10.3.0.0/24" [("nexthop", "10.0.0.1")],
          .set "Vrf2|10.2.0.0/24" [("nexthop", "10.0.0.2")],
          .del "Vrf1|10.1.0.0/24" fun _ _ => none] sys ∧
      (∀ af, ("Vrf1", af) ∈ sys.frr.redistributed) ∧ sys.frr.routeMap = true := by
  refine exists_run_imp (fun _ _ _ h => ⟨storedOrder, h⟩)
    (fun sys => sys.mgr.routes "Vrf1" ≠ []) (by decide +kernel) ?_
  intro sys hrun hvrf
  exact redistributed_of_run hrun hvrf

/-- The last route of `Vrf1` takes the route-map of `Vrf2` away. -/
theorem route_map_lost :
    ∃ sys, Run (RtStep ipv4RtEnv "CONFIG_DB") (fun _ _ => True)
        ⟨{ bgpAsn := some "65100" }, {}⟩
        [.set "Vrf1|10.1.0.0/24" [("nexthop", "10.0.0.1")],
          .set "Vrf2|10.2.0.0/24" [("nexthop", "10.0.0.2")],
          .del "Vrf1|10.1.0.0/24" fun _ _ => none] sys ∧
      sys.mgr.routes "Vrf2" ≠ [] ∧ ("Vrf2", false) ∈ sys.frr.redistributed ∧
      sys.frr.routeMap = false :=
  exists_run (fun _ _ _ h => ⟨storedOrder, h⟩) (by decide +kernel)

end SonicBuildimage.Bgpcfgd
