/-
  What the loops of the `staticroutebfd` handlers do to the tables, entry by entry.

  `releaseNexthop` and `removeDeletedNexthop` take one route out of the entries of some
  next hops; the session of a next hop goes exactly when no other route is left in the
  entry (`Orphaned`), and that does not depend on the order of the loop. `addNexthop`
  puts the route into the entries and keeps the state of every session. The handlers are
  inverted once here (`set_cases`); the invariants use these lemmas and never unfold a
  loop.
-/
import SonicBuildimage.StaticRouteBfd.Model

namespace SonicBuildimage.StaticRouteBfd

open SonicBuildimage.Lib

/-! ## Stored routes -/

theorem bfdEnabled_nil (env : Env) : bfdEnabled env [] = false := by
  simp [bfdEnabled, bfdField, isFieldTrue, env.lower_false]

theorem curBfdEnabled_iff (env : Env) (s : State) (r : String) :
    curBfdEnabled env s r ↔ bfdEnabled env (s.config.getD r []) := by
  unfold curBfdEnabled
  constructor
  · exact fun h => h.2
  · intro h
    refine ⟨fun hnil => ?_, h⟩
    rw [hnil, bfdEnabled_nil] at h
    exact absurd h (by simp)

/-- Only the `bfd` field decides whether bfd is enabled. -/
theorem bfdEnabled_set_ne (env : Env) (data : Data) {f : String} (v : String) (h : f ≠ "bfd") :
    bfdEnabled env (data.set f v) = bfdEnabled env data := by
  unfold bfdEnabled bfdField
  rw [Dict.get?_set_ne _ _ h]

theorem bfdEnabled_set_false (env : Env) (data : Data) :
    bfdEnabled env (data.set "bfd" "false") = false := by
  have h : argList "false" = some ["false"] := by decide
  simp [bfdEnabled, bfdField, h, isFieldTrue, env.lower_false]

theorem fieldList_set_ne (data : Data) {f g : String} (v : String) (h : f ≠ g) :
    fieldList (data.set f v) g = fieldList data g := by
  unfold fieldList
  rw [Dict.get?_set_ne _ _ h]

/-- The next hops of a stored route: its three lists, index by index. -/
def storedNexthops (data : Data) : List Nexthop :=
  match fieldList data "nexthop-vrf", fieldList data "ifname", fieldList data "nexthop" with
  | some nhVrfList, some intfList, some nhList => zipNexthops nhVrfList intfList nhList
  | _, _, _ => []

/-! ## Releasing next hops -/

/-- No route other than `r` uses the next hop. -/
def Orphaned (s : State) (r : String) (nh : String × String) : Prop :=
  ∀ x ∈ s.nexthop.getD (nhKey nh) [], x = r

theorem setDiscard_eq_nil_iff (l : List String) (r : String) :
    setDiscard l r = [] ↔ ∀ x ∈ l, x = r := by
  simp [setDiscard, List.filter_eq_nil_iff]

theorem releaseNexthop_nexthop (r : String) (s : State) (nh : String × String) :
    (releaseNexthop r s nh).nexthop = s.nexthop.removeMember (nhKey nh) r := by
  unfold releaseNexthop removeFromNhTableEntry
  dsimp only
  split <;> rfl

/-- The test of `releaseNexthop` for an empty entry. -/
theorem releaseNexthop_eq (r : String) (s : State) (nh : String × String) :
    releaseNexthop r s nh =
      { s with
        nexthop := s.nexthop.removeMember (nhKey nh) r
        bfd := if setDiscard (s.nexthop.getD (nhKey nh) []) r = [] then s.bfd.erase (bfdKey nh)
          else s.bfd
        applBfd := if setDiscard (s.nexthop.getD (nhKey nh) []) r = [] then
          s.applBfd.erase (bfdKey nh) else s.applBfd } := by
  unfold releaseNexthop removeFromNhTableEntry
  dsimp only
  rw [Dict.getD_removeMember, if_pos rfl]
  split <;> rfl

theorem mem_releaseNexthop (r : String) (s : State) (nh : String × String) (k x : String) :
    x ∈ (releaseNexthop r s nh).nexthop.getD k [] ↔
      x ∈ s.nexthop.getD k [] ∧ ¬ (x = r ∧ k = nhKey nh) := by
  rw [releaseNexthop_nexthop, Dict.mem_getD_removeMember, and_comm (a := x = r), eq_comm (a := k)]

theorem mem_foldl_release (r : String) (L : List (String × String)) (s : State) (k x : String) :
    x ∈ (L.foldl (releaseNexthop r) s).nexthop.getD k [] ↔
      x ∈ s.nexthop.getD k [] ∧ ¬ (x = r ∧ k ∈ L.map nhKey) := by
  induction L generalizing s with
  | nil => simp
  | cons nh L ih =>
    rw [List.foldl_cons, ih, mem_releaseNexthop, List.map_cons, List.mem_cons]
    tauto

theorem orphaned_release (r : String) (s : State) (nh p : String × String) :
    Orphaned (releaseNexthop r s nh) r p ↔ Orphaned s r p := by
  unfold Orphaned
  constructor
  · intro h x hx
    by_contra hne
    exact hne (h x ((mem_releaseNexthop r s nh _ x).2 ⟨hx, fun hr => hne hr.1⟩))
  · intro h x hx
    exact h x ((mem_releaseNexthop r s nh _ x).1 hx).1

/-- The session of a next hop goes with its last route, in both tables. -/
theorem release_get?_of_orphaned {r : String} {s : State} {nh : String × String}
    (h : Orphaned s r nh) :
    (releaseNexthop r s nh).bfd = s.bfd.erase (bfdKey nh) ∧
      (releaseNexthop r s nh).applBfd = s.applBfd.erase (bfdKey nh) := by
  have hnil := (setDiscard_eq_nil_iff _ r).2 h
  rw [releaseNexthop_eq]
  simp only [hnil, if_true, and_self]

theorem release_get?_of_not_orphaned {r : String} {s : State} {nh : String × String}
    (h : ¬ Orphaned s r nh) :
    (releaseNexthop r s nh).bfd = s.bfd ∧ (releaseNexthop r s nh).applBfd = s.applBfd := by
  have hnil : ¬ setDiscard (s.nexthop.getD (nhKey nh) []) r = [] :=
    fun hd => h ((setDiscard_eq_nil_iff _ r).1 hd)
  rw [releaseNexthop_eq]
  simp only [hnil, if_false, and_self]

/-- A session that belongs to no orphaned next hop of the list is kept. -/
theorem foldl_release_kept {r : String} {L : List (String × String)} {s : State} {b : String}
    (h : ∀ nh ∈ L, Orphaned s r nh → bfdKey nh ≠ b) :
    (L.foldl (releaseNexthop r) s).bfd.get? b = s.bfd.get? b ∧
      (L.foldl (releaseNexthop r) s).applBfd.get? b = s.applBfd.get? b := by
  induction L generalizing s with
  | nil => exact ⟨rfl, rfl⟩
  | cons nh L ih =>
    have hrest := ih (s := releaseNexthop r s nh) fun p hp ho =>
      h p (List.mem_cons_of_mem _ hp) ((orphaned_release r s nh p).1 ho)
    rw [List.foldl_cons, hrest.1, hrest.2]
    by_cases ho : Orphaned s r nh
    · have hb := h nh List.mem_cons_self ho
      rw [(release_get?_of_orphaned ho).1, (release_get?_of_orphaned ho).2,
        Dict.get?_erase_ne _ hb, Dict.get?_erase_ne _ hb]
      exact ⟨rfl, rfl⟩
    · rw [(release_get?_of_not_orphaned ho).1, (release_get?_of_not_orphaned ho).2]
      exact ⟨rfl, rfl⟩

/-- The loop only takes sessions away. -/
theorem foldl_release_none {r : String} {L : List (String × String)} {s : State} {b : String} :
    (s.bfd.get? b = none → (L.foldl (releaseNexthop r) s).bfd.get? b = none) ∧
      (s.applBfd.get? b = none → (L.foldl (releaseNexthop r) s).applBfd.get? b = none) := by
  induction L generalizing s with
  | nil => exact ⟨id, id⟩
  | cons nh L ih =>
    have hone : (s.bfd.get? b = none → (releaseNexthop r s nh).bfd.get? b = none) ∧
        (s.applBfd.get? b = none → (releaseNexthop r s nh).applBfd.get? b = none) := by
      by_cases ho : Orphaned s r nh
      · rw [(release_get?_of_orphaned ho).1, (release_get?_of_orphaned ho).2,
          Dict.get?_erase, Dict.get?_erase]
        constructor <;> intro h <;> split <;> first | rfl | exact h
      · rw [(release_get?_of_not_orphaned ho).1, (release_get?_of_not_orphaned ho).2]
        exact ⟨id, id⟩
    exact ⟨fun h => ih.1 (hone.1 h), fun h => ih.2 (hone.2 h)⟩

/-- The session of an orphaned next hop of the list is gone. -/
theorem foldl_release_gone {r : String} {L : List (String × String)} {s : State}
    {nh : String × String} (hm : nh ∈ L) (ho : Orphaned s r nh) :
    (L.foldl (releaseNexthop r) s).bfd.get? (bfdKey nh) = none ∧
      (L.foldl (releaseNexthop r) s).applBfd.get? (bfdKey nh) = none := by
  induction L generalizing s with
  | nil => simp at hm
  | cons p L ih =>
    rw [List.foldl_cons]
    rcases List.mem_cons.1 hm with rfl | hm
    · have hg := release_get?_of_orphaned ho
      refine ⟨foldl_release_none.1 ?_, foldl_release_none.2 ?_⟩
      · rw [hg.1, Dict.get?_erase_self]
      · rw [hg.2, Dict.get?_erase_self]
    · exact ih hm ((orphaned_release r s p nh).2 ho)

/-- The loop touches the next hops and the sessions only. -/
theorem foldl_release_frame (r : String) (L : List (String × String)) (s : State) :
    ∃ n b a, L.foldl (releaseNexthop r) s = { s with nexthop := n, bfd := b, applBfd := a } := by
  induction L generalizing s with
  | nil => exact ⟨_, _, _, rfl⟩
  | cons nh L ih =>
    obtain ⟨n, b, a, h⟩ := ih (releaseNexthop r s nh)
    refine ⟨n, b, a, ?_⟩
    rw [List.foldl_cons, h, releaseNexthop_eq]

/-- The loop does not read the reachable next hops or APPL_DB. -/
theorem foldl_release_with (r : String) (L : List (String × String)) (s : State)
    (t : Dict String (List (String × String))) (u : Dict String Data) :
    L.foldl (releaseNexthop r) { s with srt := t, applRoute := u } =
      { L.foldl (releaseNexthop r) s with srt := t, applRoute := u } := by
  induction L generalizing s with
  | nil => rfl
  | cons nh L ih =>
    have hone : releaseNexthop r { s with srt := t, applRoute := u } nh =
        { releaseNexthop r s nh with srt := t, applRoute := u } := by
      rw [releaseNexthop_eq, releaseNexthop_eq]
    rw [List.foldl_cons, hone, ih, List.foldl_cons]

/-! ## Next hops dropped by an update -/

/-- The pairs of the stored next hops that an update does not list any more. -/
def dropped (exist new : List Nexthop) : List (String × String) :=
  (exist.filter fun nh => nh ∉ new).map Nexthop.pair

theorem mem_dropped {exist new : List Nexthop} {p : String × String} :
    p ∈ dropped exist new ↔ ∃ nh ∈ exist, nh ∉ new ∧ nh.pair = p := by
  simp [dropped, and_assoc]

/-- The loop over the stored next hops releases the dropped ones and takes them out of the
    reachable ones. -/
theorem foldl_removeDeletedNexthop (r : String) (new exist : List Nexthop) (s : State) :
    exist.foldl (removeDeletedNexthop r new) s =
      { (dropped exist new).foldl (releaseNexthop r) s with
        srt := (dropped exist new).foldl (fun t p => t.removeMember r p) s.srt } := by
  induction exist generalizing s with
  | nil => rfl
  | cons nh exist ih =>
    rw [List.foldl_cons, ih]
    by_cases h : nh ∈ new
    · have hd : dropped (nh :: exist) new = dropped exist new := by
        simp [dropped, h]
      have hs : removeDeletedNexthop r new s nh = s := by simp [removeDeletedNexthop, h]
      rw [hd, hs]
    · have hd : dropped (nh :: exist) new = nh.pair :: dropped exist new := by
        simp [dropped, h]
      have hs : removeDeletedNexthop r new s nh =
          { releaseNexthop r s nh.pair with srt := s.srt.removeMember r nh.pair } := by
        unfold removeDeletedNexthop removeFromSrtTableEntry
        rw [if_neg h, releaseNexthop_eq, releaseNexthop_eq]
      have hw := foldl_release_with r (dropped exist new) (releaseNexthop r s nh.pair)
        (s.srt.removeMember r nh.pair) (releaseNexthop r s nh.pair).applRoute
      rw [hd, hs, List.foldl_cons, List.foldl_cons, hw]
      obtain ⟨_, _, _, hf'⟩ :=
        foldl_release_frame r (dropped exist new) (releaseNexthop r s nh.pair)
      rw [hf']

theorem mem_foldl_removeMember (r : String) (L : List (String × String))
    (t : Dict String (List (String × String))) (x : String) (p : String × String) :
    p ∈ (L.foldl (fun t p => t.removeMember r p) t).getD x [] ↔
      p ∈ t.getD x [] ∧ ¬ (x = r ∧ p ∈ L) := by
  induction L generalizing t with
  | nil => simp
  | cons q L ih =>
    rw [List.foldl_cons, ih, Dict.mem_getD_removeMember, List.mem_cons, eq_comm (a := r)]
    tauto

/-! ## Adding next hops -/

section Add

variable (env : Env) (r : String)

/-- The four ways through one iteration of the loop over the listed next hops. -/
theorem addNexthop_cases (s : State) (nh : Nexthop) :
    (s.bfd.getD (bfdKey nh.pair) [] ≠ [] ∧ addNexthop env r s nh =
      { s with
        bfd := s.bfd.set (bfdKey nh.pair)
          ((s.bfd.getD (bfdKey nh.pair) []).set "static_route" "true")
        nexthop := s.nexthop.addMember (nhKey nh.pair) r }) ∨
    (s.bfd.getD (bfdKey nh.pair) [] = [] ∧ s.nexthop.getD (nhKey nh.pair) [] = [] ∧
      findInterfaceIp env s nh.ifname nh.ip = none ∧ addNexthop env r s nh =
      { s with
        bfdPending := s.bfdPending.set (nh.ifname ++ "_" ++ bfdKey nh.pair)
          (nh.ifname, nh.ip, bfdKey nh.pair)
        nexthop := s.nexthop.addMember (nhKey nh.pair) r }) ∨
    (∃ localAddr, s.bfd.getD (bfdKey nh.pair) [] = [] ∧
      s.nexthop.getD (nhKey nh.pair) [] = [] ∧ addNexthop env r s nh =
      { s with
        applBfd := s.applBfd.set (bfdKey nh.pair) (bfdEntryCfg localAddr)
        bfd := s.bfd.set (bfdKey nh.pair) ((bfdEntryCfg localAddr).set "static_route" "true")
        nexthop := s.nexthop.addMember (nhKey nh.pair) r }) ∨
    (s.bfd.getD (bfdKey nh.pair) [] = [] ∧ s.nexthop.getD (nhKey nh.pair) [] ≠ [] ∧
      addNexthop env r s nh = { s with nexthop := s.nexthop.addMember (nhKey nh.pair) r }) := by
  unfold addNexthop
  dsimp only
  by_cases hb : s.bfd.getD (bfdKey nh.pair) [] = []
  · rw [if_neg (not_not.2 hb)]
    by_cases hn : s.nexthop.getD (nhKey nh.pair) [] = []
    · rw [if_pos hn]
      cases hip : findInterfaceIp env s nh.ifname nh.ip with
      | none => exact Or.inr (Or.inl ⟨hb, hn, rfl, rfl⟩)
      | some localAddr => exact Or.inr (Or.inr (Or.inl ⟨localAddr, hb, hn, rfl⟩))
    · rw [if_neg hn]
      exact Or.inr (Or.inr (Or.inr ⟨hb, hn, rfl⟩))
  · rw [if_pos hb]
    exact Or.inl ⟨hb, rfl⟩

theorem addNexthop_nexthop (s : State) (nh : Nexthop) :
    (addNexthop env r s nh).nexthop = s.nexthop.addMember (nhKey nh.pair) r := by
  obtain ⟨_, h⟩ | ⟨_, _, _, h⟩ | ⟨_, _, _, h⟩ | ⟨_, _, h⟩ := addNexthop_cases env r s nh <;> rw [h]

theorem mem_foldl_addNexthop (new : List Nexthop) (s : State) (k x : String) :
    x ∈ (new.foldl (addNexthop env r) s).nexthop.getD k [] ↔
      x ∈ s.nexthop.getD k [] ∨ (x = r ∧ k ∈ new.map fun nh => nhKey nh.pair) := by
  induction new generalizing s with
  | nil => simp
  | cons nh new ih =>
    rw [List.foldl_cons, ih, addNexthop_nexthop, Dict.mem_getD_addMember, List.map_cons,
      List.mem_cons, eq_comm (a := nhKey nh.pair)]
    tauto

/-- A new session has no state yet. -/
theorem bfdEntryCfg_state (localAddr : String) :
    ((bfdEntryCfg localAddr).set "static_route" "true").get? "state" = none := by
  simp [bfdEntryCfg, bfdDefaultCfg, bfdMultihop, bfdRxInterval, bfdTxInterval, bfdMultiplier,
    Dict.get?_set, Dict.get?_cons]

/-- Listing a next hop changes the state of no session. -/
theorem addNexthop_state (s : State) (nh : Nexthop) (b : String) :
    ((addNexthop env r s nh).bfd.getD b []).get? "state" = (s.bfd.getD b []).get? "state" := by
  obtain ⟨_, h⟩ | ⟨_, _, _, h⟩ | ⟨addr, hb, _, h⟩ | ⟨_, _, h⟩ := addNexthop_cases env r s nh <;>
    rw [h]
  · dsimp only
    rw [Dict.getD_set]
    split
    · next hk =>
      rw [Dict.get?_set_ne _ _ (by decide), hk]
    · rfl
  · dsimp only
    rw [Dict.getD_set]
    split
    · next hk =>
      rw [← hk, hb, bfdEntryCfg_state]
      rfl
    · rfl

theorem foldl_addNexthop_state (new : List Nexthop) (s : State) (b : String) :
    ((new.foldl (addNexthop env r) s).bfd.getD b []).get? "state" =
      (s.bfd.getD b []).get? "state" := by
  induction new generalizing s with
  | nil => rfl
  | cons nh new ih => rw [List.foldl_cons, ih, addNexthop_state]

/-- The loop touches the next hops, the sessions and the pending sessions only. -/
theorem foldl_addNexthop_frame (new : List Nexthop) (s : State) :
    ∃ n b p a, new.foldl (addNexthop env r) s =
      { s with nexthop := n, bfd := b, bfdPending := p, applBfd := a } := by
  induction new generalizing s with
  | nil => exact ⟨_, _, _, _, rfl⟩
  | cons nh new ih =>
    obtain ⟨n, b, p, a, h⟩ := ih (addNexthop env r s nh)
    refine ⟨n, b, p, a, ?_⟩
    rw [List.foldl_cons, h]
    obtain ⟨_, h⟩ | ⟨_, _, _, h⟩ | ⟨_, _, _, h⟩ | ⟨_, _, h⟩ := addNexthop_cases env r s nh <;>
      rw [h]

end Add

/-! ## Publishing -/

theorem publish_eq {s s' : State} {r : String} (h : publish s r = some s') :
    ∃ e, reconstructStaticRouteConfig (s.config.getD r []) (s.srt.getD r []) = some e ∧
      s' = { s with applRoute := s.applRoute.set (applKey r) e } := by
  unfold publish at h
  cases he : reconstructStaticRouteConfig (s.config.getD r []) (s.srt.getD r []) with
  | none => simp [he] at h
  | some e =>
    refine ⟨e, rfl, ?_⟩
    simpa [he, setStaticRouteIntoApplDb] using h.symm

theorem withdrawOrPublish_cases {s s' : State} {r : String}
    (h : withdrawOrPublish s r = some s') :
    (s.srt.getD r [] = [] ∧ s' = { s with applRoute := s.applRoute.erase (applKey r) }) ∨
    (s.srt.getD r [] ≠ [] ∧ ∃ e,
      reconstructStaticRouteConfig (s.config.getD r []) (s.srt.getD r []) = some e ∧
      s' = { s with applRoute := s.applRoute.set (applKey r) e }) := by
  unfold withdrawOrPublish at h
  split at h
  · next hnil =>
    exact Or.inl ⟨hnil, (Option.some.inj h).symm⟩
  · next hne =>
    exact Or.inr ⟨hne, publish_eq h⟩

/-- The next hops of a route whose session is UP. -/
def upPairs (env : Env) (s : State) (pairs : List (String × String)) : List (String × String) :=
  pairs.filter fun nh => sessionUp env (s.bfd.getD (bfdKey nh) [])

theorem foldl_appendToSrt (r : String) (L : List (String × String)) (s : State) :
    L.foldl (fun s nh => appendToSrtTableEntry s r nh) s =
      { s with srt := L.foldl (fun t nh => t.addMember r nh) s.srt } := by
  induction L generalizing s with
  | nil => rfl
  | cons nh L ih => rw [List.foldl_cons, ih]; rfl

theorem mem_foldl_addMember (r : String) (L : List (String × String))
    (t : Dict String (List (String × String))) (x : String) (p : String × String) :
    p ∈ (L.foldl (fun t p => t.addMember r p) t).getD x [] ↔
      p ∈ t.getD x [] ∨ (x = r ∧ p ∈ L) := by
  induction L generalizing t with
  | nil => simp
  | cons q L ih =>
    rw [List.foldl_cons, ih, Dict.mem_getD_addMember, List.mem_cons, eq_comm (a := r)]
    tauto

/-- `refresh_active_nh` either finds nothing UP and changes nothing, or publishes. -/
theorem refreshActiveNh_cases {env : Env} {s s' : State} {r : String}
    (h : refreshActiveNh env s r = some s') :
    ∃ pairs, nexthopPairs (s.config.getD r []) = some pairs ∧
      ((upPairs env s pairs = [] ∧ s' = s) ∨
        (upPairs env s pairs ≠ [] ∧ ∃ e,
          reconstructStaticRouteConfig ((s.config.getD r []).set "bfd_nh_hold" "false")
            (((upPairs env s pairs).foldl (fun t p => t.addMember r p) s.srt).getD r []) = some e ∧
          s' = { s with
            srt := (upPairs env s pairs).foldl (fun t p => t.addMember r p) s.srt
            config := s.config.set r ((s.config.getD r []).set "bfd_nh_hold" "false")
            applRoute := s.applRoute.set (applKey r) e })) := by
  unfold refreshActiveNh at h
  cases hp : nexthopPairs (s.config.getD r []) with
  | none => simp [hp] at h
  | some pairs =>
    refine ⟨pairs, rfl, ?_⟩
    simp only [hp, Option.bind_eq_bind, Option.bind_some] at h
    change (if upPairs env s pairs = [] then _ else _) = _ at h
    rw [show List.filter (fun nh => sessionUp env (s.bfd.getD (bfdKey nh) [])) pairs =
      upPairs env s pairs from rfl, foldl_appendToSrt] at h
    split at h
    · next hnil =>
      refine Or.inl ⟨hnil, ?_⟩
      have := (Option.some.inj h).symm
      rw [this, hnil]
      rfl
    · next hne =>
      obtain ⟨e, he, hs⟩ := publish_eq h
      dsimp only at he hs
      rw [Dict.getD_set_self] at he
      exact Or.inr ⟨hne, e, he, hs⟩

/-! ## Static route handlers -/

theorem staticRouteSplitKey_parts {key vrf ipPrefix : String}
    (h : staticRouteSplitKey key = some (vrf, ipPrefix)) :
    '|' ∉ vrf.toList ∧ '|' ∉ ipPrefix.toList := by
  unfold staticRouteSplitKey at h
  split at h
  · simp at h
  · have hmem : ∀ x ∈ split '|' key, '|' ∉ x.toList := fun x hx => not_mem_of_mem_split hx
    split at h
    · next v p rest hs =>
      obtain ⟨rfl, rfl⟩ := Prod.mk.inj (Option.some.inj h)
      rw [hs] at hmem
      exact ⟨hmem _ (by simp), hmem _ (by simp)⟩
    · next p hs =>
      obtain ⟨rfl, rfl⟩ := Prod.mk.inj (Option.some.inj h)
      rw [hs] at hmem
      exact ⟨by decide, hmem _ (by simp)⟩
    · simp at h

theorem routeOf_split {env : Env} {key vrf ipPrefix : String}
    (h : routeOf env key = some (vrf, ipPrefix)) :
    staticRouteSplitKey key = some (vrf, ipPrefix) := by
  unfold routeOf at h
  cases hs : staticRouteSplitKey key with
  | none => simp [hs] at h
  | some q =>
    simp only [hs, Option.bind_eq_bind, Option.bind_some] at h
    split at h
    · simpa using h
    · simp at h

/-- The key that `handle_bfd_change` builds is the APPL_DB key of the route. -/
theorem applKey_routeCfgKey {env : Env} {key vrf ipPrefix : String}
    (h : routeOf env key = some (vrf, ipPrefix)) :
    applKey (routeCfgKey vrf ipPrefix) = vrf ++ ":" ++ ipPrefix := by
  obtain ⟨hv, hp⟩ := staticRouteSplitKey_parts (routeOf_split h)
  exact replace_append_append hv hp

/-- Turning bfd on publishes the route with its full next-hop list. -/
theorem handleBfdChange_true {env : Env} {key vrf ipPrefix : String} (s : State) (d : Data)
    (h : routeOf env key = some (vrf, ipPrefix)) :
    handleBfdChange env s key d true =
      { s with applRoute := s.applRoute.set (applKey (routeCfgKey vrf ipPrefix))
                ((d.set "bfd" "false").set "expiry" "false") } := by
  unfold handleBfdChange
  rw [routeOf_split h, applKey_routeCfgKey h]
  rfl

/-- A route that is stored with bfd enabled gives up its next hops, its reachable next hops
    and its APPL_DB entry. -/
def cleared (s : State) (r : String) : State :=
  { (storedPairs (s.config.getD r [])).foldl (releaseNexthop r) s with
    applRoute := s.applRoute.erase (applKey r)
    srt := s.srt.erase r }

theorem cleared_frame (s : State) (r : String) :
    ∃ n b a, cleared s r =
      { s with nexthop := n, bfd := b, applBfd := a,
               applRoute := s.applRoute.erase (applKey r), srt := s.srt.erase r } := by
  obtain ⟨n, b, a, h⟩ := foldl_release_frame r (storedPairs (s.config.getD r [])) s
  refine ⟨n, b, a, ?_⟩
  unfold cleared
  rw [h]

theorem removeRoute_enabled {env : Env} {s : State} {r : String} (redisDel : Bool)
    (h : bfdEnabled env (s.config.getD r [])) :
    removeRoute env s r redisDel =
      { cleared s r with config := if redisDel then s.config.erase r else s.config } := by
  obtain ⟨n, b, a, hf⟩ := foldl_release_frame r (storedPairs (s.config.getD r [])) s
  have hne : s.config.getD r [] ≠ [] := ((curBfdEnabled_iff env s r).2 h).1
  unfold removeRoute delStaticRouteFromApplDb cleared
  simp only [if_neg hne, h, if_true, hf]
  cases redisDel <;> rfl

/-- The three outcomes of a deletion: ignored, not handled by BFD, cleared. -/
theorem del_cases (env : Env) (s : State) (key : String) :
    staticRouteDelHandler env s key true = s ∨
    (∃ vrf ipPrefix, routeOf env key = some (vrf, ipPrefix) ∧
      ¬ bfdEnabled env (s.config.getD (routeCfgKey vrf ipPrefix) []) ∧
      staticRouteDelHandler env s key true =
        { s with srt := s.srt.erase (routeCfgKey vrf ipPrefix)
                 config := s.config.erase (routeCfgKey vrf ipPrefix) }) ∨
    (∃ vrf ipPrefix, routeOf env key = some (vrf, ipPrefix) ∧
      bfdEnabled env (s.config.getD (routeCfgKey vrf ipPrefix) []) ∧
      staticRouteDelHandler env s key true =
        { cleared s (routeCfgKey vrf ipPrefix) with
          config := s.config.erase (routeCfgKey vrf ipPrefix) }) := by
  unfold staticRouteDelHandler
  cases hr : routeOf env key with
  | none => exact Or.inl rfl
  | some q =>
    obtain ⟨vrf, ipPrefix⟩ := q
    dsimp only
    by_cases hb : bfdEnabled env (s.config.getD (routeCfgKey vrf ipPrefix) [])
    · exact Or.inr (Or.inr ⟨vrf, ipPrefix, rfl, hb, removeRoute_enabled true hb⟩)
    · unfold removeRoute
      by_cases hne : s.config.getD (routeCfgKey vrf ipPrefix) [] = []
      · exact Or.inl (by simp [hne])
      · refine Or.inr (Or.inl ⟨vrf, ipPrefix, rfl, hb, ?_⟩)
        simp only [if_neg hne, hb]
        rfl

/-- Turning bfd off clears the route and leaves its stored fields. -/
theorem handleBfdChange_false {env : Env} {key vrf ipPrefix : String} {s : State} (d : Data)
    (h : routeOf env key = some (vrf, ipPrefix))
    (hb : bfdEnabled env (s.config.getD (routeCfgKey vrf ipPrefix) [])) :
    handleBfdChange env s key d false = cleared s (routeCfgKey vrf ipPrefix) := by
  have herase : (s.applRoute.erase (applKey (routeCfgKey vrf ipPrefix))).erase
      (applKey (routeCfgKey vrf ipPrefix)) =
        s.applRoute.erase (applKey (routeCfgKey vrf ipPrefix)) := by
    simp [Dict.erase, List.filter_filter]
  unfold handleBfdChange
  rw [routeOf_split h]
  dsimp only
  unfold staticRouteDelHandler delStaticRouteFromApplDb
  rw [h, ← applKey_routeCfgKey h]
  dsimp only
  have hrm := removeRoute_enabled
    (s := { s with applRoute := s.applRoute.erase (applKey (routeCfgKey vrf ipPrefix)) }) false hb
  rw [if_neg (by simp), hrm]
  obtain ⟨n, b, a, hf⟩ := foldl_release_frame (routeCfgKey vrf ipPrefix)
    (storedPairs (s.config.getD (routeCfgKey vrf ipPrefix) [])) s
  have hw := foldl_release_with (routeCfgKey vrf ipPrefix)
    (storedPairs (s.config.getD (routeCfgKey vrf ipPrefix) [])) s s.srt
    (s.applRoute.erase (applKey (routeCfgKey vrf ipPrefix)))
  unfold cleared
  dsimp only
  rw [hw, hf, herase]
  rfl

/-- An update that the handler accepts: what it stores and the next hops it lists. -/
structure Update where
  vrf : String
  route : String
  data : Data
  nhVrfList : List String
  nexthops : List Nexthop
deriving DecidableEq

/-- The update that `static_route_set_handler` goes on with after its checks, if any. -/
def acceptedUpdate (env : Env) (s : State) (key : String) (data : Data) : Option Update :=
  if data = [] then none
  else match routeOf env key with
  | none => none
  | some (vrf, ipPrefix) =>
    let routeKey := routeCfgKey vrf ipPrefix
    if ¬ bfdEnabled env (lowerNexthop env data) then none
    else do
      let (stored, nhVrfList) ← prepare vrf (holdOf env s routeKey) (lowerNexthop env data)
      let new ← matchedNexthops stored nhVrfList
      return ⟨vrf, routeKey, stored, nhVrfList, new⟩

/-- What the checks of the handler guarantee about an accepted update. -/
structure Accepted (env : Env) (s : State) (u : Update) : Prop where
  lists : ∃ ips intfs, fieldList u.data "nexthop" = some ips ∧
    fieldList u.data "ifname" = some intfs ∧ intfs.length = ips.length ∧
    u.nhVrfList.length = ips.length ∧ u.nexthops = zipNexthops u.nhVrfList intfs ips
  vrfText : u.data.get? "nexthop-vrf" = some (join "," u.nhVrfList)
  enabled : bfdEnabled env u.data = true
  hold : u.data.get? "bfd_nh_hold" = some (holdOf env s u.route)

/-- The checks of an accepted update, one after the other. -/
theorem acceptedUpdate_cases {env : Env} {s : State} {key : String} {data : Data} {u : Update}
    (h : acceptedUpdate env s key data = some u) :
    data ≠ [] ∧ ∃ vrf ipPrefix stored nhVrfList new, routeOf env key = some (vrf, ipPrefix) ∧
      bfdEnabled env (lowerNexthop env data) = true ∧
      prepare vrf (holdOf env s (routeCfgKey vrf ipPrefix)) (lowerNexthop env data) =
        some (stored, nhVrfList) ∧
      matchedNexthops stored nhVrfList = some new ∧
      u = ⟨vrf, routeCfgKey vrf ipPrefix, stored, nhVrfList, new⟩ := by
  unfold acceptedUpdate at h
  by_cases hd : data = []
  · rw [if_pos hd] at h
    cases h
  rw [if_neg hd] at h
  cases hr : routeOf env key with
  | none =>
    rw [hr] at h
    cases h
  | some route =>
    obtain ⟨vrf, ipPrefix⟩ := route
    rw [hr] at h
    dsimp only at h
    split_ifs at h with hb
    obtain ⟨⟨stored, nhVrfList⟩, hp, h⟩ := Option.bind_eq_some_iff.1 h
    obtain ⟨new, hm, h⟩ := Option.bind_eq_some_iff.1 h
    exact ⟨hd, vrf, ipPrefix, stored, nhVrfList, new, rfl, hb, hp, hm, (Option.some.inj h).symm⟩

theorem acceptedUpdate_spec {env : Env} {s : State} {key : String} {data : Data} {u : Update}
    (h : acceptedUpdate env s key data = some u) : Accepted env s u := by
  obtain ⟨-, vrf, ipPrefix, stored, nhVrfList, new, -, hb, hp, hm, hu⟩ := acceptedUpdate_cases h
  obtain ⟨vrfs, _, hpair⟩ := Option.bind_eq_some_iff.1 hp
  obtain ⟨hst, rfl⟩ := Prod.mk.inj (Option.some.inj hpair)
  unfold matchedNexthops at hm
  split at hm
  · next intfs ips hintfs hips =>
    split at hm
    · simp at hm
    · next hlen =>
      rw [not_or, not_not, not_not] at hlen
      subst hu
      refine ⟨⟨ips, intfs, hips, hintfs, hlen.1, hlen.2.symm.trans hlen.1,
        (Option.some.inj hm).symm⟩, ?_, ?_, ?_⟩
      · rw [← hst]
        exact Dict.get?_set_self _ _ _
      · rw [← hst]
        dsimp only
        rw [bfdEnabled_set_ne _ _ _ (by decide), bfdEnabled_set_ne _ _ _ (by decide), hb]
      · rw [← hst]
        dsimp only
        rw [Dict.get?_set_ne _ _ (by decide), Dict.get?_set_self]
  · simp at hm

/-- The state in which an update is applied: a toggle to bfd has published the route. -/
def beforeUpdate (env : Env) (s : State) (routeKey : String) (data : Data) : State :=
  if curBfdDisabled env s routeKey then
    { s with applRoute := s.applRoute.set (applKey routeKey)
              (((lowerNexthop env data).set "bfd" "false").set "expiry" "false") }
  else s

theorem beforeUpdate_frame (env : Env) (s : State) (r : String) (data : Data) :
    ∃ a, beforeUpdate env s r data = { s with applRoute := a } ∧
      (∀ k, k ≠ applKey r → a.get? k = s.applRoute.get? k) ∧
      (¬ curBfdDisabled env s r → a = s.applRoute) := by
  unfold beforeUpdate
  split
  · next h =>
    exact ⟨_, rfl, fun k hk => Dict.get?_set_ne _ _ (Ne.symm hk), fun hn => absurd h hn⟩
  · exact ⟨_, rfl, fun _ _ => rfl, fun _ => rfl⟩

/-- `handle_bfd_change` of a toggle to bfd leads to `beforeUpdate`. -/
theorem toggle_eq_beforeUpdate {env : Env} {key vrf ipPrefix : String} (s : State) (data : Data)
    (h : routeOf env key = some (vrf, ipPrefix)) :
    (if curBfdDisabled env s (routeCfgKey vrf ipPrefix) then
      handleBfdChange env s key (lowerNexthop env data) true else s) =
      beforeUpdate env s (routeCfgKey vrf ipPrefix) data := by
  unfold beforeUpdate
  rw [handleBfdChange_true s _ h]

/-- An accepted update goes to lines 438 to 498. -/
theorem set_accepted {env : Env} {s : State} {key : String} {data : Data} {u : Update}
    (h : acceptedUpdate env s key data = some u) :
    staticRouteSetHandler env s key data =
      updateBfdRoute env (beforeUpdate env s u.route data) u.vrf u.route u.data u.nexthops := by
  obtain ⟨hd, vrf, ipPrefix, stored, nhVrfList, new, hr, hb, hp, hm, rfl⟩ := acceptedUpdate_cases h
  unfold staticRouteSetHandler
  rw [if_neg hd, hr]
  dsimp only
  rw [if_neg (not_not.2 hb), hp, toggle_eq_beforeUpdate s data hr]
  simp only [Option.bind_eq_bind, Option.bind_some, hm]

/-- The outcomes of `static_route_set_handler`: ignored, stored without bfd (bfd was off, bfd
    was on), rejected because the lists do not match, accepted. -/
theorem set_cases {env : Env} {s s' : State} {key : String} {data : Data}
    (h : staticRouteSetHandler env s key data = some s') :
    s' = s ∨
    (∃ vrf ipPrefix d, routeOf env key = some (vrf, ipPrefix) ∧ bfdEnabled env d = false ∧
      ¬ bfdEnabled env (s.config.getD (routeCfgKey vrf ipPrefix) []) ∧
      s' = { s with config := s.config.set (routeCfgKey vrf ipPrefix) d }) ∨
    (∃ vrf ipPrefix d, routeOf env key = some (vrf, ipPrefix) ∧ bfdEnabled env d = false ∧
      ¬ bfdEnabled env (lowerNexthop env data) ∧
      bfdEnabled env (s.config.getD (routeCfgKey vrf ipPrefix) []) ∧
      s' = { cleared s (routeCfgKey vrf ipPrefix) with
              config := s.config.set (routeCfgKey vrf ipPrefix) d }) ∨
    (∃ vrf ipPrefix, routeOf env key = some (vrf, ipPrefix) ∧
      acceptedUpdate env s key data = none ∧
      s' = beforeUpdate env s (routeCfgKey vrf ipPrefix) data) ∨
    (∃ u ipPrefix, acceptedUpdate env s key data = some u ∧
      routeOf env key = some (u.vrf, ipPrefix) ∧ u.route = routeCfgKey u.vrf ipPrefix ∧
      updateBfdRoute env (beforeUpdate env s u.route data) u.vrf u.route u.data u.nexthops =
        some s') := by
  unfold staticRouteSetHandler at h
  by_cases hd : data = []
  · rw [if_pos hd] at h
    exact Or.inl (Option.some.inj h).symm
  rw [if_neg hd] at h
  cases hr : routeOf env key with
  | none =>
    rw [hr] at h
    exact Or.inl (Option.some.inj h).symm
  | some q =>
    obtain ⟨vrf, ipPrefix⟩ := q
    rw [hr] at h
    dsimp only at h
    right
    by_cases hb : bfdEnabled env (lowerNexthop env data)
    · rw [if_neg (not_not.2 hb)] at h
      cases hp : prepare vrf (holdOf env s (routeCfgKey vrf ipPrefix)) (lowerNexthop env data) with
      | none => simp [hp] at h
      | some q =>
        obtain ⟨stored, nhVrfList⟩ := q
        simp only [hp, Option.bind_eq_bind, Option.bind_some] at h
        rw [toggle_eq_beforeUpdate s data hr] at h
        cases hm : matchedNexthops stored nhVrfList with
        | none =>
          rw [hm] at h
          refine Or.inr (Or.inr (Or.inl ⟨vrf, ipPrefix, rfl, ?_, (Option.some.inj h).symm⟩))
          simp [acceptedUpdate, hd, hr, hb, hp, hm]
        | some new =>
          rw [hm] at h
          refine Or.inr (Or.inr (Or.inr ⟨⟨vrf, routeCfgKey vrf ipPrefix, stored, nhVrfList, new⟩,
            ipPrefix, ?_, rfl, rfl, h⟩))
          simp [acceptedUpdate, hd, hr, hb, hp, hm]
    · rw [if_pos hb] at h
      cases hp : prepare vrf "false" (lowerNexthop env data) with
      | none => simp [hp] at h
      | some q =>
        obtain ⟨stored, nhVrfList⟩ := q
        simp only [hp, Option.bind_eq_bind, Option.bind_some] at h
        have hs' := (Option.some.inj h).symm
        have hd' := bfdEnabled_set_false env stored
        by_cases hcur : curBfdEnabled env s (routeCfgKey vrf ipPrefix)
        · have hen := (curBfdEnabled_iff env s (routeCfgKey vrf ipPrefix)).1 hcur
          obtain ⟨n, b, a, hf⟩ := cleared_frame s (routeCfgKey vrf ipPrefix)
          refine Or.inr (Or.inl ⟨vrf, ipPrefix, _, rfl, hd', hb, hen, ?_⟩)
          rw [hs', if_pos hcur, handleBfdChange_false _ hr hen, hf]
        · refine Or.inl ⟨vrf, ipPrefix, _, rfl, hd', ?_, ?_⟩
          · exact fun hen => hcur ((curBfdEnabled_iff env s _).2 hen)
          · rw [hs', if_neg hcur]

/-! ## Accepted updates -/

/-- The pairs that an update of a route stored with bfd enabled gives up. -/
def droppedPairs (env : Env) (s : State) (vrf r : String) (new : List Nexthop) :
    List (String × String) :=
  if curBfdEnabled env s r then
    match existingNexthops vrf (s.config.getD r []) new with
    | some exist => dropped exist new
    | none => []
  else []

/-- The state after lines 438 to 460: the pairs `L` are released. -/
def released (s : State) (r : String) (L : List (String × String)) : State :=
  { L.foldl (releaseNexthop r) s with
    srt := L.foldl (fun t p => t.removeMember r p) s.srt }

/-- The state after lines 438 to 496, before `refresh_active_nh`. -/
def listed (env : Env) (s : State) (u : Update) : State :=
  u.nexthops.foldl (addNexthop env u.route)
    { released s u.route (droppedPairs env s u.vrf u.route u.nexthops) with
      config := s.config.set u.route u.data }

theorem updateBfdRoute_eq {env : Env} {s s' : State} {u : Update}
    (h : updateBfdRoute env s u.vrf u.route u.data u.nexthops = some s') :
    refreshActiveNh env (listed env s u) u.route = some s' := by
  unfold updateBfdRoute at h
  unfold listed droppedPairs released
  split at h
  · next hcur =>
    rw [if_pos hcur]
    cases hex : existingNexthops u.vrf (s.config.getD u.route []) u.nexthops with
    | none => simp [hex] at h
    | some exist =>
      simp only [hex, Option.map_some, Option.bind_eq_bind, Option.bind_some] at h
      rw [foldl_removeDeletedNexthop] at h
      obtain ⟨n, b, a, hf⟩ := foldl_release_frame u.route (dropped exist u.nexthops) s
      dsimp only
      rw [hf] at h ⊢
      exact h
  · next hcur =>
    rw [if_neg hcur]
    simpa using h

theorem listed_frame (env : Env) (s : State) (u : Update) :
    ∃ n b p a, listed env s u =
      { s with
        nexthop := n, bfd := b, bfdPending := p, applBfd := a
        config := s.config.set u.route u.data
        srt := (droppedPairs env s u.vrf u.route u.nexthops).foldl
          (fun t p => t.removeMember u.route p) s.srt } := by
  obtain ⟨n, b, a, hr⟩ := foldl_release_frame u.route
    (droppedPairs env s u.vrf u.route u.nexthops) s
  unfold listed released
  rw [hr]
  obtain ⟨n', b', p', a', hf⟩ := foldl_addNexthop_frame env u.route u.nexthops
    { s with
      nexthop := n, bfd := b, applBfd := a
      config := s.config.set u.route u.data
      srt := (droppedPairs env s u.vrf u.route u.nexthops).foldl
        (fun t p => t.removeMember u.route p) s.srt }
  exact ⟨n', b', p', a', hf⟩

@[simp] theorem listed_config (env : Env) (s : State) (u : Update) :
    (listed env s u).config = s.config.set u.route u.data := by
  obtain ⟨n, b, p, a, h⟩ := listed_frame env s u
  rw [h]

@[simp] theorem listed_applRoute (env : Env) (s : State) (u : Update) :
    (listed env s u).applRoute = s.applRoute := by
  obtain ⟨n, b, p, a, h⟩ := listed_frame env s u
  rw [h]

theorem mem_listed_srt (env : Env) (s : State) (u : Update) (x : String) (p : String × String) :
    p ∈ (listed env s u).srt.getD x [] ↔
      p ∈ s.srt.getD x [] ∧
        ¬ (x = u.route ∧ p ∈ droppedPairs env s u.vrf u.route u.nexthops) := by
  obtain ⟨n, b, q, a, h⟩ := listed_frame env s u
  rw [h]
  exact mem_foldl_removeMember _ _ _ _ _

theorem mem_listed_nexthop (env : Env) (s : State) (u : Update) (k x : String) :
    x ∈ (listed env s u).nexthop.getD k [] ↔
      (x ∈ s.nexthop.getD k [] ∧
        ¬ (x = u.route ∧ k ∈ (droppedPairs env s u.vrf u.route u.nexthops).map nhKey)) ∨
      (x = u.route ∧ k ∈ u.nexthops.map fun nh => nhKey nh.pair) := by
  unfold listed
  rw [mem_foldl_addNexthop]
  exact or_congr (mem_foldl_release _ _ _ _ _) Iff.rfl

/-- The session of a next hop is UP and the update does not tear it down: another route
    still uses it, or it is not dropped. -/
def StaysUp (env : Env) (s : State) (u : Update) (p : String × String) : Prop :=
  sessionUp env (s.bfd.getD (bfdKey p) []) = true ∧
    ∀ q ∈ droppedPairs env s u.vrf u.route u.nexthops, Orphaned s u.route q → bfdKey q ≠ bfdKey p

theorem sessionUp_congr (env : Env) {a b : Data} (h : a.get? "state" = b.get? "state") :
    sessionUp env a = sessionUp env b := by
  unfold sessionUp
  rw [h]

theorem sessionUp_listed_iff (env : Env) (s : State) (u : Update) (p : String × String) :
    sessionUp env ((listed env s u).bfd.getD (bfdKey p) []) = true ↔ StaysUp env s u p := by
  have hadd : sessionUp env ((listed env s u).bfd.getD (bfdKey p) []) =
      sessionUp env (((droppedPairs env s u.vrf u.route u.nexthops).foldl
        (releaseNexthop u.route) s).bfd.getD (bfdKey p) []) :=
    sessionUp_congr env (foldl_addNexthop_state env u.route _ _ _)
  rw [hadd]
  unfold StaysUp
  by_cases hkept : ∀ q ∈ droppedPairs env s u.vrf u.route u.nexthops,
      Orphaned s u.route q → bfdKey q ≠ bfdKey p
  · unfold Dict.getD
    rw [(foldl_release_kept hkept).1]
    simp only [and_iff_left hkept]
  · have hgone : ((droppedPairs env s u.vrf u.route u.nexthops).foldl
        (releaseNexthop u.route) s).bfd.get? (bfdKey p) = none := by
      push Not at hkept
      obtain ⟨q, hq, ho, hb⟩ := hkept
      rw [← hb]
      exact (foldl_release_gone hq ho).1
    unfold Dict.getD
    rw [hgone]
    constructor
    · intro h
      simp [sessionUp] at h
    · exact fun h => absurd h.2 hkept

/-- The two outcomes of an accepted update: nothing listed is UP and nothing is written, or
    the reachable part is published and the route is not held. -/
theorem update_cases {env : Env} {s s' : State} {u : Update}
    (h : updateBfdRoute env s u.vrf u.route u.data u.nexthops = some s') :
    ∃ pairs, nexthopPairs u.data = some pairs ∧
      (((∀ p ∈ pairs, ¬ StaysUp env s u p) ∧ s' = listed env s u) ∨
        ((∃ p ∈ pairs, StaysUp env s u p) ∧ ∃ e srt config,
          (∀ x p, p ∈ srt.getD x [] ↔
            p ∈ (listed env s u).srt.getD x [] ∨ (x = u.route ∧ p ∈ pairs ∧ StaysUp env s u p)) ∧
          (∀ x, config.getD x [] =
            if u.route = x then u.data.set "bfd_nh_hold" "false" else s.config.getD x []) ∧
          reconstructStaticRouteConfig (u.data.set "bfd_nh_hold" "false")
            (srt.getD u.route []) = some e ∧
          s' = { listed env s u with
            srt := srt, config := config
            applRoute := s.applRoute.set (applKey u.route) e })) := by
  obtain ⟨pairs, hp, hcase⟩ := refreshActiveNh_cases (updateBfdRoute_eq h)
  rw [listed_config, Dict.getD_set_self] at hp
  have hmem : ∀ p, p ∈ upPairs env (listed env s u) pairs ↔ p ∈ pairs ∧ StaysUp env s u p := by
    intro p
    rw [← sessionUp_listed_iff]
    simp [upPairs]
  refine ⟨pairs, hp, ?_⟩
  rcases hcase with ⟨hnil, hs⟩ | ⟨hne, e, he, hs⟩
  · refine Or.inl ⟨fun p hpp hup => ?_, hs⟩
    have := (hmem p).2 ⟨hpp, hup⟩
    rw [hnil] at this
    simp at this
  · obtain ⟨p, hpm⟩ := List.exists_mem_of_ne_nil _ hne
    rw [listed_config, Dict.getD_set_self] at he
    refine Or.inr ⟨⟨p, (hmem p).1 hpm⟩, e, s'.srt, s'.config, ?_, ?_, ?_, ?_⟩
    · intro x q
      rw [hs]
      exact (mem_foldl_addMember _ _ _ _ _).trans (or_congr Iff.rfl (and_congr Iff.rfl (hmem q)))
    · intro x
      rw [hs]
      dsimp only
      rw [Dict.getD_set, listed_config, Dict.getD_set_self, Dict.getD_set]
      split <;> rfl
    · rw [hs]
      exact he
    · rw [hs, listed_applRoute]

/-! ## Interface handlers -/

theorem foldl_updateBfdPendingItem_frame (env : Env) (ifName : String)
    (L : List (String × String × String × String)) (acc : State × List String) :
    ∃ b a l, L.foldl (updateBfdPendingItem env ifName) acc =
      ({ acc.1 with bfd := b, applBfd := a }, l) := by
  induction L generalizing acc with
  | nil => exact ⟨_, _, _, rfl⟩
  | cons entry L ih =>
    rw [List.foldl_cons]
    obtain ⟨b, a, l, h⟩ := ih (updateBfdPendingItem env ifName acc entry)
    rw [h]
    unfold updateBfdPendingItem
    dsimp only
    split
    · split
      · exact ⟨_, _, _, rfl⟩
      · exact ⟨_, _, _, rfl⟩
    · exact ⟨_, _, _, rfl⟩

/-- Interface events touch the interfaces and the sessions only. -/
theorem interfaceSet_frame (env : Env) (s : State) (key : String) :
    ∃ i b p a, interfaceSetHandler env s key =
      { s with interface := i, bfd := b, bfdPending := p, applBfd := a } := by
  unfold interfaceSetHandler
  split
  · exact ⟨_, _, _, _, rfl⟩
  · dsimp only
    unfold updateBfdPending
    dsimp only
    next isIpv4 ifName ip _ =>
    obtain ⟨b, a, l, h⟩ := foldl_updateBfdPendingItem_frame env ifName s.bfdPending
      ({ s with interface := s.interface.set ifName ((s.interface.getD ifName []).set isIpv4 ip) },
        [])
    rw [h]
    exact ⟨_, _, _, _, rfl⟩

theorem interfaceDel_frame (env : Env) (s : State) (key : String) :
    ∃ i, interfaceDelHandler env s key = { s with interface := i } := by
  unfold interfaceDelHandler
  split
  · exact ⟨_, rfl⟩
  · dsimp only
    split
    · exact ⟨_, rfl⟩
    · exact ⟨_, rfl⟩

/-- A session that is not the one of a pending entry of the interface is kept. -/
theorem foldl_updateBfdPendingItem_kept {env : Env} {ifName b : String}
    {L : List (String × String × String × String)}
    (h : ∀ entry ∈ L, entry.2.1 = ifName → entry.2.2.2 ≠ b) (acc : State × List String) :
    (L.foldl (updateBfdPendingItem env ifName) acc).1.bfd.getD b [] = acc.1.bfd.getD b [] := by
  induction L generalizing acc with
  | nil => rfl
  | cons entry L ih =>
    rw [List.foldl_cons, ih fun e he => h e (List.mem_cons_of_mem _ he)]
    unfold updateBfdPendingItem
    dsimp only
    split
    · next hif =>
      split
      · rfl
      · exact Dict.getD_set_ne _ _ _ (h entry List.mem_cons_self hif)
    · rfl

theorem interfaceSet_kept {env : Env} {s : State} {key b : String}
    (h : ∀ q ∈ getIpFromKey env key, ∀ entry ∈ s.bfdPending, entry.2.1 = q.2.1 →
      entry.2.2.2 ≠ b) :
    (interfaceSetHandler env s key).bfd.getD b [] = s.bfd.getD b [] := by
  unfold interfaceSetHandler
  split
  · rfl
  · next hq =>
    exact foldl_updateBfdPendingItem_kept (h _ hq) _

/-! ## BFD state handlers -/

/-- The stored fields agree up to the hold flag. -/
structure SameRoute (env : Env) (d d' : Data) : Prop where
  enabled : bfdEnabled env d' = bfdEnabled env d
  lists : ∀ f, f ≠ "bfd_nh_hold" → fieldList d' f = fieldList d f

theorem SameRoute.refl (env : Env) (d : Data) : SameRoute env d d :=
  ⟨rfl, fun _ _ => rfl⟩

theorem SameRoute.set_hold (env : Env) (d : Data) (v : String) :
    SameRoute env d (d.set "bfd_nh_hold" v) :=
  ⟨bfdEnabled_set_ne env d v (by decide), fun _ hf => fieldList_set_ne d v (Ne.symm hf)⟩

theorem SameRoute.trans {env : Env} {d d' d'' : Data} (h : SameRoute env d d')
    (h' : SameRoute env d' d'') : SameRoute env d d'' :=
  ⟨h'.enabled.trans h.enabled, fun f hf => (h'.lists f hf).trans (h.lists f hf)⟩

theorem SameRoute.storedPairs_eq {env : Env} {d d' : Data} (h : SameRoute env d d') :
    storedPairs d' = storedPairs d := by
  unfold storedPairs
  rw [h.lists "nexthop" (by decide), h.lists "nexthop-vrf" (by decide)]

/-- A state in which hold flags, reachable next hops and APPL_DB routes may differ. -/
structure Republished (env : Env) (s s' : State) : Prop where
  routes : ∀ r, SameRoute env (s.config.getD r []) (s'.config.getD r [])
  frame : s' = { s with config := s'.config, srt := s'.srt, applRoute := s'.applRoute }

theorem Republished.refl (env : Env) (s : State) : Republished env s s :=
  ⟨fun _ => SameRoute.refl env _, rfl⟩

theorem Republished.trans {env : Env} {s s' s'' : State} (h : Republished env s s')
    (h' : Republished env s' s'') : Republished env s s'' := by
  refine ⟨fun r => (h.routes r).trans (h'.routes r), ?_⟩
  rw [h'.frame, h.frame]

theorem Republished.nexthop_eq {env : Env} {s s' : State} (h : Republished env s s') :
    s'.nexthop = s.nexthop := by rw [h.frame]

theorem Republished.bfd_eq {env : Env} {s s' : State} (h : Republished env s s') :
    s'.bfd = s.bfd := by rw [h.frame]

theorem bfdStateUp_cases {nh : String × String} {s s' : State} {r : String}
    (h : bfdStateUp nh s r = some s') :
    (nh ∈ s.srt.getD r [] ∧ s' = s) ∨
    (∃ e, reconstructStaticRouteConfig ((s.config.getD r []).set "bfd_nh_hold" "false")
        (setAdd (s.srt.getD r []) nh) = some e ∧
      s' = { s with
        srt := s.srt.addMember r nh
        config := s.config.set r ((s.config.getD r []).set "bfd_nh_hold" "false")
        applRoute := s.applRoute.set (applKey r) e }) := by
  unfold bfdStateUp at h
  split at h
  · next hm =>
    exact Or.inl ⟨hm, (Option.some.inj h).symm⟩
  · obtain ⟨e, he, rfl⟩ := publish_eq h
    dsimp only [appendToSrtTableEntry] at he
    rw [Dict.getD_set_self, Dict.getD_addMember, if_pos rfl] at he
    exact Or.inr ⟨e, he, rfl⟩

theorem bfdStateUp_republished (env : Env) {nh : String × String} {s s' : State} {r : String}
    (h : bfdStateUp nh s r = some s') : Republished env s s' := by
  rcases bfdStateUp_cases h with ⟨_, rfl⟩ | ⟨e, _, rfl⟩
  · exact Republished.refl env s'
  · refine ⟨fun x => ?_, rfl⟩
    dsimp only
    rw [Dict.getD_set]
    split
    · next hx =>
      exact hx ▸ SameRoute.set_hold env _ _
    · exact SameRoute.refl env _

theorem foldlM_up_republished (env : Env) {nh : String × String} {L : List String}
    {s s' : State} (h : L.foldlM (bfdStateUp nh) s = some s') : Republished env s s' :=
  foldlM_invariant (P := Republished env s)
    (fun _ _ _ _ hs h₁ => hs.trans (bfdStateUp_republished env h₁)) h (Republished.refl env s)

theorem bfdStateDown_cases {nh : String × String} {s s' : State} {r : String}
    (h : bfdStateDown nh s r = some s') :
    ((s.config.getD r []).get? "bfd_nh_hold" = some "true" ∧ s' = s) ∨
    ((s.config.getD r []).get? "bfd_nh_hold" ≠ some "true" ∧
      withdrawOrPublish (removeFromSrtTableEntry s r nh) r = some s') := by
  obtain ⟨hold, hh, h⟩ := Option.bind_eq_some_iff.1 h
  split at h
  · next heq =>
    exact Or.inl ⟨by rw [hh, heq], (Option.some.inj h).symm⟩
  · next hne =>
    refine Or.inr ⟨?_, h⟩
    rw [hh]
    exact fun he => hne (Option.some.inj he)

/-- Withdrawing one next hop of a route touches the entries of that route only. -/
theorem withdraw_frame {nh : String × String} {s s' : State} {r : String}
    (h : withdrawOrPublish (removeFromSrtTableEntry s r nh) r = some s') :
    ∃ a, s' = { s with srt := s.srt.removeMember r nh, applRoute := a } ∧
      ∀ k, k ≠ applKey r → a.get? k = s.applRoute.get? k := by
  rcases withdrawOrPublish_cases h with ⟨_, rfl⟩ | ⟨_, e, _, rfl⟩
  · exact ⟨_, rfl, fun k hk => Dict.get?_erase_ne _ (Ne.symm hk)⟩
  · exact ⟨_, rfl, fun k hk => Dict.get?_set_ne _ _ (Ne.symm hk)⟩

/-- The loop of a DOWN report takes the next hop out of the routes that are not in hold. -/
theorem foldlM_down {nh : String × String} {L : List String} {s s' : State}
    (h : L.foldlM (bfdStateDown nh) s = some s') :
    ∃ t a, s' = { s with srt := t, applRoute := a } ∧
      ∀ r p, p ∈ t.getD r [] → p ∈ s.srt.getD r [] ∧
        ¬ (r ∈ L ∧ (s.config.getD r []).get? "bfd_nh_hold" ≠ some "true" ∧ p = nh) := by
  induction L generalizing s with
  | nil =>
    refine ⟨s.srt, s.applRoute, (Option.some.inj h).symm, fun r p hp => ⟨hp, ?_⟩⟩
    simp
  | cons x L ih =>
    rw [List.foldlM_cons] at h
    obtain ⟨s₁, h₁, h⟩ := Option.bind_eq_some_iff.1 h
    obtain ⟨t, a, rfl, hmem⟩ := ih h
    rcases bfdStateDown_cases h₁ with ⟨hhold, rfl⟩ | ⟨_, hw⟩
    · refine ⟨t, a, rfl, fun r p hp => ⟨(hmem r p hp).1, ?_⟩⟩
      rintro ⟨hr, hne, rfl⟩
      rcases List.mem_cons.1 hr with rfl | hr
      · exact hne hhold
      · exact (hmem r p hp).2 ⟨hr, hne, rfl⟩
    · obtain ⟨a₁, rfl, _⟩ := withdraw_frame hw
      refine ⟨t, a, rfl, fun r p hp => ?_⟩
      obtain ⟨hp₁, hrest⟩ := hmem r p hp
      rw [Dict.mem_getD_removeMember] at hp₁
      refine ⟨hp₁.1, ?_⟩
      rintro ⟨hr, hne, rfl⟩
      rcases List.mem_cons.1 hr with rfl | hr
      · exact hp₁.2 ⟨rfl, rfl⟩
      · exact hrest ⟨hr, hne, rfl⟩

/-- The loop of a session deletion takes the next hop out of the routes, in hold or not. -/
theorem foldlM_del {nh : String × String} {L : List String} {s s' : State}
    (h : L.foldlM (fun s r => withdrawOrPublish (removeFromSrtTableEntry s r nh) r) s = some s') :
    ∃ t a, s' = { s with srt := t, applRoute := a } ∧
      ∀ r p, p ∈ t.getD r [] → p ∈ s.srt.getD r [] := by
  refine foldlM_invariant (P := fun s₁ => ∃ t a, s₁ = { s with srt := t, applRoute := a } ∧
    ∀ r p, p ∈ t.getD r [] → p ∈ s.srt.getD r []) ?_ h ⟨_, _, rfl, fun _ _ hp => hp⟩
  rintro _ x s₂ _ ⟨t, a, rfl, hmem⟩ hw
  obtain ⟨a', rfl, _⟩ := withdraw_frame hw
  refine ⟨_, a', rfl, fun r p hp => hmem r p ?_⟩
  rw [Dict.mem_getD_removeMember] at hp
  exact hp.1

/-- The outcomes of `bfd_state_set_handler`: not a session of the daemon, UP, DOWN, another
    state. -/
theorem bfdSet_cases {env : Env} {order : List String → List String} {s s' : State}
    {key : String} {data : Data} (h : bfdStateSetHandler env order s key data = some s') :
    ∃ vrf intf peerIp, bfdStateSplitKey key = some (vrf, intf, peerIp) ∧
      ((s.bfd.getD (vrf ++ ":" ++ intf ++ ":" ++ peerIp) [] = [] ∧ s' = s) ∨
      (s.bfd.getD (vrf ++ ":" ++ intf ++ ":" ++ peerIp) [] ≠ [] ∧ ∃ s₁,
        s₁ = { s with
          bfd := s.bfd.set (vrf ++ ":" ++ intf ++ ":" ++ peerIp)
            ((s.bfd.getD (vrf ++ ":" ++ intf ++ ":" ++ peerIp) []).set "state"
              (data.getD "state" "DOWN")) } ∧
        ((env.upper (data.getD "state" "DOWN") = "UP" ∧
          (order (s.nexthop.getD (nhKey (vrf, peerIp)) [])).foldlM (bfdStateUp (vrf, peerIp)) s₁ =
            some s') ∨
        (env.upper (data.getD "state" "DOWN") ≠ "UP" ∧
          env.upper (data.getD "state" "DOWN") = "DOWN" ∧
          (order (s.nexthop.getD (nhKey (vrf, peerIp)) [])).foldlM (bfdStateDown (vrf, peerIp)) s₁ =
            some s') ∨
        (env.upper (data.getD "state" "DOWN") ≠ "UP" ∧
          env.upper (data.getD "state" "DOWN") ≠ "DOWN" ∧ s' = s₁)))) := by
  obtain ⟨⟨vrf, intf, peerIp⟩, hk, h⟩ := Option.bind_eq_some_iff.1 h
  refine ⟨vrf, intf, peerIp, hk, ?_⟩
  dsimp only at h
  split at h
  · next hnil =>
    exact Or.inl ⟨hnil, (Option.some.inj h).symm⟩
  · next hrec =>
    refine Or.inr ⟨hrec, _, rfl, ?_⟩
    split at h
    · next hup =>
      exact Or.inl ⟨hup, h⟩
    · next hup =>
      split at h
      · next hdown =>
        exact Or.inr (Or.inl ⟨hup, hdown, h⟩)
      · next hdown =>
        exact Or.inr (Or.inr ⟨hup, hdown, (Option.some.inj h).symm⟩)

end SonicBuildimage.StaticRouteBfd
