/-
  BFD sessions and pending sessions against the next hops in use.

  (a) every session that the daemon has put in APPL_DB and not deleted belongs to a next
  hop of a route stored with bfd enabled; (b) every such next hop has a session, or an
  entry in `LOCAL_BFD_PENDING_TABLE` for the interface of a route that uses it. The
  deletion paths never look at the pending table, so neither holds in every run: an entry
  that outlives its route creates a session that nothing uses
  (`orphan_session_after_delete`), and a next hop that two routes share loses its only
  pending entry's interface when the route that made the entry goes.

  `sessions_of_run`: both hold in every state of every run in which an interface gets its
  address only while the next hops pending on it are in use, and in which a route gives up
  a next hop without a session only if no other route uses it or an entry for one of the
  remaining interfaces is there (`SessOk`).
-/
import SonicBuildimage.StaticRouteBfd.Index

namespace SonicBuildimage.StaticRouteBfd

open SonicBuildimage.Lib

/-! ## Pending entries -/

/-- An entry of `LOCAL_BFD_PENDING_TABLE` as `static_route_set_handler` writes it. -/
def PendingForm (e : String × String × String × String) : Prop :=
  e.1 = e.2.1 ++ "_" ++ e.2.2.2 ∧ '_' ∉ e.2.1.toList

/-- The key of a pending entry gives its interface and its session. -/
theorem PendingForm.inj {e e' : String × String × String × String} (h : PendingForm e)
    (h' : PendingForm e') (hk : e.1 = e'.1) : e.2.1 = e'.2.1 ∧ e.2.2.2 = e'.2.2.2 := by
  have hl : e.2.1.toList ++ '_' :: e.2.2.2.toList = e'.2.1.toList ++ '_' :: e'.2.2.2.toList := by
    rw [h.1, h'.1] at hk
    simpa using congrArg String.toList hk
  obtain ⟨h1, h2⟩ := append_cons_inj h.2 h'.2 hl
  exact ⟨String.toList_inj.1 h1, String.toList_inj.1 h2⟩

/-- What the loop over the listed next hops does to sessions and pending entries. -/
structure AddSpec (t t' : State) (new : List Nexthop) : Prop where
  appl : ∀ b, t'.applBfd.get? b ≠ none →
    t.applBfd.get? b ≠ none ∨ ∃ nh ∈ new, bfdKey nh.pair = b
  bfd : ∀ b, t.bfd.getD b [] ≠ [] → t'.bfd.getD b [] ≠ []
  pend : ∀ e ∈ t.bfdPending, ∃ e' ∈ t'.bfdPending, e'.2.1 = e.2.1 ∧ e'.2.2.2 = e.2.2.2
  form : ∀ e ∈ t'.bfdPending, PendingForm e
  listed : ∀ nh ∈ new, t'.bfd.getD (bfdKey nh.pair) [] ≠ [] ∨
    (∃ e ∈ t'.bfdPending, e.2.2.2 = bfdKey nh.pair ∧
      ∃ nh' ∈ new, nh'.pair = nh.pair ∧ nh'.ifname = e.2.1) ∨
    t.nexthop.getD (nhKey nh.pair) [] ≠ []

theorem AddSpec.nil {t : State} (hf : ∀ e ∈ t.bfdPending, PendingForm e) : AddSpec t t [] :=
  ⟨fun _ h => Or.inl h, fun _ h => h, fun e he => ⟨e, he, rfl, rfl⟩, hf,
    fun _ h => absurd h List.not_mem_nil⟩

/-- One iteration. -/
theorem AddSpec.one (env : Env) (r : String) {t : State} {nh : Nexthop}
    (hf : ∀ e ∈ t.bfdPending, PendingForm e) (hif : '_' ∉ nh.ifname.toList) :
    AddSpec t (addNexthop env r t nh) [nh] := by
  have hset : ∀ b (session : Data), session ≠ [] → ∀ b', t.bfd.getD b' [] ≠ [] →
      (t.bfd.set b session).getD b' [] ≠ [] := by
    intro b session hs b' hb'
    rw [Dict.getD_set]
    split
    · exact hs
    · exact hb'
  obtain ⟨hb, h⟩ | ⟨_, _, _, h⟩ | ⟨addr, _, _, h⟩ | ⟨_, hn, h⟩ := addNexthop_cases env r t nh <;>
    rw [h]
  · refine ⟨fun _ h => Or.inl h, hset _ _ (Dict.set_ne_nil _ _ _), fun e he => ⟨e, he, rfl, rfl⟩,
      hf, fun nh' hm => Or.inl ?_⟩
    rw [List.mem_singleton.1 hm]
    dsimp only
    rw [Dict.getD_set_self]
    exact Dict.set_ne_nil _ _ _
  · have hform : PendingForm (nh.ifname ++ "_" ++ bfdKey nh.pair,
        nh.ifname, nh.ip, bfdKey nh.pair) := ⟨rfl, hif⟩
    refine ⟨fun _ h => Or.inl h, fun _ h => h, fun e he => ?_, fun e he => ?_, fun nh' hm => ?_⟩
    · by_cases hk : e.1 = nh.ifname ++ "_" ++ bfdKey nh.pair
      · obtain ⟨h1, h2⟩ := (hf e he).inj hform hk
        exact ⟨_, Dict.mem_set_self _ _ _, h1.symm, h2.symm⟩
      · exact ⟨e, Dict.mem_set_of_ne _ he hk, rfl, rfl⟩
    · rcases Dict.mem_of_mem_set he with rfl | he
      · exact hform
      · exact hf e he
    · rw [List.mem_singleton.1 hm]
      exact Or.inr (Or.inl ⟨_, Dict.mem_set_self _ _ _, rfl, nh, List.mem_cons_self, rfl, rfl⟩)
  · refine ⟨fun b hb => ?_, hset _ _ (Dict.set_ne_nil _ _ _), fun e he => ⟨e, he, rfl, rfl⟩, hf,
      fun nh' hm => Or.inl ?_⟩
    · dsimp only at hb
      rw [Dict.get?_set] at hb
      split at hb
      · next hk =>
        exact Or.inr ⟨nh, List.mem_cons_self, hk⟩
      · exact Or.inl hb
    · rw [List.mem_singleton.1 hm]
      dsimp only
      rw [Dict.getD_set_self]
      exact Dict.set_ne_nil _ _ _
  · refine ⟨fun _ h => Or.inl h, fun _ h => h, fun e he => ⟨e, he, rfl, rfl⟩, hf,
      fun nh' hm => Or.inr (Or.inr ?_)⟩
    rw [List.mem_singleton.1 hm]
    exact hn

theorem AddSpec.foldl (env : Env) (r : String) {new : List Nexthop} {t : State}
    (hf : ∀ e ∈ t.bfdPending, PendingForm e) (hif : ∀ nh ∈ new, '_' ∉ nh.ifname.toList)
    (hplain : ∀ nh ∈ new, PlainPair nh.pair) :
    AddSpec t (new.foldl (addNexthop env r) t) new := by
  induction new generalizing t with
  | nil => exact AddSpec.nil hf
  | cons nh new ih =>
    have h1 := AddSpec.one env r hf (hif nh List.mem_cons_self)
    have h2 := ih h1.form (fun x hx => hif x (List.mem_cons_of_mem _ hx))
      (fun x hx => hplain x (List.mem_cons_of_mem _ hx))
    rw [List.foldl_cons]
    -- what the first iteration gave its next hop is still there at the end
    have hfirst : (new.foldl (addNexthop env r) (addNexthop env r t nh)).bfd.getD
          (bfdKey nh.pair) [] ≠ [] ∨
        (∃ e ∈ (new.foldl (addNexthop env r) (addNexthop env r t nh)).bfdPending,
          e.2.2.2 = bfdKey nh.pair ∧ ∃ nh' ∈ nh :: new, nh'.pair = nh.pair ∧ nh'.ifname = e.2.1) ∨
        t.nexthop.getD (nhKey nh.pair) [] ≠ [] := by
      rcases h1.listed nh List.mem_cons_self with h | ⟨e, he, hb, nh', hm, hp, hi⟩ | h
      · exact Or.inl (h2.bfd _ h)
      · obtain ⟨e', he', hi', hb'⟩ := h2.pend e he
        rw [List.mem_singleton.1 hm] at hp hi
        exact Or.inr (Or.inl ⟨e', he', hb'.trans hb, nh, List.mem_cons_self, hp, hi.trans hi'.symm⟩)
      · exact Or.inr (Or.inr h)
    refine ⟨fun b hb => ?_, fun b hb => h2.bfd b (h1.bfd b hb), fun e he => ?_, h2.form,
      fun x hx => ?_⟩
    · rcases h2.appl b hb with h | ⟨x, hx, hk⟩
      · rcases h1.appl b h with h | ⟨x, hx, hk⟩
        · exact Or.inl h
        · exact Or.inr ⟨nh, List.mem_cons_self, List.mem_singleton.1 hx ▸ hk⟩
      · exact Or.inr ⟨x, List.mem_cons_of_mem _ hx, hk⟩
    · obtain ⟨e₁, he₁, hi₁, hb₁⟩ := h1.pend e he
      obtain ⟨e₂, he₂, hi₂, hb₂⟩ := h2.pend e₁ he₁
      exact ⟨e₂, he₂, hi₂.trans hi₁, hb₂.trans hb₁⟩
    · rcases List.mem_cons.1 hx with rfl | hx
      · exact hfirst
      · rcases h2.listed x hx with h | ⟨e, he, hb, nh', hm, hp, hi⟩ | h
        · exact Or.inl h
        · exact Or.inr (Or.inl ⟨e, he, hb, nh', List.mem_cons_of_mem _ hm, hp, hi⟩)
        · -- a route in the entry was there before, or the first iteration has put it there
          rw [addNexthop_nexthop, Dict.getD_addMember] at h
          split at h
          · next hk =>
            rw [← nhKey_inj (hplain x (List.mem_cons_of_mem _ hx)) hk]
            exact hfirst
          · exact Or.inr (Or.inr h)

/-- What the loop over the pending entries of an interface does: `acc` holds the state and
    the keys to delete. -/
structure FireSpec (ifName : String) (L : List (String × String × String × String))
    (acc acc' : State × List String) : Prop where
  appl : ∀ b, acc'.1.applBfd.get? b ≠ none →
    acc.1.applBfd.get? b ≠ none ∨ ∃ e ∈ L, e.2.1 = ifName ∧ e.2.2.2 = b
  bfd : ∀ b, acc.1.bfd.getD b [] ≠ [] → acc'.1.bfd.getD b [] ≠ []
  fired : ∀ k ∈ acc'.2, k ∈ acc.2 ∨ ∃ e ∈ L, e.1 = k ∧ acc'.1.bfd.getD e.2.2.2 [] ≠ []

theorem FireSpec.foldl (env : Env) (ifName : String)
    (L : List (String × String × String × String)) (acc : State × List String) :
    FireSpec ifName L acc (L.foldl (updateBfdPendingItem env ifName) acc) := by
  induction L generalizing acc with
  | nil => exact ⟨fun _ h => Or.inl h, fun _ h => h, fun _ h => Or.inl h⟩
  | cons e L ih =>
    rw [List.foldl_cons]
    obtain ⟨happl, hbfd, hfired⟩ := ih (updateBfdPendingItem env ifName acc e)
    unfold updateBfdPendingItem at happl hbfd hfired ⊢
    dsimp only at happl hbfd hfired ⊢
    have hskip : FireSpec ifName (e :: L) acc (L.foldl (updateBfdPendingItem env ifName) acc) := by
      obtain ⟨happl, hbfd, hfired⟩ := ih acc
      refine ⟨fun b hb => ?_, hbfd, fun k hk => ?_⟩
      · exact (happl b hb).imp_right fun ⟨x, hx, h⟩ => ⟨x, List.mem_cons_of_mem _ hx, h⟩
      · exact (hfired k hk).imp_right fun ⟨x, hx, h⟩ => ⟨x, List.mem_cons_of_mem _ hx, h⟩
    split
    · next hif =>
      split
      · exact hskip
      · next addr hip =>
        rw [if_pos hif, hip] at happl hbfd hfired
        dsimp only [createBfdSession] at happl hbfd hfired
        have hnew : ((acc.1.bfd.set e.2.2.2 ((bfdEntryCfg addr).set "static_route" "true")).getD
            e.2.2.2 []) ≠ [] := by
          rw [Dict.getD_set_self]
          exact Dict.set_ne_nil _ _ _
        refine ⟨fun b hb => ?_, fun b hb => hbfd b ?_, fun k hk => ?_⟩
        · rcases happl b hb with h | ⟨x, hx, h⟩
          · rw [Dict.get?_set] at h
            split at h
            · next hk =>
              exact Or.inr ⟨e, List.mem_cons_self, hif, hk⟩
            · exact Or.inl h
          · exact Or.inr ⟨x, List.mem_cons_of_mem _ hx, h⟩
        · rw [Dict.getD_set]
          split
          · exact Dict.set_ne_nil _ _ _
          · exact hb
        · rcases hfired k hk with h | ⟨x, hx, h⟩
          · rcases List.mem_append.1 h with h | h
            · exact Or.inl h
            · rw [List.mem_singleton.1 h]
              exact Or.inr ⟨e, List.mem_cons_self, rfl, hbfd _ hnew⟩
          · exact Or.inr ⟨x, List.mem_cons_of_mem _ hx, h⟩
    · exact hskip

/-! ## The invariant -/

/-- The route is stored with bfd enabled and lists the next hop on its interface. -/
def UsesOn (env : Env) (s : State) (r : String) (nh : Nexthop) : Prop :=
  bfdEnabled env (s.config.getD r []) = true ∧ nh ∈ storedNexthops (s.config.getD r [])

/-- An entry of the pending table waits for the interface of a route that uses the next hop. -/
def PendingOn (env : Env) (s : State) (p : String × String) : Prop :=
  ∃ e ∈ s.bfdPending, e.2.2.2 = bfdKey p ∧
    ∃ r nh, UsesOn env s r nh ∧ nh.pair = p ∧ nh.ifname = e.2.1

/-- No session without a next hop in use, and no next hop in use that is forgotten. -/
structure SessInv (env : Env) (s : State) : Prop where
  owned : ∀ b, s.applBfd.get? b ≠ none → ∃ r p, bfdEnabled env (s.config.getD r []) = true ∧
    p ∈ storedPairs (s.config.getD r []) ∧ bfdKey p = b
  covered : ∀ r p, bfdEnabled env (s.config.getD r []) = true →
    p ∈ storedPairs (s.config.getD r []) →
    s.bfd.getD (bfdKey p) [] ≠ [] ∨ PendingOn env s p
  form : ∀ e ∈ s.bfdPending, PendingForm e

theorem sessInv_init (env : Env) : SessInv env init where
  owned b h := absurd rfl h
  covered r p h := by
    rw [show init.config.getD r [] = [] from rfl, bfdEnabled_nil] at h
    exact absurd h (by simp)
  form e h := absurd h List.not_mem_nil

theorem SameRoute.usesOn {env : Env} {s s' : State} {r : String} {nh : Nexthop}
    (h : SameRoute env (s.config.getD r []) (s'.config.getD r [])) (hu : UsesOn env s r nh) :
    UsesOn env s' r nh := by
  obtain ⟨hb, hm⟩ := hu
  refine ⟨h.enabled.trans hb, ?_⟩
  unfold storedNexthops at hm ⊢
  rw [h.lists _ (by decide), h.lists _ (by decide), h.lists _ (by decide)]
  exact hm

theorem SessInv.congr {env : Env} {s s' : State} (hs : SessInv env s)
    (hc : ∀ r, SameRoute env (s.config.getD r []) (s'.config.getD r []))
    (hbfd : ∀ b, s.bfd.getD b [] ≠ [] → s'.bfd.getD b [] ≠ [])
    (happl : s'.applBfd = s.applBfd) (hpend : s'.bfdPending = s.bfdPending) :
    SessInv env s' := by
  refine ⟨fun b hb => ?_, fun r p hb hp => ?_, fun e he => hs.form e (hpend ▸ he)⟩
  · rw [happl] at hb
    obtain ⟨r, p, h1, h2, h3⟩ := hs.owned b hb
    exact ⟨r, p, (hc r).enabled.trans h1, (hc r).storedPairs_eq ▸ h2, h3⟩
  · rw [(hc r).enabled] at hb
    rw [(hc r).storedPairs_eq] at hp
    refine (hs.covered r p hb hp).imp (hbfd _) ?_
    rintro ⟨e, he, hk, x, nh, hu, h⟩
    exact ⟨e, hpend ▸ he, hk, x, nh, (hc x).usesOn hu, h⟩

/-! ## Giving up next hops -/

/-- Some entry waits for an interface on which the next hop stays in use when `r` goes on
    with the next hops `new`. -/
def StillPending (s : State) (r : String) (new : List Nexthop) (p : String × String) : Prop :=
  ∃ e ∈ s.bfdPending, e.2.2.2 = bfdKey p ∧
    ((∃ nh ∈ new, nh.pair = p ∧ nh.ifname = e.2.1) ∨
      ∃ y ∈ s.nexthop.getD (nhKey p) [], y ≠ r ∧
        ∃ nh ∈ storedNexthops (s.config.getD y []), nh.pair = p ∧ nh.ifname = e.2.1)

instance (s : State) (r : String) (new : List Nexthop) (p : String × String) :
    Decidable (StillPending s r new p) :=
  inferInstanceAs (Decidable (∃ e ∈ _, _ ∧ ((∃ nh ∈ _, _) ∨ ∃ y ∈ _, _ ∧ ∃ nh ∈ _, _)))

/-- A next hop that `r` gives up and another route uses has a session or a pending entry that
    is not the one of `r`. -/
def ReleaseOk (s : State) (r : String) (new : List Nexthop) (L : List (String × String)) : Prop :=
  ∀ p ∈ L, (∃ y ∈ s.nexthop.getD (nhKey p) [], y ≠ r) →
    s.bfd.getD (bfdKey p) [] ≠ [] ∨ StillPending s r new p

instance (s : State) (r : String) (new : List Nexthop) (L : List (String × String)) :
    Decidable (ReleaseOk s r new L) :=
  inferInstanceAs (Decidable (∀ p ∈ _, (∃ y ∈ _, _) → _ ∨ _))

section Release

variable {env : Env} {s : State} {r : String} {L : List (String × String)}

/-- A session that is left after `r` has given up the next hops `L` is in use. -/
theorem SessInv.owned_release (hs : SessInv env s) (hi : IndexInv env s) {b : String}
    (h : (L.foldl (releaseNexthop r) s).applBfd.get? b ≠ none) :
    ∃ x p, bfdEnabled env (s.config.getD x []) = true ∧ p ∈ storedPairs (s.config.getD x []) ∧
      bfdKey p = b ∧ (x ≠ r ∨ p ∉ L) := by
  obtain ⟨x, p, hb, hp, rfl⟩ := hs.owned b fun hnone => h (foldl_release_none.2 hnone)
  by_cases hx : x = r
  · by_cases hL : p ∈ L
    · -- given up by `r`: the session goes with the last route, so another route is left
      have hno : ¬ Orphaned s r p := fun ho => h (foldl_release_gone hL ho).2
      unfold Orphaned at hno
      push Not at hno
      obtain ⟨y, hy, hyr⟩ := hno
      obtain ⟨hyb, hyp⟩ := (hi.mem_iff p y).1 hy
      exact ⟨y, p, hyb, hyp, rfl, Or.inl hyr⟩
    · exact ⟨x, p, hb, hp, rfl, Or.inr hL⟩
  · exact ⟨x, p, hb, hp, rfl, Or.inl hx⟩

/-- A next hop that some route goes on using keeps its session, or an entry that waits for an
    interface of a route that goes on using it. -/
theorem SessInv.covered_release (hs : SessInv env s) (hi : IndexInv env s)
    {new : List Nexthop} (hL : ∀ q ∈ L, PlainPair q)
    (hkeep : ∀ nh, UsesOn env s r nh → nh ∈ new ∨ nh.pair ∈ L)
    (hok : ReleaseOk s r new L) {z : String} {p : String × String}
    (hz : z ∈ s.nexthop.getD (nhKey p) []) (hzr : ¬ (z = r ∧ p ∈ L)) :
    (L.foldl (releaseNexthop r) s).bfd.getD (bfdKey p) [] ≠ [] ∨
      ∃ e ∈ s.bfdPending, e.2.2.2 = bfdKey p ∧
        ((∃ nh ∈ new, nh.pair = p ∧ nh.ifname = e.2.1) ∨
          ∃ y nh, y ≠ r ∧ UsesOn env s y nh ∧ nh.pair = p ∧ nh.ifname = e.2.1) := by
  obtain ⟨hb, hp⟩ := (hi.mem_iff p z).1 hz
  have hplain := hi.plain z hb p hp
  have hkept : s.bfd.getD (bfdKey p) [] ≠ [] →
      (L.foldl (releaseNexthop r) s).bfd.getD (bfdKey p) [] ≠ [] := by
    have h := (foldl_release_kept (r := r) (L := L) (s := s) (b := bfdKey p) fun q hq ho hk => by
      obtain rfl := bfdKey_inj (hL q hq) hplain hk
      exact hzr ⟨ho z hz, hq⟩).1
    rw [Dict.getD_congr _ h]
    exact id
  rcases hs.covered z p hb hp with h | ⟨e, he, hk, x, nh, hu, rfl, hif⟩
  · exact Or.inl (hkept h)
  · by_cases hx : x = r
    · subst hx
      rcases hkeep nh hu with hnew | hdrop
      · exact Or.inr ⟨e, he, hk, Or.inl ⟨nh, hnew, rfl, hif⟩⟩
      · have hzx : z ≠ x := fun h => hzr ⟨h, hdrop⟩
        rcases hok _ hdrop ⟨z, hz, hzx⟩ with
          h | ⟨e', he', hk', hnew | ⟨y, hy, hyr, nh', hm, hp', hi'⟩⟩
        · exact Or.inl (hkept h)
        · exact Or.inr ⟨e', he', hk', Or.inl hnew⟩
        · exact Or.inr ⟨e', he', hk',
            Or.inr ⟨y, nh', hyr, ⟨((hi.mem_iff _ y).1 hy).1, hm⟩, hp', hi'⟩⟩
    · exact Or.inr ⟨e, he, hk, Or.inr ⟨x, nh, hx, hu, rfl, hif⟩⟩

end Release

/-! ## Events -/

/-- Some route stored with bfd enabled has a next hop with this session. -/
def UsedKey (env : Env) (s : State) (b : String) : Prop :=
  ∃ r ∈ s.config.keys, bfdEnabled env (s.config.getD r []) = true ∧
    ∃ p ∈ storedPairs (s.config.getD r []), bfdKey p = b

instance (env : Env) (s : State) (b : String) : Decidable (UsedKey env s b) :=
  inferInstanceAs (Decidable (∃ r ∈ _, _ ∧ ∃ p ∈ _, _))

/-- The side condition of `sessions_of_run`: plain names, also of interfaces; an interface
    gets an address only while the next hops pending on it are in use; next hops are given
    up as `ReleaseOk` says. -/
def SessOk (env : Env) (s : State) (e : Event) : Prop :=
  NamesOk env s e ∧
    match e with
    | .interfaceSet key =>
      ∀ q ∈ getIpFromKey env key, ∀ entry ∈ s.bfdPending, entry.2.1 = q.2.1 →
        UsedKey env s entry.2.2.2
    | .staticRouteSet key data =>
      (∀ u ∈ acceptedUpdate env s key data, (∀ nh ∈ u.nexthops, '_' ∉ nh.ifname.toList) ∧
        ReleaseOk s u.route u.nexthops (droppedPairs env s u.vrf u.route u.nexthops)) ∧
      (¬ bfdEnabled env (lowerNexthop env data) → ∀ q ∈ routeOf env key,
        bfdEnabled env (s.config.getD (routeCfgKey q.1 q.2) []) →
          ReleaseOk s (routeCfgKey q.1 q.2) []
            (storedPairs (s.config.getD (routeCfgKey q.1 q.2) [])))
    | .staticRouteDel key =>
      ∀ q ∈ routeOf env key, bfdEnabled env (s.config.getD (routeCfgKey q.1 q.2) []) →
        ReleaseOk s (routeCfgKey q.1 q.2) []
          (storedPairs (s.config.getD (routeCfgKey q.1 q.2) []))
    | _ => True

instance (env : Env) (s : State) (e : Event) : Decidable (SessOk env s e) :=
  match e with
  | .interfaceSet _ => inferInstanceAs (Decidable (_ ∧ ∀ q ∈ _, ∀ entry ∈ _, _ → _))
  | .staticRouteSet _ _ =>
    inferInstanceAs (Decidable (_ ∧ (∀ u ∈ _, (∀ nh ∈ _, _) ∧ _) ∧ (_ → ∀ q ∈ _, _ → _)))
  | .staticRouteDel _ => inferInstanceAs (Decidable (_ ∧ ∀ q ∈ _, _ → _))
  | .interfaceDel _ | .bfdStateSet _ _ | .bfdStateDel _ =>
    inferInstanceAs (Decidable (_ ∧ True))

section Events

variable {env : Env} {s s' : State}

theorem SessInv.interfaceSet {key : String} (hs : SessInv env s)
    (hok : ∀ q ∈ getIpFromKey env key, ∀ e ∈ s.bfdPending, e.2.1 = q.2.1 →
      UsedKey env s e.2.2.2) : SessInv env (interfaceSetHandler env s key) := by
  unfold interfaceSetHandler
  split
  · exact hs
  · next isIpv4 ifName ip hq =>
    dsimp only
    unfold updateBfdPending
    dsimp only
    have hfire := FireSpec.foldl env ifName s.bfdPending
      ({ s with interface := s.interface.set ifName ((s.interface.getD ifName []).set isIpv4 ip) },
        [])
    obtain ⟨b, a, l, hf⟩ := foldl_updateBfdPendingItem_frame env ifName s.bfdPending
      ({ s with interface := s.interface.set ifName ((s.interface.getD ifName []).set isIpv4 ip) },
        [])
    rw [hf] at hfire ⊢
    obtain ⟨happl, hbfd, hfired⟩ := hfire
    dsimp only at happl hbfd hfired
    refine ⟨fun k hk => ?_, fun r p hb hp => ?_, fun e he => ?_⟩
    · rcases happl k hk with h | ⟨e, he, hif, rfl⟩
      · exact hs.owned k h
      · obtain ⟨r, _, hb, p, hp, hk⟩ := hok _ hq e he hif
        exact ⟨r, p, hb, hp, hk⟩
    · rcases hs.covered r p hb hp with h | ⟨e, he, hk, x, nh, hu, h⟩
      · exact Or.inl (hbfd _ h)
      · by_cases hdel : e.1 ∈ l
        · -- the entry is deleted because its session has been created
          rcases hfired _ hdel with h | ⟨e', he', hkey, hsess⟩
          · exact absurd h List.not_mem_nil
          · rw [((hs.form e' he').inj (hs.form e he) hkey).2, hk] at hsess
            exact Or.inl hsess
        · exact Or.inr ⟨e, (Dict.mem_foldl_erase _ _ _).2 ⟨he, hdel⟩, hk, x, nh, hu, h⟩
    · exact hs.form e ((Dict.mem_foldl_erase _ _ _).1 he).1

/-- A route that is cleared and stored without bfd, or not stored any more. -/
theorem SessInv.clear (hs : SessInv env s) (hi : IndexInv env s) {x : String}
    {config : Dict String Data} (hb : bfdEnabled env (s.config.getD x []))
    (hok : ReleaseOk s x [] (storedPairs (s.config.getD x [])))
    (hcfg : ∀ r, r ≠ x → config.getD r [] = s.config.getD r [])
    (hoff : bfdEnabled env (config.getD x []) = false) :
    SessInv env { cleared s x with config := config } := by
  obtain ⟨n, b, a, hf⟩ := foldl_release_frame x (storedPairs (s.config.getD x [])) s
  have hpend : (cleared s x).bfdPending = s.bfdPending := by
    unfold cleared
    rw [hf]
  have hne : ∀ r, bfdEnabled env (config.getD r []) = true → r ≠ x := by
    rintro r h rfl
    rw [hoff] at h
    exact absurd h (by simp)
  refine ⟨fun k hk => ?_, fun r p hbr hp => ?_, fun e he => hs.form e (hpend ▸ he)⟩
  · obtain ⟨r, p, hbr, hp, hkey, hor⟩ := hs.owned_release hi hk
    have hrx : r ≠ x := by
      rintro rfl
      rcases hor with h | h
      · exact h rfl
      · exact h hp
    refine ⟨r, p, ?_, ?_, hkey⟩ <;> dsimp only <;> rw [hcfg r hrx]
    · exact hbr
    · exact hp
  · have hrx := hne r hbr
    dsimp only at hbr hp
    rw [hcfg r hrx] at hbr hp
    have hkeep : ∀ nh, UsesOn env s x nh → nh ∈ ([] : List Nexthop) ∨
        nh.pair ∈ storedPairs (s.config.getD x []) := by
      intro nh hu
      right
      rw [(hi.lists x hb).storedPairs_eq]
      exact List.mem_map_of_mem hu.2
    rcases hs.covered_release hi (fun q hq => hi.plain x hb q hq) hkeep hok
      ((hi.mem_iff p r).2 ⟨hbr, hp⟩) (fun h => hrx h.1) with
      h | ⟨e, he, hk, ⟨nh, hm, _⟩ | ⟨y, nh, hyx, hu, h⟩⟩
    · exact Or.inl h
    · exact absurd hm List.not_mem_nil
    · refine Or.inr ⟨e, hpend ▸ he, hk, y, nh, ?_, h⟩
      unfold UsesOn
      dsimp only
      rw [hcfg y hyx]
      exact hu

theorem SessInv.of_listed (hs : SessInv env s) (hi : IndexInv env s) {u : Update}
    (hacc : Accepted env s u) (hplain : ∀ nh ∈ u.nexthops, PlainPair nh.pair)
    (hif : ∀ nh ∈ u.nexthops, '_' ∉ nh.ifname.toList)
    (hok : ReleaseOk s u.route u.nexthops (droppedPairs env s u.vrf u.route u.nexthops)) :
    SessInv env (listed env s u) := by
  obtain ⟨n, b, a, hf⟩ := foldl_release_frame u.route
    (droppedPairs env s u.vrf u.route u.nexthops) s
  have hform : ∀ e ∈ (released s u.route
      (droppedPairs env s u.vrf u.route u.nexthops)).bfdPending, PendingForm e := by
    unfold released
    rw [hf]
    exact hs.form
  have hadd : AddSpec _ (listed env s u) u.nexthops := AddSpec.foldl env u.route
    (t := { released s u.route (droppedPairs env s u.vrf u.route u.nexthops) with
      config := s.config.set u.route u.data }) hform hif hplain
  have hpairs := hacc.storedPairs_eq hplain
  have hnexthops := (hacc.stored hplain).2
  have hne : ∀ {x : String}, x ≠ u.route →
      (listed env s u).config.getD x [] = s.config.getD x [] := by
    intro x hx
    rw [listed_config, Dict.getD_set_ne _ _ _ (Ne.symm hx)]
  have hself : (listed env s u).config.getD u.route [] = u.data := by
    rw [listed_config, Dict.getD_set_self]
  have hnew : ∀ nh ∈ u.nexthops, UsesOn env (listed env s u) u.route nh := by
    intro nh hm
    unfold UsesOn
    rw [hself, hnexthops]
    exact ⟨hacc.enabled, hm⟩
  -- a next hop that some route goes on using is covered by what it had before
  have hold : ∀ z p, z ∈ s.nexthop.getD (nhKey p) [] →
      ¬ (z = u.route ∧ p ∈ droppedPairs env s u.vrf u.route u.nexthops) →
      (listed env s u).bfd.getD (bfdKey p) [] ≠ [] ∨ PendingOn env (listed env s u) p := by
    intro z p hz hzr
    have hkeep : ∀ nh, UsesOn env s u.route nh → nh ∈ u.nexthops ∨
        nh.pair ∈ droppedPairs env s u.vrf u.route u.nexthops := by
      intro nh hu
      by_cases hm : nh ∈ u.nexthops
      · exact Or.inl hm
      · exact Or.inr ((hi.mem_droppedPairs _ _ _ _).2 ⟨hu.1, nh, hu.2, hm, rfl⟩)
    rcases hs.covered_release hi (fun q hq => (hi.plain_of_dropped hq).2.2) hkeep hok hz hzr with
      h | ⟨e, he, hk, hcase⟩
    · exact Or.inl (hadd.bfd _ h)
    · have he' : e ∈ (released s u.route
          (droppedPairs env s u.vrf u.route u.nexthops)).bfdPending := by
        unfold released
        rw [hf]
        exact he
      obtain ⟨e₁, he₁, hi₁, hb₁⟩ := hadd.pend e he'
      right
      rcases hcase with ⟨nh, hm, hp, hifn⟩ | ⟨y, nh, hy, hu, hp, hifn⟩
      · exact ⟨e₁, he₁, hb₁.trans hk, u.route, nh, hnew nh hm, hp, hifn.trans hi₁.symm⟩
      · refine ⟨e₁, he₁, hb₁.trans hk, y, nh, ?_, hp, hifn.trans hi₁.symm⟩
        unfold UsesOn
        rw [hne hy]
        exact hu
  refine ⟨fun k hk => ?_, fun x p hb hp => ?_, hadd.form⟩
  · rcases hadd.appl k hk with h | ⟨nh, hm, rfl⟩
    · obtain ⟨x, p, hb, hp, hkey, hor⟩ := hs.owned_release hi h
      by_cases hx : x = u.route
      · subst hx
        have hnd : p ∉ droppedPairs env s u.vrf u.route u.nexthops :=
          hor.resolve_left fun h => h rfl
        refine ⟨u.route, p, ?_, ?_, hkey⟩ <;> rw [hself]
        · exact hacc.enabled
        · rw [hpairs]
          exact hi.listed_of_not_dropped hb hp hnd
      · refine ⟨x, p, ?_, ?_, hkey⟩ <;> rw [hne hx]
        · exact hb
        · exact hp
    · refine ⟨u.route, nh.pair, ?_, ?_, rfl⟩ <;> rw [hself]
      · exact hacc.enabled
      · rw [hpairs]
        exact List.mem_map_of_mem hm
  · by_cases hx : x = u.route
    · rw [hx, hself, hpairs] at hp
      obtain ⟨nh, hm, rfl⟩ := List.mem_map.1 hp
      rcases hadd.listed nh hm with h | ⟨e, he, hk, nh', hm', hp', hifn⟩ | h
      · exact Or.inl h
      · exact Or.inr ⟨e, he, hk, u.route, nh', hnew nh' hm', hp', hifn⟩
      · obtain ⟨z, hz⟩ := List.exists_mem_of_ne_nil _ h
        obtain ⟨hz, hzr⟩ := (mem_foldl_release _ _ _ _ _).1 hz
        exact hold z _ hz fun hd => hzr ⟨hd.1, List.mem_map_of_mem hd.2⟩
    · rw [hne hx] at hb hp
      exact hold x p ((hi.mem_iff p x).2 ⟨hb, hp⟩) fun h => hx h.1

theorem SessInv.update (hs : SessInv env s) (hi : IndexInv env s) {u : Update}
    (hacc : Accepted env s u) (hplain : ∀ nh ∈ u.nexthops, PlainPair nh.pair)
    (hif : ∀ nh ∈ u.nexthops, '_' ∉ nh.ifname.toList)
    (hok : ReleaseOk s u.route u.nexthops (droppedPairs env s u.vrf u.route u.nexthops))
    (h : updateBfdRoute env s u.vrf u.route u.data u.nexthops = some s') : SessInv env s' := by
  have hl := hs.of_listed hi hacc hplain hif hok
  obtain ⟨pairs, _, ⟨_, rfl⟩ | ⟨_, e, srt, config, _, hcfg, _, rfl⟩⟩ := update_cases h
  · exact hl
  · refine hl.congr (fun r => ?_) (fun _ h => h) rfl rfl
    rw [listed_config]
    dsimp only
    rw [hcfg, Dict.getD_set]
    split
    · exact SameRoute.set_hold env _ _
    · exact SameRoute.refl env _

/-- Storing or deleting a route without bfd, which uses nothing. -/
theorem SessInv.store (hs : SessInv env s) {x : String} {config : Dict String Data}
    {t : Dict String (List (String × String))} (hx : ¬ bfdEnabled env (s.config.getD x []))
    (hcfg : ∀ r, r ≠ x → config.getD r [] = s.config.getD r [])
    (hoff : bfdEnabled env (config.getD x []) = false) :
    SessInv env { s with config := config, srt := t } := by
  have hsame : ∀ r, bfdEnabled env (s.config.getD r []) = true →
      config.getD r [] = s.config.getD r [] := by
    intro r hb
    exact hcfg r fun hrx => hx (hrx ▸ hb)
  refine ⟨fun b hb => ?_, fun r p hb hp => ?_, hs.form⟩
  · obtain ⟨r, p, hbr, hp, hk⟩ := hs.owned b hb
    exact ⟨r, p, by rw [hsame r hbr]; exact hbr, by rw [hsame r hbr]; exact hp, hk⟩
  · have hrx : r ≠ x := by
      rintro rfl
      rw [hoff] at hb
      exact absurd hb (by simp)
    dsimp only at hb hp
    rw [hcfg r hrx] at hb hp
    refine (hs.covered r p hb hp).imp_right ?_
    rintro ⟨e, he, hk, y, nh, hu, h⟩
    refine ⟨e, he, hk, y, nh, ?_, h⟩
    unfold UsesOn
    dsimp only
    rw [hsame y hu.1]
    exact hu

theorem SessInv.del {key : String} (hs : SessInv env s) (hi : IndexInv env s)
    (hok : SessOk env s (.staticRouteDel key)) :
    SessInv env (staticRouteDelHandler env s key true) := by
  rcases del_cases env s key with h | ⟨vrf, p, _, hb, h⟩ | ⟨vrf, p, hr, hb, h⟩ <;> rw [h]
  · exact hs
  · refine hs.store hb (fun r hne => Dict.getD_erase_ne _ _ (Ne.symm hne)) ?_
    rw [Dict.getD_erase_self, bfdEnabled_nil]
  · refine hs.clear hi hb (hok.2 (vrf, p) hr hb)
      (fun r hne => Dict.getD_erase_ne _ _ (Ne.symm hne)) ?_
    rw [Dict.getD_erase_self, bfdEnabled_nil]

theorem SessInv.set {key : String} {data : Data} (hs : SessInv env s) (hi : IndexInv env s)
    (hok : SessOk env s (.staticRouteSet key data))
    (h : staticRouteSetHandler env s key data = some s') : SessInv env s' := by
  obtain ⟨hnames, hacc, hoff⟩ := hok
  rcases set_cases h with rfl | ⟨vrf, p, d, _, hd, hb, rfl⟩ | ⟨vrf, p, d, hr, hd, hnb, hb, rfl⟩ |
    ⟨vrf, p, _, _, rfl⟩ | ⟨u, p, hu, _, _, hupd⟩
  · exact hs
  · refine hs.store hb (fun r hne => Dict.getD_set_ne _ _ _ (Ne.symm hne)) ?_
    rw [Dict.getD_set_self, hd]
  · refine hs.clear hi hb (hoff hnb (vrf, p) hr hb)
      (fun r hne => Dict.getD_set_ne _ _ _ (Ne.symm hne)) ?_
    rw [Dict.getD_set_self, hd]
  · obtain ⟨a, hbefore, _⟩ := beforeUpdate_frame env s (routeCfgKey vrf p) data
    rw [hbefore]
    exact ⟨hs.owned, hs.covered, hs.form⟩
  · obtain ⟨a, hbefore, _⟩ := beforeUpdate_frame env s u.route data
    rw [hbefore] at hupd
    have hs' : SessInv env { s with applRoute := a } := ⟨hs.owned, hs.covered, hs.form⟩
    have hi' : IndexInv env { s with applRoute := a } := ⟨hi.lists, hi.plain, hi.index⟩
    obtain ⟨h1, h2, h3, h4⟩ := acceptedUpdate_spec hu
    exact hs'.update hi' ⟨h1, h2, h3, h4⟩ (hnames u hu) (hacc u hu).1 (hacc u hu).2 hupd

theorem SessInv.step {e : Event} (hs : SessInv env s) (hi : IndexInv env s)
    (hok : SessOk env s e) (h : Step env s e s') : SessInv env s' := by
  have hsame : ∀ r, SameRoute env (s.config.getD r []) (s.config.getD r []) :=
    fun _ => SameRoute.refl env _
  obtain ⟨order, _, h⟩ := h
  cases e with
  | interfaceSet key =>
    rw [← Option.some.inj h]
    exact hs.interfaceSet hok.2
  | interfaceDel key =>
    obtain ⟨i, hf⟩ := interfaceDel_frame env s key
    rw [← Option.some.inj h, hf]
    exact ⟨hs.owned, hs.covered, hs.form⟩
  | staticRouteSet key data => exact hs.set hi hok h
  | staticRouteDel key =>
    rw [← Option.some.inj h]
    exact hs.del hi hok
  | bfdStateSet key data =>
    -- a report changes the state of a session, never whether there is one
    have hset : ∀ b (d : Data), d ≠ [] → ∀ b', s.bfd.getD b' [] ≠ [] →
        (s.bfd.set b d).getD b' [] ≠ [] := by
      intro b d hd b' hb'
      rw [Dict.getD_set]
      split
      · exact hd
      · exact hb'
    obtain ⟨vrf, intf, peerIp, _, ⟨_, rfl⟩ | ⟨_, s₁, rfl, ⟨_, h⟩ | ⟨_, _, h⟩ | ⟨_, _, rfl⟩⟩⟩ :=
      bfdSet_cases h
    · exact hs
    · have hr := foldlM_up_republished env h
      refine hs.congr hr.routes (fun b hb => ?_) (by rw [hr.frame]) (by rw [hr.frame])
      rw [hr.bfd_eq]
      exact hset _ _ (Dict.set_ne_nil _ _ _) b hb
    · obtain ⟨t, a, rfl, _⟩ := foldlM_down h
      exact hs.congr hsame (hset _ _ (Dict.set_ne_nil _ _ _)) rfl rfl
    · exact hs.congr hsame (hset _ _ (Dict.set_ne_nil _ _ _)) rfl rfl
  | bfdStateDel key =>
    obtain ⟨q, _, h⟩ := Option.bind_eq_some_iff.1 h
    obtain ⟨t, a, rfl, _⟩ := foldlM_del h
    exact ⟨hs.owned, hs.covered, hs.form⟩

end Events

/-- In every run from the empty daemon whose events meet `SessOk`, every session in APPL_DB is
    the session of a next hop that a route stored with bfd enabled uses, and every such next
    hop has a session or a pending entry for the interface of a route that uses it. -/
theorem sessions_of_run (env : Env) {es : List Event} {s : State}
    (hrun : Run (Step env) (SessOk env) init es s) :
    (∀ b, s.applBfd.get? b ≠ none → ∃ r p, bfdEnabled env (s.config.getD r []) = true ∧
      p ∈ storedPairs (s.config.getD r []) ∧ bfdKey p = b) ∧
    (∀ r p, bfdEnabled env (s.config.getD r []) = true → p ∈ storedPairs (s.config.getD r []) →
      s.bfd.getD (bfdKey p) [] ≠ [] ∨ PendingOn env s p) := by
  have hinv : IndexInv env s ∧ SessInv env s :=
    hrun.invariant (P := fun t => IndexInv env t ∧ SessInv env t)
      (fun _ _ _ hs hok h => ⟨hs.1.step hok.1 h, hs.2.step hs.1 hok h⟩)
      ⟨indexInv_init env, sessInv_init env⟩
  exact ⟨hinv.2.owned, hinv.2.covered⟩

/-- A route on an interface without an address, then the address. -/
def pendingRun : List Event :=
  [.staticRouteSet "1.1.1.0/24" [("nexthop", "10.0.0.1"), ("ifname", "Ethernet0"), ("bfd", "true")],
    .interfaceSet "Ethernet0|10.0.0.0/31"]

theorem sessions_pendingRun :
    ∃ s, Run (Step ipv4Env) (SessOk ipv4Env) init pendingRun s ∧
      ∃ r p, bfdEnabled ipv4Env (s.config.getD r []) = true ∧
        p ∈ storedPairs (s.config.getD r []) ∧ bfdKey p = "default:default:10.0.0.1" := by
  have hend : ∃ s, Run (Step ipv4Env) (SessOk ipv4Env) init pendingRun s ∧
      s.applBfd.get? "default:default:10.0.0.1" ≠ none :=
    exists_run step_of_handle (by decide +kernel)
  obtain ⟨s, hrun, hsess⟩ := hend
  exact ⟨s, hrun, (sessions_of_run ipv4Env hrun).1 _ hsess⟩

/-- The route is deleted before its interface gets an address: the pending entry stays and
    creates a session that no route uses. -/
theorem orphan_session_after_delete :
    ∃ s, Run (Step ipv4Env) (fun _ _ => True) init
        [.staticRouteSet "1.1.1.0/24"
            [("nexthop", "10.0.0.1"), ("ifname", "Ethernet0"), ("bfd", "true")],
          .staticRouteDel "1.1.1.0/24", .interfaceSet "Ethernet0|10.0.0.0/31"] s ∧
      s.applBfd.get? "default:default:10.0.0.1" ≠ none ∧ s.config = [] :=
  exists_run step_of_handle (by decide +kernel)

end SonicBuildimage.StaticRouteBfd
