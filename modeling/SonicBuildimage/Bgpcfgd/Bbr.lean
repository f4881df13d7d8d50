/-
  `allowas-in` of the general peer groups: `BBRMgr` (managers_bbr.py) and the peer-group template
  that `add_peer` (managers_bgp.py) renders, on a LeafRouter.

  Model.  FRR as its peer groups and the `allowas-in` settings by address family; the commands that
  wait for a commit.  `status` is `CONFIG_DB__BGP_BBR['status']` in the directory.  The last status
  that was accepted is kept beside the code's state.  An addition of a peer is one that reaches the
  templates, in the default VRF; the commands of the other templates do not touch `allowas-in`.

  Proved: `bbr_of_run`.  If a peer is added only while the last status is the one in the directory
  (or the directory says disabled and the groups are there), and a status is set only while the
  groups are in FRR (or it is the one in the directory, or no group waits for a commit), then after
  every commit the general groups have `allowas-in` exactly if the last status is enabled.
  `set_handler` does not write the status to the directory, so a later peer renders the default, and
  a status that is set before the groups exist is lost (`status_lost`).
-/
import SonicBuildimage.Lib.PyDict
import SonicBuildimage.Lib.PyStr
import SonicBuildimage.Lib.Run
import Mathlib.Data.List.Sort

namespace SonicBuildimage.Bgpcfgd.Bbr

open SonicBuildimage.Lib

inductive Status
  | enabled
  | disabled
  deriving DecidableEq

/-- Lines of a change; what concerns neither groups nor `allowas-in` is `other`. -/
inductive Cmd
  | routerBgp (asn : String)
  | addressFamily (af : String)
  | exitAddressFamily
  | peerGroup (name : String)
  | allowasIn (status : Status) (name : String)
  | other (line : String)
  deriving DecidableEq

/-- FRR: the peer groups, the groups with `allowas-in 1` by address family, and the family whose
    commands are read. -/
structure Frr where
  groups : List String := []
  allowas : List (String × String) := []
  af : String := ""
  deriving DecidableEq

/-- A command; `allowas-in` of a group that is not there is rejected. -/
def Frr.apply (f : Frr) : Cmd → Frr
  | .routerBgp _ | .exitAddressFamily => { f with af := "" }
  | .addressFamily af => { f with af := af }
  | .peerGroup name => { f with groups := setAdd f.groups name }
  | .allowasIn .enabled name =>
    if name ∈ f.groups then { f with allowas := setAdd f.allowas (f.af, name) } else f
  | .allowasIn .disabled name => { f with allowas := setDiscard f.allowas (f.af, name) }
  | .other _ => f

def Frr.run (f : Frr) (cmds : List Cmd) : Frr := cmds.foldl Frr.apply f

/-- The constants: `bgp_asn` of the device, the peer groups with BBR and their families. -/
structure Env where
  asn : String
  bbrEnabledPgs : Dict String (List String)

/-- The commands of `general/peer-group.conf.j2` on a LeafRouter, for one group. -/
def groupTemplate (status : Status) (af group rmIn rmOut : String) : List Cmd :=
  [.addressFamily af] ++ (if status = .enabled then [.allowasIn .enabled group] else []) ++
    [.other ("neighbor " ++ group ++ " soft-reconfiguration inbound"),
      .other ("neighbor " ++ group ++ " route-map " ++ rmIn ++ " in"),
      .other ("neighbor " ++ group ++ " route-map " ++ rmOut ++ " out"), .exitAddressFamily]

/-- `update_pg`: the template under `router bgp`. -/
def pgTemplate (env : Env) (status : Status) : List Cmd :=
  [.routerBgp env.asn, .peerGroup "PEER_V4", .peerGroup "PEER_V6"] ++
    groupTemplate status "ipv4" "PEER_V4" "FROM_BGP_PEER_V4" "TO_BGP_PEER_V4" ++
    groupTemplate status "ipv6" "PEER_V6" "FROM_BGP_PEER_V6" "TO_BGP_PEER_V6"

/-- The groups that `__set_prepare_config` configures in a family. -/
def configured (env : Env) (available : List String) (af : String) : List String :=
  ((Dict.keys env.bbrEnabledPgs).insertionSort (· ≤ ·)).flatMap fun pgName =>
    available.filter fun group =>
      startswith group pgName ∧ af ∈ Dict.getD env.bbrEnabledPgs pgName []

/-- `__set_prepare_config` -/
def setPrepareConfig (env : Env) (available : List String) (status : Status) : List Cmd :=
  .routerBgp env.asn :: ["ipv4", "ipv6"].flatMap fun af =>
    .addressFamily af :: (configured env available af).map fun group => .allowasIn status group

/-- `__set_validation`: the status that is accepted. -/
def setValidation (key : String) (data : Dict String String) : Option Status :=
  if key ≠ "all" then none
  else match Dict.get? data "status" with
    | some "enabled" => some .enabled
    | some "disabled" => some .disabled
    | _ => none

structure State where
  frr : Frr
  changes : List Cmd := []
  /-- `status` in the directory -/
  status : Status
  /-- the last status that was accepted -/
  last : Status

inductive Event
  | setBbr (key : String) (data : Dict String String)
  /-- a peer, with the lines of the policy and of the peer itself -/
  | addPeer (policy peer : List String)
  | commit

def step (env : Env) (s : State) : Event → State
  | .setBbr key data =>
    match setValidation key data with
    | none => s
    | some status =>
      { s with changes := s.changes ++ setPrepareConfig env s.frr.groups status, last := status }
  | .addPeer policy peer =>
    { s with changes := s.changes ++ (policy.map .other ++ pgTemplate env s.status ++
        (.routerBgp env.asn :: peer.map .other)) }
  | .commit => { s with frr := s.frr.run s.changes, changes := [] }

def Step (env : Env) (s : State) (e : Event) (s' : State) : Prop := step env s e = s'

/-- FRR has both general groups. -/
def Frr.HasGroups (f : Frr) : Prop := "PEER_V4" ∈ f.groups ∧ "PEER_V6" ∈ f.groups

/-- FRR has none of them. -/
def Frr.NoGroups (f : Frr) : Prop := "PEER_V4" ∉ f.groups ∧ "PEER_V6" ∉ f.groups

/-- What FRR is after the next commit. -/
def State.target (s : State) : Frr := s.frr.run s.changes

/-- When events keep the setting and the status together. -/
def InOrder (s : State) : Event → Prop
  | .setBbr key data => ∀ status, setValidation key data = some status →
      s.frr.HasGroups ∨ status = s.status ∨ s.target.NoGroups
  | .addPeer _ _ => s.last = s.status ∨ (s.status = .disabled ∧ s.target.HasGroups)
  | .commit => True

/-! ### What the commands do -/

theorem run_append (f : Frr) (cs cs' : List Cmd) : f.run (cs ++ cs') = (f.run cs).run cs' :=
  List.foldl_append

theorem run_others (f : Frr) (lines : List String) : f.run (lines.map .other) = f := by
  induction lines with
  | nil => rfl
  | cons line lines ih => exact ih

theorem mem_groups_run {f : Frr} {name : String} (h : name ∈ f.groups) (cs : List Cmd) :
    name ∈ (f.run cs).groups := by
  induction cs generalizing f with
  | nil => exact h
  | cons c cs ih =>
    refine ih ?_
    cases c with
    | peerGroup n => exact (mem_setAdd _ _ _).2 (.inl h)
    | allowasIn status n =>
      cases status with
      | enabled =>
        simp only [Frr.apply]
        split
        · exact h
        · exact h
      | disabled => exact h
    | routerBgp asn => exact h
    | addressFamily af => exact h
    | exitAddressFamily => exact h
    | other line => exact h

/-- The same setting for several groups of one family. -/
theorem run_allowas (status : Status) {names : List String} {f : Frr}
    (h : ∀ n ∈ names, n ∈ f.groups) :
    (f.run (names.map (.allowasIn status))).groups = f.groups ∧
      (f.run (names.map (.allowasIn status))).af = f.af ∧
      ∀ p, p ∈ (f.run (names.map (.allowasIn status))).allowas ↔
        if p.1 = f.af ∧ p.2 ∈ names then status = .enabled else p ∈ f.allowas := by
  induction names generalizing f with
  | nil => exact ⟨rfl, rfl, fun p => by simp [Frr.run]⟩
  | cons n names ih =>
    have hn := h n List.mem_cons_self
    have hrest : ∀ m ∈ names, m ∈ f.groups := fun m hm => h m (List.mem_cons_of_mem _ hm)
    have hstep : (f.apply (.allowasIn status n)).groups = f.groups ∧
        (f.apply (.allowasIn status n)).af = f.af ∧
        ∀ p, p ∈ (f.apply (.allowasIn status n)).allowas ↔
          if p.1 = f.af ∧ p.2 = n then status = .enabled else p ∈ f.allowas := by
      cases status with
      | enabled =>
        simp only [Frr.apply, if_pos hn]
        refine ⟨trivial, trivial, fun p => ?_⟩
        rw [mem_setAdd, Prod.ext_iff]
        split_ifs with hthis
        · simp [hthis]
        · simp [hthis]
      | disabled =>
        simp only [Frr.apply]
        refine ⟨trivial, trivial, fun p => ?_⟩
        rw [mem_setDiscard, Ne, Prod.ext_iff]
        split_ifs with hthis
        · simp [hthis]
        · simp [hthis]
    obtain ⟨hg, ha, hp⟩ := hstep
    obtain ⟨hg', ha', hp'⟩ := ih (f := f.apply (.allowasIn status n)) (hg ▸ hrest)
    refine ⟨hg'.trans hg, ha'.trans ha, fun p => (hp' p).trans ?_⟩
    rw [ha, hp p]
    by_cases haf : p.1 = f.af
    · by_cases hpn : p.2 = n
      · by_cases hmem : p.2 ∈ names
        · simp [haf, hpn]
        · simp [haf, hpn]
      · simp [haf, hpn]
    · simp [haf]

theorem mem_configured {env : Env} {available : List String} {af group : String} :
    group ∈ configured env available af ↔ group ∈ available ∧
      ∃ pgName ∈ Dict.keys env.bbrEnabledPgs, startswith group pgName = true ∧
        af ∈ Dict.getD env.bbrEnabledPgs pgName [] := by
  simp only [configured, List.mem_flatMap, List.mem_insertionSort, List.mem_filter, Bool.decide_and,
    Bool.and_eq_true, decide_eq_true_eq]
  constructor
  · rintro ⟨pgName, hk, hg, hs, ha⟩
    exact ⟨hg, pgName, hk, hs, ha⟩
  · rintro ⟨hg, pgName, hk, hs, ha⟩
    exact ⟨pgName, hk, hg, hs, ha⟩

/-- `__set_prepare_config` sets or clears `allowas-in` for the groups it finds. -/
theorem run_setPrepareConfig (env : Env) (status : Status) (available : List String) {f : Frr}
    (h : ∀ n ∈ available, n ∈ f.groups) :
    (f.run (setPrepareConfig env available status)).groups = f.groups ∧
      ∀ p, p ∈ (f.run (setPrepareConfig env available status)).allowas ↔
        if (p.1 = "ipv4" ∨ p.1 = "ipv6") ∧ p.2 ∈ configured env available p.1 then
          status = .enabled
        else p ∈ f.allowas := by
  have hsub : ∀ af, ∀ n ∈ configured env available af, n ∈ f.groups :=
    fun af n hn => h n (mem_configured.1 hn).1
  obtain ⟨hg, ha, hp⟩ := run_allowas status (f := { f with af := "ipv4" }) (hsub "ipv4")
  obtain ⟨hg', -, hp'⟩ := run_allowas status
    (f := { Frr.run { f with af := "ipv4" }
      ((configured env available "ipv4").map (.allowasIn status)) with af := "ipv6" }) (by
        intro n hn
        dsimp only
        rw [hg]
        exact hsub "ipv6" n hn)
  have hrun : f.run (setPrepareConfig env available status) =
      Frr.run { Frr.run { f with af := "ipv4" }
          ((configured env available "ipv4").map (.allowasIn status)) with af := "ipv6" }
        ((configured env available "ipv6").map (.allowasIn status)) := by
    simp only [setPrepareConfig, List.flatMap_cons, List.flatMap_nil, List.append_nil,
      List.cons_append]
    rw [Frr.run, List.foldl_cons, List.foldl_cons, List.foldl_append, List.foldl_cons]
    rfl
  rw [hrun]
  refine ⟨hg'.trans hg, fun p => (hp' p).trans ?_⟩
  dsimp only
  rw [hp p]
  by_cases h4 : p.1 = "ipv4"
  · simp [h4]
  · by_cases h6 : p.1 = "ipv6"
    · simp [h6]
    · simp [h4, h6]

/-- The template creates the groups; it sets `allowas-in` only if the directory says enabled. -/
theorem run_pgTemplate (env : Env) (status : Status) (f : Frr) :
    (f.run (pgTemplate env status)).HasGroups ∧
      ∀ p, p ∈ (f.run (pgTemplate env status)).allowas ↔
        p ∈ f.allowas ∨
          (status = .enabled ∧ (p = ("ipv4", "PEER_V4") ∨ p = ("ipv6", "PEER_V6"))) := by
  cases status with
  | enabled =>
    refine ⟨?_, fun p => ?_⟩
    · simp [Frr.HasGroups, pgTemplate, groupTemplate, Frr.run, Frr.apply, mem_setAdd]
    · simp [pgTemplate, groupTemplate, Frr.run, Frr.apply, mem_setAdd, or_assoc]
  | disabled =>
    refine ⟨?_, fun p => ?_⟩
    · simp [Frr.HasGroups, pgTemplate, groupTemplate, Frr.run, Frr.apply, mem_setAdd]
    · simp [pgTemplate, groupTemplate, Frr.run, Frr.apply]

/-! ### The status and the setting -/

/-- BBR is enabled for the general groups, each in its family. -/
structure General (env : Env) : Prop where
  v4 : "ipv4" ∈ Dict.getD env.bbrEnabledPgs "PEER_V4" []
  v6 : "ipv6" ∈ Dict.getD env.bbrEnabledPgs "PEER_V6" []

/-- Both general groups have `allowas-in` exactly if the status is enabled. -/
def Agree (f : Frr) (status : Status) : Prop :=
  (("ipv4", "PEER_V4") ∈ f.allowas ↔ status = .enabled) ∧
    (("ipv6", "PEER_V6") ∈ f.allowas ↔ status = .enabled)

/-- The general groups come together and without leftover settings; once they are there, or wait for
    a commit, they agree with the last status; while they only wait, that is the directory's. -/
structure Inv (s : State) : Prop where
  frr : s.frr.HasGroups ∨ s.frr.NoGroups
  target : (s.target.HasGroups ∧ Agree s.target s.last) ∨
    (s.target.NoGroups ∧ Agree s.target .disabled)
  waiting : s.frr.NoGroups → s.target.HasGroups → s.last = s.status

theorem configured_of_mem {env : Env} {available : List String} {af group : String}
    (haf : af ∈ Dict.getD env.bbrEnabledPgs group []) (h : group ∈ available) :
    group ∈ configured env available af := by
  refine mem_configured.2 ⟨h, group, ?_, ?_, haf⟩
  · by_contra hk
    rw [Dict.getD_eq_of_not_mem_keys _ _ hk] at haf
    simp at haf
  · simpa using startswith_append group ""

theorem Frr.NoGroups.not_hasGroups {f : Frr} (h : f.NoGroups) : ¬f.HasGroups := fun h' => h.1 h'.1

variable {env : Env} {s : State}

theorem target_setBbr (status : Status) :
    State.target { s with changes := s.changes ++ setPrepareConfig env s.frr.groups status
                          last := status } =
      s.target.run (setPrepareConfig env s.frr.groups status) := run_append _ _ _

/-- A status that is accepted. -/
theorem Inv.set (hg : General env) (h : Inv s) {status : Status}
    (hok : s.frr.HasGroups ∨ status = s.status ∨ s.target.NoGroups) :
    Inv { s with
      changes := s.changes ++ setPrepareConfig env s.frr.groups status
      last := status } := by
  obtain ⟨hgroups, hallow⟩ := run_setPrepareConfig env status s.frr.groups
    (f := s.target) fun n hn => mem_groups_run hn _
  have hhas : (s.target.run (setPrepareConfig env s.frr.groups status)).HasGroups ↔
      s.target.HasGroups := by
    unfold Frr.HasGroups
    rw [hgroups]
  have hno : (s.target.run (setPrepareConfig env s.frr.groups status)).NoGroups ↔
      s.target.NoGroups := by
    unfold Frr.NoGroups
    rw [hgroups]
  by_cases hfrr : s.frr.HasGroups
  · have htarget : s.target.HasGroups := ⟨mem_groups_run hfrr.1 _, mem_groups_run hfrr.2 _⟩
    refine ⟨h.frr, ?_, fun hnone => absurd hfrr hnone.not_hasGroups⟩
    rw [target_setBbr, hhas]
    refine .inl ⟨htarget, ?_, ?_⟩
    · rw [hallow, if_pos ⟨.inl rfl, configured_of_mem hg.v4 hfrr.1⟩]
    · rw [hallow, if_pos ⟨.inr rfl, configured_of_mem hg.v6 hfrr.2⟩]
  · have hnone : s.frr.NoGroups := h.frr.resolve_left hfrr
    have hsame : ∀ st, Agree s.target st →
        Agree (s.target.run (setPrepareConfig env s.frr.groups status)) st := by
      intro st hst
      unfold Agree
      rw [hallow, hallow, if_neg fun hc => hnone.1 (mem_configured.1 hc.2).1,
        if_neg fun hc => hnone.2 (mem_configured.1 hc.2).1]
      exact hst
    rcases h.target with ⟨hthas, hagree⟩ | ⟨htno, hagree⟩
    · have hstatus : status = s.status := by
        rcases hok with hf | hs | ht
        · exact absurd hf hfrr
        · exact hs
        · exact absurd hthas ht.not_hasGroups
      refine ⟨h.frr, ?_, fun _ _ => hstatus⟩
      rw [target_setBbr, hhas]
      have hlast : s.last = status := (h.waiting hnone hthas).trans hstatus.symm
      exact .inl ⟨hthas, hsame _ (hlast ▸ hagree)⟩
    · refine ⟨h.frr, ?_, fun _ hthas => ?_⟩
      · rw [target_setBbr, hno]
        exact .inr ⟨htno, hsame _ hagree⟩
      · rw [target_setBbr, hhas] at hthas
        exact absurd hthas htno.not_hasGroups

theorem target_addPeer (policy peer : List String) :
    (step env s (.addPeer policy peer)).target =
      { s.target.run (pgTemplate env s.status) with af := "" } := by
  simp only [step, State.target]
  rw [run_append, run_append, run_append, run_others]
  exact run_others _ peer

theorem Inv.addPeer (h : Inv s) (policy peer : List String)
    (hok : s.last = s.status ∨ (s.status = .disabled ∧ s.target.HasGroups)) :
    Inv (step env s (.addPeer policy peer)) := by
  obtain ⟨hhas, hallow⟩ := run_pgTemplate env s.status s.target
  have hlast : s.frr.NoGroups → s.last = s.status := by
    intro hnone
    rcases hok with hl | ⟨-, ht⟩
    · exact hl
    · exact h.waiting hnone ht
  refine ⟨h.frr, .inl ?_, fun hnone _ => hlast hnone⟩
  rw [target_addPeer]
  refine ⟨hhas, ?_⟩
  cases hs : s.status with
  | enabled =>
    -- the template sets what the last status asks for
    have hl : s.last = .enabled := by
      rcases hok with hl | ⟨hd, -⟩
      · rw [hl, hs]
      · rw [hs] at hd
        simp at hd
    rw [hs] at hallow
    show Agree _ s.last
    rw [hl]
    exact ⟨by simp [hallow], by simp [hallow]⟩
  | disabled =>
    have hsame : ∀ p, p ∈ (s.target.run (pgTemplate env .disabled)).allowas ↔
        p ∈ s.target.allowas := by
      intro p
      rw [← hs, hallow, hs]
      simp
    have hagree : Agree s.target s.last := by
      rcases h.target with ⟨-, hagree⟩ | ⟨hno, hagree⟩
      · exact hagree
      · rcases hok with hl | ⟨-, ht⟩
        · rw [hl, hs]
          exact hagree
        · exact absurd ht hno.not_hasGroups
    exact ⟨(hsame _).trans hagree.1, (hsame _).trans hagree.2⟩

theorem Inv.commit (h : Inv s) : Inv (step env s .commit) := by
  have htarget : (step env s .commit).target = s.target := rfl
  refine ⟨?_, htarget ▸ h.target, fun hnone hthas => absurd hthas ?_⟩
  · rcases h.target with ⟨hh, -⟩ | ⟨hn, -⟩
    · exact .inl hh
    · exact .inr hn
  · exact Frr.NoGroups.not_hasGroups hnone

theorem Inv.step (hg : General env) (h : Inv s) {e : Event} (hok : InOrder s e) :
    Inv (step env s e) := by
  cases e with
  | setBbr key data =>
    unfold Bbr.step
    dsimp only
    split
    · exact h
    · next status hstatus =>
      exact h.set hg (hok status hstatus)
  | addPeer policy peer => exact h.addPeer policy peer hok
  | commit => exact h.commit

/-- After every commit, the general groups agree with the last status that was accepted (the default
    if there was none), for events in order. -/
theorem bbr_of_run {frr : Frr} {default : Status} {es : List Event} (hg : General env)
    (hfrr : frr.NoGroups ∧ Agree frr .disabled)
    (hrun : Run (Step env) InOrder { frr := frr, status := default, last := default } es s)
    (hgroups : (Bbr.step env s .commit).frr.HasGroups) :
    Agree (Bbr.step env s .commit).frr s.last := by
  have hinv : Inv s := by
    refine hrun.invariant ?_ ⟨.inr hfrr.1, .inr hfrr, fun _ _ => rfl⟩
    rintro s e s' h hok rfl
    exact h.step hg hok
  rcases hinv.target with ⟨-, hagree⟩ | ⟨hno, -⟩
  · exact hagree
  · exact absurd hgroups hno.not_hasGroups

def sampleEnv : Env := ⟨"65100", [("PEER_V4", ["ipv4"]), ("PEER_V6", ["ipv6"])]⟩

/-- The state after some events, from an FRR without groups. -/
def after (default : Status) (es : List Event) : State :=
  es.foldl (step sampleEnv) { frr := {}, status := default, last := default }

/-- A peer, a commit and then the status. -/
theorem enabled_later :
    (after .disabled [.addPeer [] [], .commit, .setBbr "all" [("status", "enabled")],
      .commit]).frr.HasGroups ∧
    Agree (after .disabled [.addPeer [] [], .commit, .setBbr "all" [("status", "enabled")],
      .commit]).frr .enabled := by
  have hgroups : (after .disabled [.addPeer [] [], .commit]).frr.HasGroups := by
    unfold Frr.HasGroups
    decide +kernel
  have hend : (after .disabled [.addPeer [] [], .commit, .setBbr "all" [("status", "enabled")],
      .commit]).frr.HasGroups := by
    unfold Frr.HasGroups
    decide +kernel
  have hrun : Run (Step sampleEnv) InOrder { frr := {}, status := .disabled, last := .disabled }
      [.addPeer [] [], .commit, .setBbr "all" [("status", "enabled")]]
      (after .disabled [.addPeer [] [], .commit, .setBbr "all" [("status", "enabled")]]) :=
    .cons (.inl rfl) rfl (.cons trivial rfl (.cons (fun _ _ => .inl hgroups) rfl (.nil _)))
  exact ⟨hend, bbr_of_run ⟨by decide, by decide⟩
    ⟨by unfold Frr.NoGroups; decide, by unfold Agree; decide⟩ hrun hend⟩

/-- A status that is set before the groups exist, and a peer that is added after the status was
    disabled. -/
theorem status_lost :
    ((after .disabled [.setBbr "all" [("status", "enabled")], .addPeer [] [], .commit]).last =
        .enabled ∧
      (after .disabled
        [.setBbr "all" [("status", "enabled")], .addPeer [] [], .commit]).frr.allowas =
        []) ∧
    (after .enabled [.addPeer [] [], .commit, .setBbr "all" [("status", "disabled")], .commit,
        .addPeer [] [], .commit]).last = .disabled ∧
      ("ipv4", "PEER_V4") ∈ (after .enabled [.addPeer [] [], .commit,
        .setBbr "all" [("status", "disabled")], .commit, .addPeer [] [], .commit]).frr.allowas := by
  decide +kernel

end SonicBuildimage.Bgpcfgd.Bbr
