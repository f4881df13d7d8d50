/-
  The addresses that `staticroutebfd` knows of, against those that are configured.

  Model.  The interface tables of CONFIG_DB are the set of their keys `ifname|address/mask`.
  A SET adds a key and a DEL takes it away; the handlers are those of the daemon.

  `LOCAL_INTERFACE_TABLE` has room for one address of each family per interface, as a comment
  in the constructor says, and a DEL clears it whichever address it names.  So with two
  addresses of one family on an interface, the removal of one makes the daemon forget the
  other (`address_forgotten`).

  `findInterfaceIp_of_run`: in every run in which a key is deleted only while its interface has no
  other address of the family, `find_interface_ip` finds an address exactly when one is configured,
  and what it finds is configured.
-/
import SonicBuildimage.StaticRouteBfd.Steps

namespace SonicBuildimage.StaticRouteBfd

open SonicBuildimage.Lib

/-! ## Events of the interface tables -/

inductive IfEvent where
  | set (key : String)
  | del (key : String)
  deriving DecidableEq

def IfEvent.key : IfEvent → String
  | set key => key
  | del key => key

/-- The daemon, and the keys of the interface tables of CONFIG_DB. -/
structure Interfaces where
  daemon : State
  keys : List String
  deriving DecidableEq

namespace Interfaces

def next (env : Env) (s : Interfaces) : IfEvent → Interfaces
  | .set key => ⟨interfaceSetHandler env s.daemon key, setAdd s.keys key⟩
  | .del key => ⟨interfaceDelHandler env s.daemon key, setDiscard s.keys key⟩

def Step (env : Env) (s : Interfaces) (e : IfEvent) (s' : Interfaces) : Prop := s' = s.next env e

/-- Nothing is configured, and the daemon has seen nothing. -/
def start : Interfaces := ⟨init, []⟩

/-- An address of a family that is configured on an interface. -/
def Configured (env : Env) (s : Interfaces) (ifName : String) (isIpv4 : Bool) (ip : String) :
    Prop :=
  ∃ key ∈ s.keys, getIpFromKey env key = some (isIpv4, ifName, ip)

/-- The interface of the key has no other address of its family. -/
def Sole (env : Env) (s : Interfaces) (key : String) : Prop :=
  ∀ a ∈ getIpFromKey env key, ∀ key' ∈ s.keys, ∀ b ∈ getIpFromKey env key',
    b.1 = a.1 → b.2.1 = a.2.1 → key' = key

/-- A key is deleted only while it is the sole one. -/
def Ok (env : Env) (s : Interfaces) : IfEvent → Prop
  | .set _ => True
  | .del key => Sole env s key

instance (env : Env) (s : Interfaces) (key : String) : Decidable (Sole env s key) :=
  inferInstanceAs (Decidable (∀ a ∈ _, ∀ key ∈ _, ∀ b ∈ _, _ → _ → _))

instance (env : Env) (s : Interfaces) (e : IfEvent) : Decidable (Ok env s e) :=
  match e with
  | .set _ => inferInstanceAs (Decidable True)
  | .del key => inferInstanceAs (Decidable (Sole env s key))

end Interfaces

/-! ## The local table -/

/-- The address of a family that the daemon has for an interface; empty if there is none. -/
def localAddress (s : State) (ifName : String) (isIpv4 : Bool) : String :=
  (s.interface.getD ifName []).getD isIpv4 ""

theorem findInterfaceIp_eq {env : Env} {s : State} {ifName nh v : String} {isIpv4 : Bool}
    (h : checkIp env nh = (true, isIpv4, v)) :
    findInterfaceIp env s ifName nh =
      if localAddress s ifName isIpv4 = "" then none else some (localAddress s ifName isIpv4) := by
  unfold findInterfaceIp
  rw [h]
  rfl

theorem localAddress_of_interface {s s' : State} {ifName name ip : String} {isIpv4 v : Bool}
    (h : s'.interface = s.interface.set name ((s.interface.getD name []).set v ip)) :
    localAddress s' ifName isIpv4 =
      if name = ifName ∧ v = isIpv4 then ip else localAddress s ifName isIpv4 := by
  unfold localAddress
  rw [h, Dict.getD_set]
  by_cases hname : name = ifName
  · subst hname
    rw [if_pos rfl, Dict.getD_set]
    by_cases hv : v = isIpv4
    · rw [if_pos hv, if_pos ⟨rfl, hv⟩]
    · rw [if_neg hv, if_neg fun hand => hv hand.2]
  · rw [if_neg hname, if_neg fun hand => hname hand.1]

/-- A SET writes the address of its key. -/
theorem interface_set {env : Env} {s : State} {key name ip : String} {v : Bool}
    (h : getIpFromKey env key = some (v, name, ip)) :
    (interfaceSetHandler env s key).interface =
      s.interface.set name ((s.interface.getD name []).set v ip) := by
  unfold interfaceSetHandler updateBfdPending
  rw [h]
  dsimp only
  obtain ⟨b, a, l, hfold⟩ := foldl_updateBfdPendingItem_frame env name s.bfdPending
    ({ s with interface := s.interface.set name ((s.interface.getD name []).set v ip) }, [])
  rw [hfold]

/-- A DEL clears the address, whichever it was. -/
theorem localAddress_del {env : Env} {s : State} {key ifName name ip : String} {isIpv4 v : Bool}
    (h : getIpFromKey env key = some (v, name, ip)) :
    localAddress (interfaceDelHandler env s key) ifName isIpv4 =
      if name = ifName ∧ v = isIpv4 then "" else localAddress s ifName isIpv4 := by
  unfold interfaceDelHandler
  rw [h]
  dsimp only
  by_cases hnil : s.interface.getD name [] = []
  · -- the interface is not known, so it has no address
    rw [if_pos hnil]
    by_cases hslot : name = ifName ∧ v = isIpv4
    · obtain ⟨rfl, rfl⟩ := hslot
      rw [if_pos ⟨rfl, rfl⟩]
      unfold localAddress
      rw [hnil]
      rfl
    · rw [if_neg hslot]
  · rw [if_neg hnil]
    exact localAddress_of_interface rfl

/-! ## Runs -/

namespace Interfaces

variable {env : Env}

/-- The daemon has an address if one is configured, and what it has is configured. -/
def Agrees (env : Env) (s : Interfaces) : Prop :=
  ∀ ifName isIpv4, (∀ ip, s.Configured env ifName isIpv4 ip →
      localAddress s.daemon ifName isIpv4 ≠ "") ∧
    (localAddress s.daemon ifName isIpv4 ≠ "" →
      s.Configured env ifName isIpv4 (localAddress s.daemon ifName isIpv4))

/-- What `check_ip` accepts is an address of the family. -/
theorem isAddress_of_checkIp {ip v : String} {isIpv4 : Bool}
    (h : checkIp env ip = (true, isIpv4, v)) :
    env.isIPv4Address v = true ∨ env.isIPv6Address v = true := by
  unfold checkIp at h
  dsimp only at h
  split_ifs at h with hnil hv4 hv6
  · simp at h
  · exact .inl ((Prod.mk.inj (Prod.mk.inj h).2).2 ▸ hv4)
  · exact .inr ((Prod.mk.inj (Prod.mk.inj h).2).2 ▸ hv6)
  · simp at h

/-- An address that was read from a key is not empty. -/
theorem ne_empty_of_key (h4 : env.isIPv4Address "" = false) (h6 : env.isIPv6Address "" = false)
    {key name ip : String} {v : Bool} (h : getIpFromKey env key = some (v, name, ip)) :
    ip ≠ "" := by
  rintro rfl
  unfold getIpFromKey at h
  split at h
  · split at h
    · next hcheck =>
      obtain ⟨rfl, rfl, rfl⟩ : _ ∧ _ ∧ _ := by simpa using h
      rcases isAddress_of_checkIp hcheck with hv | hv
      · exact absurd (h4.symm.trans hv) (by decide)
      · exact absurd (h6.symm.trans hv) (by decide)
    · simp at h
  · simp at h

/-- A key that is no address changes nothing. -/
theorem Agrees.skip {s : Interfaces} {e : IfEvent} (h : Agrees env s)
    (hkey : getIpFromKey env e.key = none) : Agrees env (s.next env e) := by
  have hconf : ∀ ifName isIpv4 ip, (s.next env e).Configured env ifName isIpv4 ip ↔
      s.Configured env ifName isIpv4 ip := by
    intro ifName isIpv4 ip
    constructor
    · rintro ⟨key, hmem, hip⟩
      have hne : key ≠ e.key := by
        rintro rfl
        rw [hkey] at hip
        simp at hip
      cases e with
      | set key' => exact ⟨key, ((mem_setAdd _ _ _).1 hmem).resolve_right hne, hip⟩
      | del key' => exact ⟨key, ((mem_setDiscard _ _ _).1 hmem).1, hip⟩
    · rintro ⟨key, hmem, hip⟩
      have hne : key ≠ e.key := by
        rintro rfl
        rw [hkey] at hip
        simp at hip
      cases e with
      | set key' => exact ⟨key, (mem_setAdd _ _ _).2 (.inl hmem), hip⟩
      | del key' => exact ⟨key, (mem_setDiscard _ _ _).2 ⟨hmem, hne⟩, hip⟩
  have hdaemon : (s.next env e).daemon = s.daemon := by
    cases e with
    | set key =>
      change interfaceSetHandler env s.daemon key = s.daemon
      rw [interfaceSetHandler, show getIpFromKey env key = none from hkey]
    | del key =>
      change interfaceDelHandler env s.daemon key = s.daemon
      rw [interfaceDelHandler, show getIpFromKey env key = none from hkey]
  intro ifName isIpv4
  simp only [hconf, hdaemon]
  exact h ifName isIpv4

/-- An event of another slot leaves the configured addresses of this one. -/
theorem configured_next {s : Interfaces} {e : IfEvent} {name ip : String} {v : Bool}
    (hkey : getIpFromKey env e.key = some (v, name, ip)) {ifName : String} {isIpv4 : Bool}
    (hslot : ¬(name = ifName ∧ v = isIpv4)) (ip' : String) :
    (s.next env e).Configured env ifName isIpv4 ip' ↔ s.Configured env ifName isIpv4 ip' := by
  have hother : ∀ key, getIpFromKey env key = some (isIpv4, ifName, ip') → key ≠ e.key := by
    rintro key hip rfl
    rw [hkey] at hip
    obtain ⟨hv, hname, -⟩ : _ ∧ _ ∧ _ := by simpa using hip
    exact hslot ⟨hname, hv⟩
  refine exists_congr fun key => and_congr_left fun hip => ?_
  cases e with
  | set key' => exact (mem_setAdd _ _ _).trans (or_iff_left (hother key hip))
  | del key' => exact (mem_setDiscard _ _ _).trans (and_iff_left (hother key hip))

/-- The address of a key that is set is configured, and the daemon has it. -/
theorem Agrees.set {s : Interfaces} {key name ip : String} {v : Bool}
    (h4 : env.isIPv4Address "" = false) (h6 : env.isIPv6Address "" = false) (h : Agrees env s)
    (hkey : getIpFromKey env key = some (v, name, ip)) : Agrees env (s.next env (.set key)) := by
  intro ifName isIpv4
  have hlocal : localAddress (s.next env (.set key)).daemon ifName isIpv4 =
      if name = ifName ∧ v = isIpv4 then ip else localAddress s.daemon ifName isIpv4 :=
    localAddress_of_interface (interface_set hkey)
  rw [hlocal]
  by_cases hslot : name = ifName ∧ v = isIpv4
  · rw [if_pos hslot]
    obtain ⟨rfl, rfl⟩ := hslot
    exact ⟨fun _ _ => ne_empty_of_key h4 h6 hkey,
      fun _ => ⟨key, (mem_setAdd _ _ _).2 (.inr rfl), hkey⟩⟩
  · rw [if_neg hslot]
    simp only [configured_next (e := .set key) hkey hslot]
    exact h ifName isIpv4

/-- The sole address of a slot is deleted, and the daemon has none. -/
theorem Agrees.del {s : Interfaces} {key name ip : String} {v : Bool} (h : Agrees env s)
    (hsole : Sole env s key) (hkey : getIpFromKey env key = some (v, name, ip)) :
    Agrees env (s.next env (.del key)) := by
  intro ifName isIpv4
  have hlocal : localAddress (s.next env (.del key)).daemon ifName isIpv4 =
      if name = ifName ∧ v = isIpv4 then "" else localAddress s.daemon ifName isIpv4 :=
    localAddress_del hkey
  rw [hlocal]
  by_cases hslot : name = ifName ∧ v = isIpv4
  · rw [if_pos hslot]
    obtain ⟨rfl, rfl⟩ := hslot
    refine ⟨?_, fun hne => absurd rfl hne⟩
    rintro ip' ⟨key', hmem, hip⟩
    obtain ⟨hold, hne⟩ := (mem_setDiscard _ _ _).1 hmem
    exact absurd (hsole _ hkey key' hold _ hip rfl rfl) hne
  · rw [if_neg hslot]
    simp only [configured_next (e := .del key) hkey hslot]
    exact h ifName isIpv4

theorem agrees_start (env : Env) : Agrees env start := by
  refine fun ifName isIpv4 => ⟨?_, fun hne => absurd rfl hne⟩
  rintro ip ⟨key, hmem, -⟩
  exact absurd hmem List.not_mem_nil

theorem Agrees.next {s : Interfaces} {e : IfEvent} (h4 : env.isIPv4Address "" = false)
    (h6 : env.isIPv6Address "" = false) (h : Agrees env s) (hok : Ok env s e) :
    Agrees env (s.next env e) := by
  cases hkey : getIpFromKey env e.key with
  | none => exact h.skip hkey
  | some a =>
    obtain ⟨v, name, ip⟩ := a
    cases e with
    | set key => exact h.set h4 h6 hkey
    | del key => exact h.del hok hkey

theorem step_next (env : Env) (s : Interfaces) (e : IfEvent) (s' : Interfaces)
    (h : some (s.next env e) = some s') : Step env s e s' :=
  (Option.some.inj h).symm

end Interfaces

open Interfaces

/-- In every run in which a key is deleted only while its interface has no other address of the
    family, an address is found exactly when one of the family of the next hop is configured, and
    it is a configured one.  `IPv4Address` and `IPv6Address` reject the empty text. -/
theorem findInterfaceIp_of_run {env : Env} {es : List IfEvent} {s : Interfaces}
    (h4 : env.isIPv4Address "" = false) (h6 : env.isIPv6Address "" = false)
    (hrun : Run (Interfaces.Step env) (Ok env) start es s) {ifName nh v : String}
    {isIpv4 : Bool} (hnh : checkIp env nh = (true, isIpv4, v)) :
    ((findInterfaceIp env s.daemon ifName nh).isSome ↔ ∃ ip, s.Configured env ifName isIpv4 ip) ∧
      ∀ ip ∈ findInterfaceIp env s.daemon ifName nh, s.Configured env ifName isIpv4 ip := by
  have hagrees : Agrees env s := by
    refine hrun.invariant ?_ (agrees_start env)
    rintro s e s' h hok rfl
    exact h.next h4 h6 hok
  obtain ⟨hsome, hconf⟩ := hagrees ifName isIpv4
  rw [findInterfaceIp_eq hnh]
  by_cases hempty : localAddress s.daemon ifName isIpv4 = ""
  · rw [if_pos hempty]
    refine ⟨⟨nofun, ?_⟩, nofun⟩
    rintro ⟨ip, hip⟩
    exact absurd hempty (hsome ip hip)
  · rw [if_neg hempty]
    refine ⟨⟨fun _ => ⟨_, hconf hempty⟩, fun _ => rfl⟩, ?_⟩
    rintro ip hip
    rw [← Option.some.inj hip]
    exact hconf hempty

/-- Two addresses of one family are set one after the other, and the one of another interface is
    replaced. -/
def readdressed : List IfEvent :=
  [.set "Ethernet0|10.0.0.0/31", .set "Ethernet4|10.0.0.4/31", .del "Ethernet4|10.0.0.4/31",
    .set "Ethernet0", .set "Ethernet0|20.0.0.0/31", .set "Ethernet4|10.0.0.8/31"]

theorem findInterfaceIp_readdressed :
    ∃ s, Run (Interfaces.Step ipv4Env) (Ok ipv4Env) start readdressed s ∧
      findInterfaceIp ipv4Env s.daemon "Ethernet0" "20.0.0.1" = some "20.0.0.0" ∧
      s.Configured ipv4Env "Ethernet0" true "20.0.0.0" := by
  obtain ⟨s, hrun, hfind⟩ : ∃ s, Run (Interfaces.Step ipv4Env) (Ok ipv4Env) start readdressed s ∧
      findInterfaceIp ipv4Env s.daemon "Ethernet0" "20.0.0.1" = some "20.0.0.0" :=
    exists_run (step_next ipv4Env) (by decide +kernel)
  exact ⟨s, hrun, hfind, (findInterfaceIp_of_run (by decide) rfl hrun
    (v := "20.0.0.1") (by decide +kernel)).2 _ hfind⟩

/-- Two addresses of one family on an interface, of which the first is removed: the other one is
    still configured, and not found. -/
theorem address_forgotten :
    let s := [IfEvent.set "Ethernet0|10.0.0.0/31", .set "Ethernet0|20.0.0.0/31",
      .del "Ethernet0|10.0.0.0/31"].foldl (Interfaces.next ipv4Env) start
    s.Configured ipv4Env "Ethernet0" true "20.0.0.0" ∧
      findInterfaceIp ipv4Env s.daemon "Ethernet0" "20.0.0.1" = none := by
  refine ⟨⟨"Ethernet0|20.0.0.0/31", ?_⟩, ?_⟩
  · decide +kernel
  · decide +kernel

end SonicBuildimage.StaticRouteBfd
