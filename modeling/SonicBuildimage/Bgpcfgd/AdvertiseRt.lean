/-
  Advertised networks: AdvertiseRouteMgr of bgpcfgd (bgpcfgd/managers_advertise_rt.py).

  Model.  The manager with its table `advertised_routes`, and an FRR that takes the pushed commands
  line by line: per VRF whether `no bgp network import-check` is in force, and for every family and
  prefix the network statement with its optional route map.  Routes that come before `bgp_asn` is
  known are pushed by the callback `on_bgp_asn_change`.  `TemplateFabric.is_ipv6` is a parameter.

  Proved: `advertised_of_run`.  Whatever the order of the messages, once `bgp_asn` is known the
  statements of FRR are those of the last SETs, the table holds the same, and the import check is
  off for exactly the VRFs with a route.
-/
import SonicBuildimage.Lib.NestedDict
import SonicBuildimage.Lib.PyStr
import SonicBuildimage.Lib.Run

namespace SonicBuildimage.Bgpcfgd.AdvertiseRt

open SonicBuildimage.Lib

abbrev Data := Dict String String

/-! ## Commands -/

inductive Cmd where
  /-- the VRF, unless it is the default one -/
  | routerBgp (asn : String) (vrf : Option String)
  | addressFamily (ipv6 : Bool)
  | network (ipPrefix : String) (routeMap : Option String)
  | noNetwork (ipPrefix : String)
  | importCheck (no : Bool)
  deriving DecidableEq

/-- The text that is pushed. -/
def Cmd.text : Cmd → String
  | .routerBgp asn none => "router bgp " ++ asn
  | .routerBgp asn (some vrf) => "router bgp " ++ asn ++ " vrf " ++ vrf
  | .addressFamily ipv6 => " address-family " ++ (if ipv6 then "ipv6" else "ipv4") ++ " unicast"
  | .network ipPrefix none => "  network " ++ ipPrefix
  | .network ipPrefix (some routeMap) => "  network " ++ ipPrefix ++ " route-map " ++ routeMap
  | .noNetwork ipPrefix => "  no network " ++ ipPrefix
  | .importCheck no => " " ++ (if no then "no " else "") ++ "bgp network import-check"

def routerBgp (asn vrf : String) : Cmd :=
  .routerBgp asn (if vrf = "default" then none else some vrf)

/-- The route map of a profile. -/
def routeMapOf (data : Data) : Option String := (data.get? "profile").map (· ++ "_RM")

/-- `advertise_route_commands` with `OP_ADD` -/
def addCommands (isIpv6 : String → Bool) (asn ipPrefix vrf : String) (data : Data) : List Cmd :=
  [routerBgp asn vrf, .addressFamily (isIpv6 ipPrefix), .network ipPrefix (routeMapOf data)]

/-- `advertise_route_commands` with `OP_DELETE`, which has no data -/
def deleteCommands (isIpv6 : String → Bool) (asn ipPrefix vrf : String) : List Cmd :=
  [routerBgp asn vrf, .addressFamily (isIpv6 ipPrefix), .noNetwork ipPrefix]

/-- `bgp_network_import_check_commands` -/
def importCheckCommands (asn vrf : String) (add : Bool) : List Cmd :=
  [routerBgp asn vrf, .importCheck add]

/-! ## The manager -/

structure Mgr where
  bgpAsn : Option String
  advertisedRoutes : Dict String (Dict String Data)

def routeMaps : List String := ["FROM_SDN_SLB_ROUTES"]

/-- `__set_handler_validate` -/
def setHandlerValidate (data : Data) : Bool :=
  (data.get? "profile").any (· ∈ routeMaps) || data = [("", "")]

def splitKey (key : String) : String × String := (splitOnce "|" key).getD ("default", key)

variable (isIpv6 : String → Bool)

def addRouteAdvertisement (m : Mgr) (vrf ipPrefix : String) (data : Data) : Mgr × List Cmd :=
  let routes := m.advertisedRoutes.getD vrf []
  let cmds :=
    match m.bgpAsn with
    | none => []
    | some asn =>
      (if routes = [] then importCheckCommands asn vrf true else []) ++
        addCommands isIpv6 asn ipPrefix vrf data
  ({ m with advertisedRoutes := m.advertisedRoutes.set2 vrf ipPrefix data }, cmds)

def removeRouteAdvertisement (m : Mgr) (vrf ipPrefix : String) : Mgr × List Cmd :=
  let routes := m.advertisedRoutes.getD vrf []
  if ipPrefix ∉ routes.keys then (m, [])
  else
    let table := m.advertisedRoutes.erase2 vrf ipPrefix
    let cmds :=
      match m.bgpAsn with
      | none => []
      | some asn =>
        (if table.getD vrf [] = [] then importCheckCommands asn vrf false else []) ++
          deleteCommands isIpv6 asn ipPrefix vrf
    ({ m with advertisedRoutes := table }, cmds)

/-- The inner loop of `on_bgp_asn_change`. -/
def readdRoutes (vrf : String) (acc : Mgr × List Cmd) (ipPrefixes : Dict String Data) :
    Mgr × List Cmd :=
  ipPrefixes.foldl (fun acc e =>
    let (m, cmds) := addRouteAdvertisement isIpv6 acc.1 vrf e.1 e.2
    (m, acc.2 ++ cmds)) acc

def onBgpAsnChange (m : Mgr) : Mgr × List Cmd :=
  match m.bgpAsn with
  | none => (m, [])
  | some asn =>
    m.advertisedRoutes.foldl (fun acc item => readdRoutes isIpv6 item.1
      (acc.1, acc.2 ++ importCheckCommands asn item.1 true) item.2) (m, [])

/-! ## FRR -/

structure Frr where
  /-- the AS number of the instance of a VRF -/
  instances : String → Option String
  /-- the VRF of the router that the lines are in, and the address family -/
  node : Option String
  ipv6 : Bool
  noImportCheck : String → Bool
  /-- by VRF, family and prefix; the inner option is the route map -/
  networks : String → Bool → String → Option (Option String)

namespace Frr

def initial : Frr := ⟨fun _ => none, none, false, fun _ => false, fun _ _ _ => none⟩

def enter (f : Frr) (asn vrf : String) : Frr :=
  { f with
    instances := fun v => if v = vrf then some asn else f.instances v
    node := some vrf }

def setNetwork (f : Frr) (vrf ipPrefix : String) (value : Option (Option String)) : Frr :=
  { f with
    networks := fun v ipv6 q =>
      if v = vrf ∧ ipv6 = f.ipv6 ∧ q = ipPrefix then value else f.networks v ipv6 q }

def setImportCheck (f : Frr) (vrf : String) (no : Bool) : Frr :=
  { f with noImportCheck := fun v => if v = vrf then no else f.noImportCheck v }

/-- One line.  A router with another AS number is refused, and so are the lines that follow. -/
def apply (f : Frr) : Cmd → Frr
  | .routerBgp asn vrf =>
    if (f.instances (vrf.getD "default")).all (· = asn) then f.enter asn (vrf.getD "default")
    else { f with node := none }
  | .addressFamily ipv6 => { f with ipv6 := ipv6 }
  | .network ipPrefix routeMap => f.node.elim f fun vrf => f.setNetwork vrf ipPrefix (some routeMap)
  | .noNetwork ipPrefix => f.node.elim f fun vrf => f.setNetwork vrf ipPrefix none
  | .importCheck no => f.node.elim f fun vrf => f.setImportCheck vrf no

def run (f : Frr) (cmds : List Cmd) : Frr := cmds.foldl apply f

/-- All instances have this AS number. -/
def Serves (f : Frr) (asn : String) : Prop := ∀ v, ∀ a ∈ f.instances v, a = asn

theorem run_append (f : Frr) (xs ys : List Cmd) : f.run (xs ++ ys) = (f.run xs).run ys :=
  List.foldl_append

theorem Serves.enter {f : Frr} {asn : String} (h : f.Serves asn) (vrf : String) :
    (f.enter asn vrf).Serves asn := by
  intro v a ha
  dsimp only [Frr.enter] at ha
  split at ha
  · exact (Option.some.inj ha).symm
  · exact h v a ha

theorem apply_routerBgp {f : Frr} {asn : String} (h : f.Serves asn) (vrf : String) :
    f.apply (routerBgp asn vrf) = f.enter asn vrf := by
  have hvrf : (if vrf = "default" then none else some vrf).getD "default" = vrf := by
    split_ifs with hd
    · exact hd.symm
    · rfl
  have hall : (f.instances vrf).all (· = asn) = true :=
    (Option.all_eq_true _ _).2 fun a ha => decide_eq_true (h vrf a ha)
  rw [routerBgp, apply, hvrf, if_pos hall]

variable {isIpv6}

theorem run_addCommands {f : Frr} {asn : String} (h : f.Serves asn) (ipPrefix vrf : String)
    (data : Data) :
    f.run (addCommands isIpv6 asn ipPrefix vrf data) =
      { f.enter asn vrf with ipv6 := isIpv6 ipPrefix }.setNetwork vrf ipPrefix
        (some (routeMapOf data)) := by
  simp only [run, addCommands, List.foldl_cons, List.foldl_nil, apply_routerBgp h]
  rfl

theorem run_deleteCommands {f : Frr} {asn : String} (h : f.Serves asn) (ipPrefix vrf : String) :
    f.run (deleteCommands isIpv6 asn ipPrefix vrf) =
      { f.enter asn vrf with ipv6 := isIpv6 ipPrefix }.setNetwork vrf ipPrefix none := by
  simp only [run, deleteCommands, List.foldl_cons, List.foldl_nil, apply_routerBgp h]
  rfl

theorem run_importCheckCommands {f : Frr} {asn : String} (h : f.Serves asn) (vrf : String)
    (add : Bool) :
    f.run (importCheckCommands asn vrf add) = (f.enter asn vrf).setImportCheck vrf add := by
  simp only [run, importCheckCommands, List.foldl_cons, List.foldl_nil, apply_routerBgp h]
  rfl

end Frr

/-! ## The system -/

structure Sys where
  mgr : Mgr
  frr : Frr

inductive Event where
  | set (key : String) (data : Data)
  | del (key : String)
  /-- the metadata of the device is put into the directory -/
  | metadata (asn : String)

def push (s : Sys) (r : Mgr × List Cmd) : Sys := ⟨r.1, s.frr.run r.2⟩

def next (s : Sys) : Event → Sys
  | .set key data =>
    if setHandlerValidate data then
      push s (addRouteAdvertisement isIpv6 s.mgr (splitKey key).1 (splitKey key).2 data)
    else s
  | .del key => push s (removeRouteAdvertisement isIpv6 s.mgr (splitKey key).1 (splitKey key).2)
  | .metadata asn => push s (onBgpAsnChange isIpv6 { s.mgr with bgpAsn := some asn })

def Step (s : Sys) (e : Event) (s' : Sys) : Prop := s' = next isIpv6 s e

def start : Sys := ⟨⟨none, []⟩, Frr.initial⟩

/-- `bgp_asn` does not change once it is known. -/
def SameAsn (s : Sys) : Event → Prop
  | .metadata asn => ∀ known ∈ s.mgr.bgpAsn, known = asn
  | _ => True

/-- A key is about a prefix of a VRF: it has both, or only the prefix for the default VRF. -/
def Names (key vrf ipPrefix : String) : Prop :=
  ('|' ∉ key.toList ∧ vrf = "default" ∧ ipPrefix = key) ∨
    ('|' ∉ vrf.toList ∧ key = vrf ++ "|" ++ ipPrefix)

/-- Valid data has the profile, or nothing. -/
def Valid (data : Data) : Prop :=
  data.get? "profile" = some "FROM_SDN_SLB_ROUTES" ∨ data = [("", "")]

instance (key vrf ipPrefix : String) : Decidable (Names key vrf ipPrefix) :=
  inferInstanceAs (Decidable (_ ∨ _))

instance (data : Data) : Decidable (Valid data) := inferInstanceAs (Decidable (_ ∨ _))

/-- The data of the last SET of a route that no DEL has followed. -/
def lastSet (vrf ipPrefix : String) : List Event → Option Data :=
  List.foldl (fun last e =>
    match e with
    | .set key data => if Valid data ∧ Names key vrf ipPrefix then some data else last
    | .del key => if Names key vrf ipPrefix then none else last
    | .metadata _ => last) none

theorem splitKey_eq_iff {key vrf ipPrefix : String} :
    splitKey key = (vrf, ipPrefix) ↔ Names key vrf ipPrefix := by
  have hsep : "|".toList = ['|'] := rfl
  unfold splitKey splitOnce Names
  rw [hsep]
  cases hcut : cutFirst ['|'] key.toList with
  | none =>
    have hbar := cutFirst_singleton_none.1 hcut
    have hno : key ≠ vrf ++ "|" ++ ipPrefix := by
      rintro rfl
      simp at hbar
    simp [hbar, hno, eq_comm]
  | some p =>
    obtain ⟨a, b⟩ := p
    obtain ⟨ha, hkey⟩ := cutFirst_singleton.1 hcut
    have hbar : '|' ∈ key.toList := by simp [hkey]
    simp only [Option.map_some, Option.getD_some, Prod.mk.injEq, hbar, not_true_eq_false,
      false_and, false_or]
    constructor
    · rintro ⟨rfl, rfl⟩
      refine ⟨by simpa using ha, ?_⟩
      rw [← String.toList_inj, hkey]
      simp
    · rintro ⟨hvrf, rfl⟩
      have hcut' : cutFirst ['|'] (vrf ++ "|" ++ ipPrefix).toList =
          some (vrf.toList, ipPrefix.toList) := cutFirst_singleton.2 ⟨hvrf, by simp⟩
      rw [hcut'] at hcut
      obtain ⟨rfl, rfl⟩ := Prod.mk.inj (Option.some.inj hcut)
      simp

theorem setHandlerValidate_iff {data : Data} : setHandlerValidate data = true ↔ Valid data := by
  unfold setHandlerValidate Valid routeMaps
  cases data.get? "profile" with
  | none => simp
  | some p => simp

/-! ## Replaying the table -/

variable {isIpv6}

/-- Adding a route that is there changes nothing in the table. -/
theorem addRouteAdvertisement_same {m : Mgr} {asn vrf ipPrefix : String} {data : Data}
    (hasn : m.bgpAsn = some asn) (h : m.advertisedRoutes.lookup2 vrf ipPrefix = some data) :
    addRouteAdvertisement isIpv6 m vrf ipPrefix data =
      (m, addCommands isIpv6 asn ipPrefix vrf data) := by
  have hne : m.advertisedRoutes.getD vrf [] ≠ [] :=
    Dict.getD_ne_nil_iff.2 ⟨ipPrefix, by rw [h]; simp⟩
  simp only [addRouteAdvertisement, hasn, if_neg hne, List.nil_append, Dict.set2_of_lookup2 h]
  rw [← hasn]

theorem readdRoutes_eq {m : Mgr} {asn vrf : String} (hasn : m.bgpAsn = some asn)
    {ipPrefixes : Dict String Data}
    (h : ∀ e ∈ ipPrefixes, m.advertisedRoutes.lookup2 vrf e.1 = some e.2) (cmds : List Cmd) :
    readdRoutes isIpv6 vrf (m, cmds) ipPrefixes =
      (m, cmds ++ ipPrefixes.flatMap fun e => addCommands isIpv6 asn e.1 vrf e.2) := by
  unfold readdRoutes
  induction ipPrefixes generalizing cmds with
  | nil => simp
  | cons e ps ih =>
    rw [List.foldl_cons, addRouteAdvertisement_same hasn (h e List.mem_cons_self)]
    rw [ih (fun x hx => h x (List.mem_cons_of_mem _ hx)), List.flatMap_cons, List.append_assoc]

/-- The commands of the callback. -/
def replayCommands (isIpv6 : String → Bool) (asn : String)
    (table : Dict String (Dict String Data)) : List Cmd :=
  table.flatMap fun item => importCheckCommands asn item.1 true ++
    item.2.flatMap fun e => addCommands isIpv6 asn e.1 item.1 e.2

/-- An item of the table is found by its keys. -/
theorem lookup2_of_mem {table : Dict String (Dict String Data)} (hwf : table.WF2)
    {item : String × Dict String Data} (hitem : item ∈ table) {e : String × Data}
    (he : e ∈ item.2) : table.lookup2 item.1 e.1 = some e.2 := by
  have houter : table.get? item.1 = some item.2 := (Dict.get?_eq_some_iff hwf.outer).2 hitem
  have hinner : item.2.get? e.1 = some e.2 := (Dict.get?_eq_some_iff (hwf.inner item hitem)).2 he
  rw [Dict.lookup2, Dict.getD, houter, Option.getD_some, hinner]

/-- The callback leaves the table as it is, so that the loop over it is not disturbed. -/
theorem onBgpAsnChange_eq {m : Mgr} {asn : String} (hasn : m.bgpAsn = some asn)
    (hwf : m.advertisedRoutes.WF2) :
    onBgpAsnChange isIpv6 m = (m, replayCommands isIpv6 asn m.advertisedRoutes) := by
  have hloop : ∀ (items : Dict String (Dict String Data)) (cmds : List Cmd),
      (∀ item ∈ items, item ∈ m.advertisedRoutes) →
      items.foldl (fun acc item => readdRoutes isIpv6 item.1
        (acc.1, acc.2 ++ importCheckCommands asn item.1 true) item.2) (m, cmds) =
      (m, cmds ++ replayCommands isIpv6 asn items) := by
    intro items
    induction items with
    | nil =>
      intro cmds _
      simp [replayCommands]
    | cons item items ih =>
      intro cmds hmem
      have hitem := fun e he => lookup2_of_mem (e := e) hwf (hmem item List.mem_cons_self) he
      have htail := fun x hx => hmem x (List.mem_cons_of_mem _ hx)
      rw [List.foldl_cons, readdRoutes_eq hasn hitem, ih _ htail]
      simp only [replayCommands, List.flatMap_cons, List.append_assoc]
  unfold onBgpAsnChange
  rw [hasn]
  exact hloop m.advertisedRoutes [] fun _ h => h

/-! ## What FRR holds -/

/-- The statement that the table asks for. -/
def wanted (isIpv6 : String → Bool) (table : Dict String (Dict String Data)) (vrf : String)
    (ipv6 : Bool) (ipPrefix : String) : Option (Option String) :=
  if ipv6 = isIpv6 ipPrefix then (table.lookup2 vrf ipPrefix).map routeMapOf else none

/-- FRR holds what the table asks for. -/
structure Refines (isIpv6 : String → Bool) (table : Dict String (Dict String Data)) (f : Frr) :
    Prop where
  flag : ∀ vrf, f.noImportCheck vrf = true ↔ table.getD vrf [] ≠ []
  networks : ∀ vrf ipv6 q, f.networks vrf ipv6 q = wanted isIpv6 table vrf ipv6 q

/-- The statement of a route is written, and nothing else changes. -/
theorem run_add {f : Frr} {asn : String} (h : f.Serves asn) (ipPrefix vrf : String) (data : Data) :
    let f' := f.run (addCommands isIpv6 asn ipPrefix vrf data)
    f'.Serves asn ∧ f'.noImportCheck = f.noImportCheck ∧ ∀ v ipv6 q, f'.networks v ipv6 q =
      if v = vrf ∧ ipv6 = isIpv6 ipPrefix ∧ q = ipPrefix then some (routeMapOf data)
      else f.networks v ipv6 q := by
  dsimp only
  rw [Frr.run_addCommands h]
  exact ⟨h.enter vrf, rfl, fun _ _ _ => rfl⟩

/-- The inner loop writes the statements of its prefixes. -/
theorem run_readd {table : Dict String (Dict String Data)} {asn vrf : String}
    {ps : Dict String Data} (hps : ∀ e ∈ ps, table.lookup2 vrf e.1 = some e.2) {f : Frr}
    (h : f.Serves asn) :
    let f' := f.run (ps.flatMap fun e => addCommands isIpv6 asn e.1 vrf e.2)
    f'.Serves asn ∧ f'.noImportCheck = f.noImportCheck ∧ ∀ v ipv6 q, f'.networks v ipv6 q =
      if v = vrf ∧ ipv6 = isIpv6 q ∧ q ∈ Dict.keys ps then wanted isIpv6 table v ipv6 q
      else f.networks v ipv6 q := by
  induction ps generalizing f with
  | nil => exact ⟨h, rfl, fun v ipv6 q => by simp [Frr.run, Dict.keys]⟩
  | cons e ps ih =>
    obtain ⟨hserves, hflag, hnet⟩ := run_add h e.1 vrf e.2
    obtain ⟨hserves', hflag', hnet'⟩ := ih (fun x hx => hps x (List.mem_cons_of_mem _ hx)) hserves
    dsimp only
    rw [List.flatMap_cons, Frr.run_append]
    refine ⟨hserves', hflag'.trans hflag, fun v ipv6 q => ?_⟩
    rw [hnet', hnet]
    simp only [Dict.mem_keys_cons]
    by_cases hv : v = vrf ∧ ipv6 = isIpv6 q
    · obtain ⟨rfl, rfl⟩ := hv
      by_cases hq : q = e.1
      · subst hq
        simp [wanted, hps e List.mem_cons_self]
      · simp [hq]
    · have h1 : ¬(v = vrf ∧ ipv6 = isIpv6 q ∧ q ∈ Dict.keys ps) := fun h => hv ⟨h.1, h.2.1⟩
      have h2 : ¬(v = vrf ∧ ipv6 = isIpv6 e.1 ∧ q = e.1) := fun h => hv ⟨h.1, h.2.2 ▸ h.2.1⟩
      have h3 : ¬(v = vrf ∧ ipv6 = isIpv6 q ∧ (q = e.1 ∨ q ∈ Dict.keys ps)) :=
        fun h => hv ⟨h.1, h.2.1⟩
      rw [if_neg h1, if_neg h2, if_neg h3]

/-- The callback switches the import check off for its VRFs and writes their statements. -/
theorem run_replay {table items : Dict String (Dict String Data)} (hwf : table.WF2)
    (hitems : ∀ item ∈ items, item ∈ table) {asn : String} {f : Frr} (h : f.Serves asn) :
    let f' := f.run (replayCommands isIpv6 asn items)
    f'.Serves asn ∧
      (∀ v, f'.noImportCheck v = if v ∈ Dict.keys items then true else f.noImportCheck v) ∧
      ∀ v ipv6 q, f'.networks v ipv6 q =
        if ipv6 = isIpv6 q ∧ ∃ item ∈ items, v = item.1 ∧ q ∈ item.2.keys then
          wanted isIpv6 table v ipv6 q
        else f.networks v ipv6 q := by
  unfold replayCommands
  induction items generalizing f with
  | nil => exact ⟨h, fun v => by simp [Frr.run, Dict.keys], fun v ipv6 q => by simp [Frr.run]⟩
  | cons item items ih =>
    have hitem := fun e he => lookup2_of_mem (e := e) hwf (hitems item List.mem_cons_self) he
    have hcheck := Frr.run_importCheckCommands h item.1 true
    have hserves1 : (f.run (importCheckCommands asn item.1 true)).Serves asn := by
      rw [hcheck]
      exact h.enter item.1
    obtain ⟨hserves2, hflag2, hnet2⟩ := run_readd hitem hserves1
    have htail := fun x hx => hitems x (List.mem_cons_of_mem _ hx)
    obtain ⟨hserves3, hflag3, hnet3⟩ := ih htail hserves2
    dsimp only
    rw [List.flatMap_cons, Frr.run_append, Frr.run_append]
    refine ⟨hserves3, fun v => ?_, fun v ipv6 q => ?_⟩
    · rw [hflag3, hflag2, hcheck]
      simp only [Dict.mem_keys_cons]
      by_cases hrest : v ∈ Dict.keys items
      · rw [if_pos hrest, if_pos (Or.inr hrest)]
      · rw [if_neg hrest]
        by_cases hv : v = item.1
        · rw [if_pos (Or.inl hv)]
          exact if_pos hv
        · rw [if_neg (not_or.2 ⟨hv, hrest⟩)]
          exact if_neg hv
    · rw [hnet3, hnet2, hcheck]
      simp only [List.exists_mem_cons_iff]
      by_cases hrest : ipv6 = isIpv6 q ∧ ∃ item ∈ items, v = item.1 ∧ q ∈ item.2.keys
      · rw [if_pos hrest, if_pos ⟨hrest.1, Or.inr hrest.2⟩]
      · rw [if_neg hrest]
        by_cases hhead : v = item.1 ∧ ipv6 = isIpv6 q ∧ q ∈ item.2.keys
        · rw [if_pos hhead, if_pos ⟨hhead.2.1, Or.inl ⟨hhead.1, hhead.2.2⟩⟩]
        · rw [if_neg hhead, if_neg]
          · rfl
          rintro ⟨hq, ⟨hv, hk⟩ | hex⟩
          · exact hhead ⟨hv, hq, hk⟩
          · exact hrest ⟨hq, hex⟩

/-- The callback brings FRR to the table, from an FRR without statements or with those of the
    table. -/
theorem refines_replay {table : Dict String (Dict String Data)} (hwf : table.WF2) {asn : String}
    {f : Frr} (hserves : f.Serves asn) (h : f = Frr.initial ∨ Refines isIpv6 table f) :
    (f.run (replayCommands isIpv6 asn table)).Serves asn ∧
      Refines isIpv6 table (f.run (replayCommands isIpv6 asn table)) := by
  have hmem : ∀ v, v ∈ table.keys ↔ table.getD v [] ≠ [] := by
    intro v
    rw [Dict.mem_keys_iff, Dict.getD]
    cases hv : table.get? v with
    | none => simp
    | some ps => simpa using hwf.nonempty _ (Dict.mem_of_get? hv)
  obtain ⟨hserves', hflag, hnet⟩ := run_replay hwf (fun _ h => h) hserves
  refine ⟨hserves', fun v => ?_, fun v ipv6 q => ?_⟩
  · rw [hflag, ← hmem]
    by_cases hv : v ∈ table.keys
    · simp [hv]
    · rw [if_neg hv]
      rcases h with rfl | h
      · simp [Frr.initial, hv]
      · rw [h.flag v, hmem]
  · rw [hnet]
    split_ifs with hnot
    · rfl
    · -- a route that is wanted is in an item
      have hnone : wanted isIpv6 table v ipv6 q = none := by
        unfold wanted
        split_ifs with hq
        · cases hlook : table.lookup2 v q with
          | none => rfl
          | some data =>
            refine absurd ⟨hq, _, Dict.mem_of_get? (Dict.get?_of_lookup2 hlook), rfl, ?_⟩ hnot
            rw [Dict.mem_keys_iff]
            intro hn
            rw [Dict.lookup2, hn] at hlook
            simp at hlook
        · rfl
      rcases h with rfl | h
      · rw [hnone]
        rfl
      · exact h.networks v ipv6 q

/-- The import check is switched under a condition. -/
theorem run_importCheck_if {f : Frr} {asn : String} (h : f.Serves asn) (vrf : String) (add : Bool)
    (c : Prop) [Decidable c] :
    let f' := f.run (if c then importCheckCommands asn vrf add else [])
    f'.Serves asn ∧ f'.networks = f.networks ∧
      ∀ v, f'.noImportCheck v = if c ∧ v = vrf then add else f.noImportCheck v := by
  dsimp only
  by_cases hc : c
  · rw [if_pos hc, Frr.run_importCheckCommands h]
    refine ⟨h.enter vrf, rfl, fun v => ?_⟩
    simp only [hc, true_and]
    rfl
  · rw [if_neg hc]
    exact ⟨h, rfl, fun v => by simp [hc, Frr.run]⟩

/-- One statement changes in FRR and in the table. -/
theorem wanted_update {table table' : Dict String (Dict String Data)} {vrf ipPrefix : String}
    {value : Option Data}
    (h : ∀ v q, table'.lookup2 v q =
      if (vrf, ipPrefix) = (v, q) then value else table.lookup2 v q) (v : String) (ipv6 : Bool)
    (q : String) :
    (if v = vrf ∧ ipv6 = isIpv6 ipPrefix ∧ q = ipPrefix then value.map routeMapOf
      else wanted isIpv6 table v ipv6 q) = wanted isIpv6 table' v ipv6 q := by
  unfold wanted
  rw [h]
  by_cases hroute : v = vrf ∧ q = ipPrefix
  · obtain ⟨rfl, rfl⟩ := hroute
    by_cases hipv6 : ipv6 = isIpv6 q
    · simp [hipv6]
    · simp [hipv6]
  · have hkey : (vrf, ipPrefix) ≠ (v, q) := by
      rintro ⟨rfl, rfl⟩
      exact hroute ⟨rfl, rfl⟩
    rw [if_neg hkey, if_neg fun hand => hroute ⟨hand.1, hand.2.2⟩]

theorem refines_add {m : Mgr} {asn vrf ipPrefix : String} {data : Data} {f : Frr}
    (hasn : m.bgpAsn = some asn) (hserves : f.Serves asn)
    (h : Refines isIpv6 m.advertisedRoutes f) :
    let r := addRouteAdvertisement isIpv6 m vrf ipPrefix data
    (f.run r.2).Serves asn ∧ Refines isIpv6 r.1.advertisedRoutes (f.run r.2) := by
  simp only [addRouteAdvertisement, hasn, Frr.run_append]
  obtain ⟨hserves1, hnet1, hflag1⟩ :=
    run_importCheck_if hserves vrf true (m.advertisedRoutes.getD vrf [] = [])
  obtain ⟨hserves2, hflag2, hnet2⟩ := run_add hserves1 ipPrefix vrf data
  refine ⟨hserves2, fun v => ?_, fun v ipv6 q => ?_⟩
  · rw [hflag2, hflag1, Dict.set2, Dict.getD_set]
    by_cases hv : v = vrf
    · subst hv
      rw [if_pos rfl]
      have hne := Dict.set_ne_nil (m.advertisedRoutes.getD v []) ipPrefix data
      by_cases hempty : m.advertisedRoutes.getD v [] = []
      · rw [if_pos ⟨hempty, rfl⟩]
        exact iff_of_true rfl hne
      · rw [if_neg fun hand => hempty hand.1, h.flag v]
        exact iff_of_true hempty hne
    · rw [if_neg fun hand => hv hand.2, if_neg (Ne.symm hv)]
      exact h.flag v
  · rw [hnet2, hnet1, h.networks]
    exact wanted_update (fun v q => Dict.lookup2_set2 _ _ v _ q data) v ipv6 q

theorem refines_remove {m : Mgr} {asn vrf ipPrefix : String} {f : Frr}
    (hasn : m.bgpAsn = some asn) (hserves : f.Serves asn)
    (h : Refines isIpv6 m.advertisedRoutes f) :
    let r := removeRouteAdvertisement isIpv6 m vrf ipPrefix
    (f.run r.2).Serves asn ∧ Refines isIpv6 r.1.advertisedRoutes (f.run r.2) := by
  unfold removeRouteAdvertisement
  dsimp only
  by_cases hmem : ipPrefix ∈ (m.advertisedRoutes.getD vrf []).keys
  swap
  · rw [if_pos hmem]
    exact ⟨hserves, h⟩
  rw [if_neg (not_not.2 hmem), hasn]
  obtain ⟨hserves1, hnet1, hflag1⟩ := run_importCheck_if hserves vrf false
    ((m.advertisedRoutes.erase2 vrf ipPrefix).getD vrf [] = [])
  simp only [Frr.run_append, Frr.run_deleteCommands hserves1]
  refine ⟨hserves1.enter vrf, fun v => ?_, fun v ipv6 q => ?_⟩
  · show Frr.noImportCheck (f.run _) v = true ↔ _
    rw [hflag1]
    by_cases hv : v = vrf
    · subst hv
      have hne : m.advertisedRoutes.getD v [] ≠ [] := by
        rintro hnil
        rw [hnil] at hmem
        exact List.not_mem_nil hmem
      by_cases hempty : (m.advertisedRoutes.erase2 v ipPrefix).getD v [] = []
      · simp [hempty]
      · rw [if_neg fun hand => hempty hand.1, h.flag v]
        exact iff_of_true hne hempty
    · rw [if_neg fun hand => hv hand.2, h.flag v, Dict.getD_ne_nil_iff, Dict.getD_ne_nil_iff]
      refine exists_congr fun q => ?_
      rw [Dict.lookup2_erase2, if_neg fun hkey => hv (Prod.mk.inj hkey).1.symm]
  · show (if v = vrf ∧ ipv6 = isIpv6 ipPrefix ∧ q = ipPrefix then none
      else Frr.networks (f.run _) v ipv6 q) = _
    rw [hnet1, h.networks]
    exact wanted_update (fun v q => Dict.lookup2_erase2 _ _ v _ q) v ipv6 q

/-! ## Runs -/

/-- What holds after the messages `es`. -/
structure Good (isIpv6 : String → Bool) (es : List Event) (s : Sys) : Prop where
  table : s.mgr.advertisedRoutes.WF2
  last : ∀ vrf q, s.mgr.advertisedRoutes.lookup2 vrf q = lastSet vrf q es
  asn : ∀ asn, .metadata asn ∈ es → s.mgr.bgpAsn ≠ none
  unknown : s.mgr.bgpAsn = none → s.frr = Frr.initial
  known : ∀ asn ∈ s.mgr.bgpAsn, s.frr.Serves asn ∧ Refines isIpv6 s.mgr.advertisedRoutes s.frr

theorem lastSet_append (vrf ipPrefix : String) (es : List Event) (e : Event) :
    lastSet vrf ipPrefix (es ++ [e]) =
      match e with
      | .set key data =>
        if Valid data ∧ Names key vrf ipPrefix then some data else lastSet vrf ipPrefix es
      | .del key => if Names key vrf ipPrefix then none else lastSet vrf ipPrefix es
      | .metadata _ => lastSet vrf ipPrefix es := by
  rw [lastSet, List.foldl_append]
  rfl

theorem lookup2_remove (m : Mgr) (vrf ipPrefix v q : String) :
    (removeRouteAdvertisement isIpv6 m vrf ipPrefix).1.advertisedRoutes.lookup2 v q =
      if (vrf, ipPrefix) = (v, q) then none else m.advertisedRoutes.lookup2 v q := by
  unfold removeRouteAdvertisement
  dsimp only
  by_cases hmem : ipPrefix ∈ (m.advertisedRoutes.getD vrf []).keys
  · rw [if_neg (not_not.2 hmem)]
    exact Dict.lookup2_erase2 _ _ _ _ _
  · rw [if_pos hmem]
    rw [Dict.mem_keys_iff, not_not] at hmem
    split_ifs with hkey
    · obtain ⟨rfl, rfl⟩ := Prod.mk.inj hkey
      exact hmem
    · rfl

theorem removeRouteAdvertisement_frame {m : Mgr} (h : m.advertisedRoutes.WF2)
    (vrf ipPrefix : String) :
    let r := removeRouteAdvertisement isIpv6 m vrf ipPrefix
    r.1.bgpAsn = m.bgpAsn ∧ r.1.advertisedRoutes.WF2 ∧ (m.bgpAsn = none → r.2 = []) := by
  unfold removeRouteAdvertisement
  dsimp only
  split
  · exact ⟨rfl, h, fun _ => rfl⟩
  · refine ⟨rfl, h.erase2 vrf ipPrefix, fun hn => ?_⟩
    rw [hn]

theorem Good.set {es : List Event} {s : Sys} (h : Good isIpv6 es s) (key : String) (data : Data) :
    Good isIpv6 (es ++ [.set key data]) (next isIpv6 s (.set key data)) := by
  have hasns : ∀ asn, .metadata asn ∈ es ++ [.set key data] → s.mgr.bgpAsn ≠ none :=
    fun asn hasn => h.asn asn (by simpa using hasn)
  rw [next]
  by_cases hvalid : setHandlerValidate data = true
  · rw [if_pos hvalid]
    refine ⟨h.table.set2 _ _ _, fun vrf q => ?_, hasns, fun hn => ?_, fun asn hasn => ?_⟩
    · rw [lastSet_append, ← h.last]
      simp only [setHandlerValidate_iff.1 hvalid, true_and, ← splitKey_eq_iff]
      exact Dict.lookup2_set2 _ _ _ _ _ _
    · have hnone : s.mgr.bgpAsn = none := hn
      simp only [push, addRouteAdvertisement, hnone]
      exact h.unknown hnone
    · obtain ⟨hserves, href⟩ := h.known asn hasn
      exact refines_add hasn hserves href
  · rw [if_neg hvalid]
    refine ⟨h.table, fun vrf q => ?_, hasns, h.unknown, h.known⟩
    rw [lastSet_append, h.last]
    simp [← setHandlerValidate_iff, hvalid]

theorem Good.del {es : List Event} {s : Sys} (h : Good isIpv6 es s) (key : String) :
    Good isIpv6 (es ++ [.del key]) (next isIpv6 s (.del key)) := by
  obtain ⟨hasnEq, hwf, hcmds⟩ := removeRouteAdvertisement_frame h.table
    (splitKey key).1 (splitKey key).2
  rw [next]
  refine ⟨hwf, fun vrf q => ?_, fun asn hasn => ?_, fun hn => ?_, fun asn hasn => ?_⟩
  · rw [lastSet_append, ← h.last]
    simp only [← splitKey_eq_iff]
    exact lookup2_remove _ _ _ _ _
  · rw [push, hasnEq]
    exact h.asn asn (by simpa using hasn)
  · have hnone : s.mgr.bgpAsn = none := hasnEq.symm.trans hn
    rw [push, hcmds hnone]
    exact h.unknown hnone
  · have hasn : s.mgr.bgpAsn = some asn := hasnEq.symm.trans hasn
    obtain ⟨hserves, href⟩ := h.known asn hasn
    exact refines_remove hasn hserves href

theorem Good.metadata {es : List Event} {s : Sys} (h : Good isIpv6 es s) {asn : String}
    (hsame : ∀ known ∈ s.mgr.bgpAsn, known = asn) :
    Good isIpv6 (es ++ [.metadata asn]) (next isIpv6 s (.metadata asn)) := by
  have hreplay : onBgpAsnChange isIpv6 { s.mgr with bgpAsn := some asn } =
      ({ s.mgr with bgpAsn := some asn }, replayCommands isIpv6 asn s.mgr.advertisedRoutes) :=
    onBgpAsnChange_eq rfl h.table
  rw [next, hreplay]
  refine ⟨h.table, fun vrf q => ?_, fun _ _ => nofun, nofun, fun asn' hasn' => ?_⟩
  · rw [lastSet_append]
    exact h.last vrf q
  · obtain rfl := Option.some.inj hasn'
    cases hk : s.mgr.bgpAsn with
    | none =>
      have hinit := h.unknown hk
      refine refines_replay h.table ?_ (Or.inl hinit)
      rw [hinit]
      exact nofun
    | some known =>
      obtain ⟨hserves, href⟩ := h.known known hk
      rw [hsame known hk] at hserves
      exact refines_replay h.table hserves (Or.inr href)

/-- Once `bgp_asn` is known, FRR and the table hold exactly what the last SETs ask for, and
    the import check is off for exactly the VRFs with a route. -/
theorem advertised_of_run {es : List Event} {s : Sys}
    (hrun : Run (Step isIpv6) SameAsn start es s) {asn : String} (hasn : .metadata asn ∈ es)
    (vrf : String) :
    (∀ ipv6 q, s.frr.networks vrf ipv6 q =
        if ipv6 = isIpv6 q then
          (lastSet vrf q es).map fun data => (data.get? "profile").map (· ++ "_RM")
        else none) ∧
      (∀ q, s.mgr.advertisedRoutes.lookup2 vrf q = lastSet vrf q es) ∧
      (s.frr.noImportCheck vrf = true ↔ ∃ q, lastSet vrf q es ≠ none) := by
  have hgood : Good isIpv6 es s := by
    refine hrun.history ?_ ?_
    · rintro es s e s' h hok rfl
      cases e with
      | set key data => exact h.set key data
      | del key => exact h.del key
      | metadata asn => exact h.metadata hok
    · exact ⟨⟨List.nodup_nil, nofun, nofun⟩, fun _ _ => rfl, nofun, fun _ => rfl, nofun⟩
  obtain ⟨asn, hasn⟩ := Option.ne_none_iff_exists'.1 (hgood.asn asn hasn)
  have href := (hgood.known asn hasn).2
  refine ⟨fun ipv6 q => ?_, hgood.last vrf, ?_⟩
  · rw [href.networks, wanted, hgood.last]
    rfl
  · rw [href.flag, Dict.getD_ne_nil_iff]
    exact exists_congr fun q => by rw [hgood.last]

/-! ## A run -/

def hasColon (s : String) : Bool := s.toList.contains ':'

theorem step_next (s : Sys) (e : Event) (s' : Sys) (h : some (next hasColon s e) = some s') :
    Step hasColon s e s' := (Option.some.inj h).symm

instance (s : Sys) (e : Event) : Decidable (SameAsn s e) :=
  match e with
  | .set _ _ => inferInstanceAs (Decidable True)
  | .del _ => inferInstanceAs (Decidable True)
  | .metadata asn => inferInstanceAs (Decidable (∀ known ∈ s.mgr.bgpAsn, known = asn))

/-- Routes before and after `bgp_asn` is known, one of them with a profile that is taken back, one
    that keeps its profile, and a VRF that loses its only route. -/
def sample : List Event :=
  [.set "10.1.0.0/24" [("profile", "FROM_SDN_SLB_ROUTES")], .set "Vnet1|fc00::/64" [("", "")],
    .metadata "65100", .set "Vnet2|10.1.0.0/24" [("profile", "FROM_SDN_SLB_ROUTES")],
    .set "10.1.0.0/24" [("", "")], .del "Vnet1|fc00::/64"]

theorem advertised_sample :
    ∃ s, Run (Step hasColon) SameAsn start sample s ∧
      s.frr.networks "default" false "10.1.0.0/24" = some none ∧
      s.frr.networks "Vnet2" false "10.1.0.0/24" = some (some "FROM_SDN_SLB_ROUTES_RM") ∧
      s.frr.networks "Vnet1" true "fc00::/64" = none ∧ s.frr.noImportCheck "default" = true := by
  obtain ⟨s, hrun, -⟩ : ∃ s, Run (Step hasColon) SameAsn start sample s ∧ True :=
    exists_run step_next (by decide +kernel)
  have hasn : .metadata "65100" ∈ sample := by simp [sample]
  obtain ⟨hnet, -, hflag⟩ := advertised_of_run hrun hasn "default"
  obtain ⟨hnet', -, -⟩ := advertised_of_run hrun hasn "Vnet1"
  obtain ⟨hnet₂, -, -⟩ := advertised_of_run hrun hasn "Vnet2"
  refine ⟨s, hrun, ?_, ?_, ?_, hflag.2 ⟨"10.1.0.0/24", by decide +kernel⟩⟩
  · rw [hnet]
    decide +kernel
  · rw [hnet₂]
    decide +kernel
  · rw [hnet']
    decide +kernel

end SonicBuildimage.Bgpcfgd.AdvertiseRt
