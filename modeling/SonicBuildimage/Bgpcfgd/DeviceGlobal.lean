/-
  IDF isolation in bgpcfgd: `DeviceGlobalCfgMgr` (`bgpcfgd/managers_device_global.py`) and the
  additions of peers (`BGPPeerMgrBase.add_peer` and `BGPPeerGroupMgr`, `bgpcfgd/managers_bgp.py`).

  Model (read this before the theorems).
  * A pushed command is a list of parts: text, or one of the two IDF templates with the
    `isolation_status` it is rendered with.  The IDF templates render without an error.
  * `Env` and `PeerMgr` hold netaddr and the other templates; `none` of a template is a
    `TemplateError`, `none` of a function is an uncaught exception.
  * A put of the device-global manager calls back the peer managers, which replay queued peers.
    Which peers these are is part of the event: any list, of any managers, after each of the puts.
  * The switch type is known from the start, or absent (`""`).

  The manager of the table skips the IDF templates on a switch type other than SpineRouter.  The
  peer managers have their own instance of the class and render the isolate template whenever the
  state is not `unisolated`: `check_state_and_get_idf_isolation_routemaps` does not look at the
  switch type.  So a peer that is added while such a device is isolated pushes the isolation policy
  (`idf_pushed_for_peer`).

  Proved: `idf_of_run`.  In every run in which, on such a switch type, peers are added only in the
  state `unisolated`: without a switch type, and on a SpineRouter, the last IDF policy that was
  pushed is the one of the current state, which is that of the last SET; on every other switch type
  none is pushed.
-/
import SonicBuildimage.Bgpcfgd.Intf

namespace SonicBuildimage.Bgpcfgd.DeviceGlobal

open SonicBuildimage.Lib Directory

/-! ## Commands -/

/-- An IDF template, with its `isolation_status`. -/
inductive IdfPolicy where
  | isolate (isolationStatus : String)
  | unisolate
deriving DecidableEq

inductive Part where
  | text (s : String)
  | idf (policy : IdfPolicy)

def Part.idf? : Part → Option IdfPolicy
  | .text _ => none
  | .idf policy => some policy

/-- A pushed command. -/
abbrev Cmd := List Part

/-- The IDF policies of the commands, in order. -/
def idfPolicies (cmds : List Cmd) : List IdfPolicy := cmds.flatten.filterMap Part.idf?

/-- The template for a state. -/
def policyOf (idfIsolationState : String) : IdfPolicy :=
  if idfIsolationState = "unisolated" then .unisolate else .isolate idfIsolationState

/-- netaddr, and the traffic shift templates. -/
structure Env where
  /-- `get_ts_routemaps`: with the TSA template (`true`) or the TSB template. -/
  getTsRoutemaps : Bool → List String → String
  /-- `cfg.replace("#012", "\n").split("\n")` -/
  cfgLines : String → List String
  /-- `TemplateFabric.is_ipv4` -/
  isIpv4 : String → Bool
  /-- `str(netaddr.IPNetwork(s).ip)` -/
  ipOf : String → Option String

/-! ## The device-global values -/

/-- A value of the `BGP_DEVICE_GLOBAL` slot; without it the default. -/
def globalValue (dir : Directory) (key default : String) : String :=
  match dir.lookup "CONFIG_DB" "BGP_DEVICE_GLOBAL" key with
  | some (.text s) => s
  | _ => default

def putGlobal (dir : Directory) (key value : String) : Directory :=
  dir.store (getSlotName "CONFIG_DB" "BGP_DEVICE_GLOBAL") key (.text value)

/-- The state of the isolation, as `set_handler` reads it. -/
def idfIsolationState (dir : Directory) : String :=
  globalValue dir "idf_isolation_state" "unisolated"

/-- `check_state_and_get_tsa_routemaps` -/
def checkStateAndGetTsaRoutemaps (env : Env) (dir : Directory) (cfg : String) : String :=
  if globalValue dir "tsa_enabled" "" = "true" then env.getTsRoutemaps true (env.cfgLines cfg)
  else ""

/-- `check_state_and_get_idf_isolation_routemaps` -/
def checkStateAndGetIdfIsolationRoutemaps (dir : Directory) : Cmd :=
  match dir.lookup "CONFIG_DB" "BGP_DEVICE_GLOBAL" "idf_isolation_state" with
  | some (.text state) => if state ≠ "unisolated" then [.idf (.isolate state)] else []
  | _ => []

/-! ## Peers -/

/-- The attributes of a peer. -/
abbrev PeerData := Dict String String

/-- The parameters of the peer templates. -/
structure Kwargs where
  deviceMetadata : Dict String Val
  bgpBbr : Dict String Val
  bgpAsn : String
  vrf : String
  neighborAddr : String
  bgpSession : PeerData
  loopbackInterface : List (List String)
  loopback0Ipv4 : Option String
  deviceNeighborMetadata : Option (Dict String Val)

/-- A peer manager and its templates. -/
structure PeerMgr where
  peerType : String
  checkNeigMeta : Bool
  checkDeploymentId : Bool
  policyTemplate : Kwargs → Option String
  peergroupTemplate : Kwargs → Option String
  addTemplate : Kwargs → Option String

/-- `deps` of `BGPPeerMgrBase` -/
def PeerMgr.deps (mgr : PeerMgr) : List (String × String × String) :=
  [("CONFIG_DB", "DEVICE_METADATA", "localhost/bgp_asn"),
    ("CONFIG_DB", "LOOPBACK_INTERFACE", "Loopback0"),
    ("CONFIG_DB", "BGP_DEVICE_GLOBAL", "tsa_enabled"),
    ("CONFIG_DB", "BGP_DEVICE_GLOBAL", "idf_isolation_state"),
    ("LOCAL", "local_addresses", ""),
    ("LOCAL", "interfaces", "")] ++
  (if mgr.checkNeigMeta then [("CONFIG_DB", "DEVICE_NEIGHBOR_METADATA", "")] else []) ++
  (if mgr.checkDeploymentId then [("CONFIG_DB", "DEVICE_METADATA", "localhost/deployment_id")]
    else []) ++
  if mgr.peerType = "internal" then [("CONFIG_DB", "LOOPBACK_INTERFACE", "Loopback4096")] else []

def getSlot (dir : Directory) (db table : String) : Dict String Val :=
  dir.data.getD (getSlotName db table) []

/-- A field of `get_slot("CONFIG_DB", "DEVICE_METADATA")["localhost"]` -/
def localhost (dir : Directory) (field : String) : Option Val :=
  match dir.lookup "CONFIG_DB" "DEVICE_METADATA" "localhost" with
  | some (.dict fields) => Dict.get? fields field
  | _ => none

def bgpAsn (dir : Directory) : Option String :=
  match localhost dir "bgp_asn" with
  | some (.text asn) => some asn
  | _ => none

/-- `s[:s.find('/')]`: without a slash the last character goes. -/
def uptoSlash (s : String) : String :=
  match splitOnce "/" s with
  | some (ip, _) => ip
  | none => String.ofList s.toList.dropLast

/-- `get_lo_ipv4` -/
def getLoIpv4 (env : Env) (dir : Directory) (loopbackStr : String) : Option String :=
  (Dict.keys (getSlot dir "CONFIG_DB" "LOOPBACK_INTERFACE")).findSome? fun loopback =>
    if startswith loopback loopbackStr then
      let ip := uptoSlash (remove loopbackStr loopback)
      if env.isIpv4 ip then some ip else none
    else none

/-- `get_local_interface` -/
def getLocalInterface (dir : Directory) (localAddr : String) : Option Val :=
  match dir.lookup "LOCAL" "local_addresses" localAddr with
  | some entry =>
    match InterfaceMgr.entryInterface entry with
    | some (.text interface) => dir.lookup "LOCAL" "interfaces" interface
    | _ => none
  | none => none

/-- `get_vnet` -/
def getVnet (interface : Dict String Val) : Option String :=
  match interface.get? "vnet_name" with
  | some (.text vnet) => if vnet = "" then none else some vnet
  | _ => none

/-- What `add_peer` does before it renders: return a value, or go on with the data. -/
inductive Ready where
  | done (result : Bool)
  | go (data : PeerData)

/-- The part of `add_peer` on `local_addr`. -/
def checkLocalAddr (env : Env) (dir : Directory) (data : PeerData) : Option Ready :=
  match data.get? "local_addr" with
  | none => some (.go data)
  | some localAddr =>
    (env.ipOf localAddr).map fun ip =>
      match getLocalInterface dir ip with
      -- a dictionary without items is false
      | some (.dict (item :: interface)) =>
        if (getVnet (item :: interface)).isSome then .done true
        else .go (data.set "local_addr" ip)
      | _ => .done false

/-- `update_policy` -/
def updatePolicy (mgr : PeerMgr) (kwargs : Kwargs) : List Cmd :=
  match mgr.policyTemplate kwargs with
  | some policy => [[.text policy]]
  | none => []

/-- The first line of a command for a vrf. -/
def routerBgp (bgpAsn vrf : String) : String :=
  if vrf = "default" then "router bgp " ++ bgpAsn ++ "\n"
  else "router bgp " ++ bgpAsn ++ " vrf " ++ vrf ++ "\n"

/-- `update_pg` -/
def updatePg (env : Env) (mgr : PeerMgr) (dir : Directory) (kwargs : Kwargs) : List Cmd :=
  match mgr.peergroupTemplate kwargs with
  | some pg =>
    [.text (routerBgp kwargs.bgpAsn kwargs.vrf ++ pg ++ checkStateAndGetTsaRoutemaps env dir pg) ::
      checkStateAndGetIdfIsolationRoutemaps dir]
  | none => []

/-- The end of `add_peer`: `apply_op` of the instance. -/
def addInstance (mgr : PeerMgr) (kwargs : Kwargs) : List Cmd :=
  match mgr.addTemplate kwargs with
  | some cmd =>
    [[.text (routerBgp kwargs.bgpAsn kwargs.vrf ++ " bgp suppress-fib-pending\n" ++ cmd)]]
  | none => []

/-- `kwargs` of `add_peer` -/
def peerKwargs (mgr : PeerMgr) (dir : Directory) (bgpAsn : String) (lo0Ipv4 : Option String)
    (vrf nbr : String) (data : PeerData) : Kwargs where
  deviceMetadata := getSlot dir "CONFIG_DB" "DEVICE_METADATA"
  bgpBbr := getSlot dir "CONFIG_DB" "BGP_BBR"
  bgpAsn := bgpAsn
  vrf := vrf
  neighborAddr := nbr
  bgpSession := data
  loopbackInterface :=
    (Dict.keys (getSlot dir "CONFIG_DB" "LOOPBACK_INTERFACE")).filterMap fun key =>
      if '|' ∈ key.toList then some (split '|' key) else none
  loopback0Ipv4 := lo0Ipv4
  deviceNeighborMetadata :=
    if mgr.checkNeigMeta then some (getSlot dir "CONFIG_DB" "DEVICE_NEIGHBOR_METADATA") else none

/-- `add_peer`: its result and the commands it pushes. -/
def addPeer (env : Env) (mgr : PeerMgr) (dir : Directory) (vrf nbr : String) (data : PeerData) :
    Option (Bool × List Cmd) :=
  (bgpAsn dir).bind fun asn =>
    let lo0Ipv4 := getLoIpv4 env dir "Loopback0|"
    let noRouterId := (localhost dir "bgp_router_id").isNone
    if lo0Ipv4.isNone && noRouterId then some (false, [])
    else if mgr.peerType = "internal" ∧ (getLoIpv4 env dir "Loopback4096|").isNone ∧ noRouterId then
      some (false, [])
    else (checkLocalAddr env dir data).map fun ready =>
      match ready with
      | .done result => (result, [])
      | .go data =>
        let neigmeta := getSlot dir "CONFIG_DB" "DEVICE_NEIGHBOR_METADATA"
        if mgr.checkNeigMeta && (data.get? "name").any fun name => (neigmeta.get? name).isNone then
          (false, [])
        else
          let kwargs := peerKwargs mgr dir asn lo0Ipv4 vrf nbr data
          (true, updatePolicy mgr kwargs ++ updatePg env mgr dir kwargs ++ addInstance mgr kwargs)

/-! ## Events -/

/-- A SET of a peer that is not there yet. -/
structure PeerSet where
  mgr : PeerMgr
  vrf : String
  nbr : String
  data : PeerData

/-- The directory, and the commands pushed so far. -/
structure Sys where
  dir : Directory
  pushed : List Cmd

/-- A peer is added as soon as the dependencies of its manager are there. -/
def handlePeer (env : Env) (s : Sys) (p : PeerSet) : Option Sys :=
  match s.dir.availableDeps p.mgr.deps with
  | some true => (addPeer env p.mgr s.dir p.vrf p.nbr p.data).map fun r =>
      { s with pushed := s.pushed ++ r.2 }
  | some false => some s
  | none => none

/-- The callbacks of a put. -/
def replayPeers (env : Env) (s : Sys) (peers : List PeerSet) : Option Sys :=
  peers.foldlM (handlePeer env) s

/-- A SET of the device-global row: its data, the configuration that the manager reads, and the
    peers that are replayed after each of the puts. -/
structure GlobalSet where
  data : Dict String String
  cfgText : List String
  onTsa : List PeerSet
  onIdf : List PeerSet

/-- `isolate_unisolate_device` -/
def isolateUnisolateDevice (env : Env) (cfgText : List String) (tsaStatus : String) : Cmd :=
  [.text ("\n" ++ env.getTsRoutemaps (tsaStatus == "true") cfgText)]

/-- `downstream_isolate_unisolate` -/
def downstreamIsolateUnisolate (state : String) : Cmd := [.text "\n", .idf (policyOf state)]

/-- `tsa_enabled` in `set_handler` -/
def setTsa (env : Env) (e : GlobalSet) (s : Sys) : Option Sys :=
  match e.data.get? "tsa_enabled" with
  | none => some s
  | some status =>
    (replayPeers env { s with dir := putGlobal s.dir "tsa_enabled" status } e.onTsa).map fun s' =>
      if globalValue s.dir "tsa_enabled" "false" ≠ status then
        { s' with pushed := s'.pushed ++ [isolateUnisolateDevice env e.cfgText status] }
      else s'

/-- `idf_isolation_state` in `set_handler`, with the state that was read at its start -/
def setIdf (env : Env) (switchType : String) (e : GlobalSet) (oldState : String) (s : Sys) :
    Option Sys :=
  match e.data.get? "idf_isolation_state" with
  | none => some s
  | some state =>
    (replayPeers env { s with dir := putGlobal s.dir "idf_isolation_state" state } e.onIdf).map
      fun s' =>
        if oldState ≠ state then
          if switchType ≠ "" ∧ switchType ≠ "SpineRouter" then s'
          else { s' with pushed := s'.pushed ++ [downstreamIsolateUnisolate state] }
        else s'

/-- `DeviceGlobalCfgMgr.set_handler` -/
def setHandler (env : Env) (switchType : String) (e : GlobalSet) (s : Sys) : Option (Sys × Bool) :=
  if e.data = [] then some (s, false)
  else ((setTsa env e s).bind (setIdf env switchType e (idfIsolationState s.dir))).map fun s' =>
    (s', true)

inductive Event where
  | set (e : GlobalSet)
  | addPeer (p : PeerSet)
  /-- Another manager writes to, or removes from, the directory. -/
  | put (db table key : String) (value : Val)
  | remove (db table key : String)

/-- The isolation state that an event sets. -/
def Event.state? : Event → Option String
  | .set e => e.data.get? "idf_isolation_state"
  | _ => none

/-- The isolation state of the last SET that has one. -/
def lastState (es : List Event) : String := (es.filterMap Event.state?).getLastD "unisolated"

theorem lastState_append (es : List Event) (e : Event) :
    lastState (es ++ [e]) = e.state?.getD (lastState es) := by
  unfold lastState
  rw [List.filterMap_append, List.filterMap_cons, List.filterMap_nil]
  cases e.state? <;> simp

/-- The slot of the device-global values. -/
def globalSlot : String := getSlotName "CONFIG_DB" "BGP_DEVICE_GLOBAL"

def next (env : Env) (switchType : String) (s : Sys) : Event → Option Sys
  | .set e => (setHandler env switchType e s).map Prod.fst
  | .addPeer p => handlePeer env s p
  | .put db table key value =>
    if getSlotName db table = globalSlot then none
    else some { s with dir := s.dir.store (getSlotName db table) key value }
  | .remove db table key =>
    if getSlotName db table = globalSlot then none
    else some { s with dir := s.dir.remove db table key }

def Step (env : Env) (switchType : String) (s : Sys) (e : Event) (s' : Sys) : Prop :=
  next env switchType s e = some s'

/-- The switch types on which IDF policies are pushed. -/
def InScope (switchType : String) : Prop := switchType = "" ∨ switchType = "SpineRouter"

instance (switchType : String) : Decidable (InScope switchType) :=
  inferInstanceAs (Decidable (_ ∨ _))

/-- On other switch types peers are added only in the state `unisolated`. -/
def Ok (switchType : String) (s : Sys) : Event → Prop
  | .set e => InScope switchType ∨
      (e.onTsa.length = 0 ∨ idfIsolationState s.dir = "unisolated") ∧
      (e.onIdf.length = 0 ∨ e.data.get? "idf_isolation_state" = some "unisolated")
  | .addPeer _ => InScope switchType ∨ idfIsolationState s.dir = "unisolated"
  | _ => True

instance (switchType : String) (s : Sys) (e : Event) : Decidable (Ok switchType s e) :=
  match e with
  | .set _ => inferInstanceAs (Decidable (_ ∨ _ ∧ _))
  | .addPeer _ => inferInstanceAs (Decidable (_ ∨ _))
  | .put _ _ _ _ => inferInstanceAs (Decidable True)
  | .remove _ _ _ => inferInstanceAs (Decidable True)

/-- The last policy is the one of the state; before the first one the state is `unisolated`. -/
def Corresponds (policies : List IdfPolicy) (state : String) : Prop :=
  policies.getLast? = some (policyOf state) ∨ policies = [] ∧ state = "unisolated"

theorem Corresponds.append {policies new : List IdfPolicy} {state : String}
    (h : Corresponds policies state) (hnew : ∀ p ∈ new, p = policyOf state) :
    Corresponds (policies ++ new) state := by
  cases hlast : new.getLast? with
  | none =>
    rw [List.getLast?_eq_none_iff.1 hlast, List.append_nil]
    exact h
  | some p =>
    refine .inl ?_
    rw [List.getLast?_append, hlast, Option.some_or, hnew p (List.mem_of_getLast? hlast)]

/-! ## The device-global values in the directory -/

theorem globalValue_congr {dir dir' : Directory} {key default : String}
    (h : dir'.lookup "CONFIG_DB" "BGP_DEVICE_GLOBAL" key =
      dir.lookup "CONFIG_DB" "BGP_DEVICE_GLOBAL" key) :
    globalValue dir' key default = globalValue dir key default := by
  rw [globalValue, globalValue, h]

theorem idfIsolationState_putTsa (dir : Directory) (status : String) :
    idfIsolationState (putGlobal dir "tsa_enabled" status) = idfIsolationState dir := by
  refine globalValue_congr ?_
  rw [putGlobal, lookup_store, if_neg fun h => absurd (Prod.mk.inj h).2 (by decide)]

theorem idfIsolationState_putIdf (dir : Directory) (state : String) :
    idfIsolationState (putGlobal dir "idf_isolation_state" state) = state := by
  rw [idfIsolationState, globalValue, putGlobal, lookup_store, if_pos rfl]

theorem idfIsolationState_store {slot : String} (h : slot ≠ globalSlot) (dir : Directory)
    (key : String) (value : Val) :
    idfIsolationState (dir.store slot key value) = idfIsolationState dir := by
  refine globalValue_congr ?_
  rw [lookup_store]
  exact if_neg fun hkeys => h (Prod.mk.inj hkeys).1

theorem idfIsolationState_remove {db table : String} (h : getSlotName db table ≠ globalSlot)
    (dir : Directory) (key : String) :
    idfIsolationState (dir.remove db table key) = idfIsolationState dir := by
  refine globalValue_congr ?_
  rw [lookup_remove]
  exact if_neg fun hkeys => h (Prod.mk.inj hkeys).1

/-! ## Additions of peers -/

theorem idfPolicies_append (cmds cmds' : List Cmd) :
    idfPolicies (cmds ++ cmds') = idfPolicies cmds ++ idfPolicies cmds' := by
  rw [idfPolicies, List.flatten_append, List.filterMap_append, ← idfPolicies, ← idfPolicies]

/-- The policies are those of a state in which the device is isolated. -/
def OfState (state : String) (policies : List IdfPolicy) : Prop :=
  ∀ p ∈ policies, p = policyOf state ∧ state ≠ "unisolated"

theorem ofState_nil (state : String) : OfState state [] := fun _ hp => absurd hp List.not_mem_nil

theorem ofState_check (dir : Directory) :
    OfState (idfIsolationState dir)
      ((checkStateAndGetIdfIsolationRoutemaps dir).filterMap Part.idf?) := by
  unfold checkStateAndGetIdfIsolationRoutemaps idfIsolationState globalValue
  match dir.lookup "CONFIG_DB" "BGP_DEVICE_GLOBAL" "idf_isolation_state" with
  | some (.text state) =>
    dsimp only
    by_cases hstate : state = "unisolated"
    · rw [if_neg fun h => h hstate]
      exact ofState_nil _
    · rw [if_pos hstate]
      intro p hp
      obtain rfl := List.mem_singleton.1 hp
      exact ⟨(if_neg hstate).symm, hstate⟩
  | some (.dict _) | some .atom | none => exact ofState_nil _

variable {env : Env} {switchType : String} {s s' : Sys}

theorem ofState_updatePg (mgr : PeerMgr) (dir : Directory) (kwargs : Kwargs) :
    OfState (idfIsolationState dir) (idfPolicies (updatePg env mgr dir kwargs)) := by
  unfold updatePg
  cases mgr.peergroupTemplate kwargs with
  | none => exact ofState_nil _
  | some pg =>
    simp only [idfPolicies, List.flatten_singleton, List.filterMap_cons, Part.idf?]
    exact ofState_check dir

theorem idfPolicies_updatePolicy (mgr : PeerMgr) (kwargs : Kwargs) :
    idfPolicies (updatePolicy mgr kwargs) = [] := by
  unfold updatePolicy
  cases mgr.policyTemplate kwargs <;> rfl

theorem idfPolicies_addInstance (mgr : PeerMgr) (kwargs : Kwargs) :
    idfPolicies (addInstance mgr kwargs) = [] := by
  unfold addInstance
  cases mgr.addTemplate kwargs <;> rfl

/-- Whatever way `add_peer` ends, its IDF policies come from `update_pg`. -/
theorem ofState_addPeer {mgr : PeerMgr} {dir : Directory} {vrf nbr : String} {data : PeerData}
    {r : Bool × List Cmd} (h : addPeer env mgr dir vrf nbr data = some r) :
    OfState (idfIsolationState dir) (idfPolicies r.2) := by
  obtain ⟨asn, -, h⟩ := Option.bind_eq_some_iff.1 h
  dsimp only at h
  split_ifs at h
  · obtain rfl := Option.some.inj h
    exact ofState_nil _
  · obtain rfl := Option.some.inj h
    exact ofState_nil _
  · obtain ⟨ready, -, rfl⟩ := Option.map_eq_some_iff.1 h
    cases ready with
    | done result => exact ofState_nil _
    | go data =>
      dsimp only
      split_ifs
      · exact ofState_nil _
      · rw [idfPolicies_append, idfPolicies_append, idfPolicies_updatePolicy,
          idfPolicies_addInstance, List.nil_append, List.append_nil]
        exact ofState_updatePg mgr dir _

/-- From one state to the next the isolation state is the same, and every IDF policy that is
    pushed is the one of an isolated device. -/
def Extends (s s' : Sys) : Prop :=
  idfIsolationState s'.dir = idfIsolationState s.dir ∧
    ∃ new, idfPolicies s'.pushed = idfPolicies s.pushed ++ new ∧
      OfState (idfIsolationState s.dir) new

theorem Extends.refl (s : Sys) : Extends s s :=
  ⟨rfl, [], (List.append_nil _).symm, ofState_nil _⟩

theorem Extends.trans {s₁ s₂ s₃ : Sys} (h : Extends s₁ s₂) (h' : Extends s₂ s₃) :
    Extends s₁ s₃ := by
  obtain ⟨hstate, new, hnew, hof⟩ := h
  obtain ⟨hstate', new', hnew', hof'⟩ := h'
  refine ⟨hstate'.trans hstate, new ++ new', by rw [hnew', hnew, List.append_assoc], ?_⟩
  rw [hstate] at hof'
  intro p hp
  exact (List.mem_append.1 hp).elim (hof p) (hof' p)

theorem Extends.corresponds (h : Extends s s')
    (hs : Corresponds (idfPolicies s.pushed) (idfIsolationState s.dir)) :
    Corresponds (idfPolicies s'.pushed) (idfIsolationState s'.dir) := by
  obtain ⟨hstate, new, hnew, hof⟩ := h
  rw [hstate, hnew]
  exact hs.append fun p hp => (hof p hp).1

theorem Extends.silent (h : Extends s s') (hs : idfIsolationState s.dir = "unisolated") :
    idfPolicies s'.pushed = idfPolicies s.pushed := by
  obtain ⟨-, new, hnew, hof⟩ := h
  have hnil : new = [] := List.eq_nil_iff_forall_not_mem.2 fun p hp => (hof p hp).2 hs
  rw [hnew, hnil, List.append_nil]

theorem extends_handlePeer {p : PeerSet} (h : handlePeer env s p = some s') : Extends s s' := by
  unfold handlePeer at h
  match hdeps : s.dir.availableDeps p.mgr.deps with
  | none => simp only [hdeps, reduceCtorEq] at h
  | some false =>
    simp only [hdeps, Option.some.injEq] at h
    exact h ▸ Extends.refl s
  | some true =>
    simp only [hdeps] at h
    obtain ⟨r, hr, rfl⟩ := Option.map_eq_some_iff.1 h
    exact ⟨rfl, idfPolicies r.2, idfPolicies_append _ _, ofState_addPeer hr⟩

theorem extends_replayPeers {peers : List PeerSet} (h : replayPeers env s peers = some s') :
    Extends s s' :=
  foldlM_invariant (P := Extends s) (fun _ _ _ _ hs hstep => hs.trans (extends_handlePeer hstep)) h
    (Extends.refl s)

/-- Nobody is replayed, or the device is not isolated. -/
theorem replayPeers_silent {peers : List PeerSet} (h : replayPeers env s peers = some s')
    (hquiet : peers.length = 0 ∨ idfIsolationState s.dir = "unisolated") :
    idfPolicies s'.pushed = idfPolicies s.pushed := by
  rcases hquiet with hnil | hstate
  · obtain rfl := List.length_eq_zero_iff.1 hnil
    obtain rfl := Option.some.inj h
    rfl
  · exact (extends_replayPeers h).silent hstate

/-! ## SETs of the device-global row -/

theorem extends_setTsa {e : GlobalSet} (h : setTsa env e s = some s') : Extends s s' := by
  unfold setTsa at h
  cases htsa : e.data.get? "tsa_enabled" with
  | none =>
    simp only [htsa, Option.some.injEq] at h
    exact h ▸ Extends.refl s
  | some status =>
    simp only [htsa] at h
    obtain ⟨s₁, hreplay, rfl⟩ := Option.map_eq_some_iff.1 h
    obtain ⟨hstate, new, hnew, hof⟩ := extends_replayPeers hreplay
    rw [idfIsolationState_putTsa] at hstate hof
    split_ifs
    · refine ⟨hstate, new, ?_, hof⟩
      rw [idfPolicies_append, hnew]
      exact List.append_nil _
    · exact ⟨hstate, new, hnew, hof⟩

theorem setTsa_silent {e : GlobalSet} (h : setTsa env e s = some s')
    (hquiet : e.onTsa.length = 0 ∨ idfIsolationState s.dir = "unisolated") :
    idfPolicies s'.pushed = idfPolicies s.pushed := by
  unfold setTsa at h
  cases htsa : e.data.get? "tsa_enabled" with
  | none =>
    simp only [htsa, Option.some.injEq] at h
    rw [h]
  | some status =>
    simp only [htsa] at h
    obtain ⟨s₁, hreplay, rfl⟩ := Option.map_eq_some_iff.1 h
    have hsilent := replayPeers_silent hreplay
      (hquiet.imp_right (idfIsolationState_putTsa _ _).trans)
    split_ifs
    · rw [idfPolicies_append, hsilent]
      exact List.append_nil _
    · exact hsilent

theorem corresponds_setIdf {e : GlobalSet} (hscope : InScope switchType)
    (hs : Corresponds (idfPolicies s.pushed) (idfIsolationState s.dir))
    (h : setIdf env switchType e (idfIsolationState s.dir) s = some s') :
    Corresponds (idfPolicies s'.pushed) (idfIsolationState s'.dir) := by
  unfold setIdf at h
  cases hidf : e.data.get? "idf_isolation_state" with
  | none =>
    simp only [hidf, Option.some.injEq] at h
    exact h ▸ hs
  | some state =>
    simp only [hidf] at h
    obtain ⟨s₁, hreplay, rfl⟩ := Option.map_eq_some_iff.1 h
    have hext := extends_replayPeers hreplay
    have hstate : idfIsolationState s₁.dir = state :=
      hext.1.trans (idfIsolationState_putIdf s.dir state)
    by_cases hchange : idfIsolationState s.dir = state
    · rw [if_neg fun hne => hne hchange]
      refine hext.corresponds ?_
      rw [idfIsolationState_putIdf, ← hchange]
      exact hs
    · rw [if_pos hchange, if_neg fun hother => hscope.elim hother.1 hother.2]
      refine .inl ?_
      rw [idfPolicies_append, hstate]
      exact List.getLast?_concat

theorem setIdf_silent {e : GlobalSet} {oldState : String} (hscope : ¬InScope switchType)
    (hquiet : e.onIdf.length = 0 ∨ e.data.get? "idf_isolation_state" = some "unisolated")
    (h : setIdf env switchType e oldState s = some s') :
    idfPolicies s'.pushed = idfPolicies s.pushed := by
  unfold setIdf at h
  cases hidf : e.data.get? "idf_isolation_state" with
  | none =>
    simp only [hidf, Option.some.injEq] at h
    rw [h]
  | some state =>
    simp only [hidf] at h
    rw [hidf] at hquiet
    obtain ⟨s₁, hreplay, rfl⟩ := Option.map_eq_some_iff.1 h
    have hsilent := replayPeers_silent hreplay (hquiet.imp_right fun hstate =>
      (idfIsolationState_putIdf s.dir state).trans (Option.some.inj hstate))
    rw [if_pos (not_or.1 hscope), ite_self]
    exact hsilent

/-! ## Runs -/

/-- In scope the last policy is the one of the state; elsewhere there is none. -/
def Good (switchType : String) (s : Sys) : Prop :=
  (InScope switchType → Corresponds (idfPolicies s.pushed) (idfIsolationState s.dir)) ∧
    (¬InScope switchType → idfPolicies s.pushed = [])

theorem good_set {e : GlobalSet} (hs : Good switchType s) (hok : Ok switchType s (.set e))
    (h : next env switchType s (.set e) = some s') : Good switchType s' := by
  obtain ⟨r, hset, rfl⟩ := Option.map_eq_some_iff.1 h
  clear h
  unfold setHandler at hset
  split_ifs at hset
  · obtain rfl := Option.some.inj hset
    exact hs
  · obtain ⟨s₂, hparts, rfl⟩ := Option.map_eq_some_iff.1 hset
    obtain ⟨s₁, htsa, hidf⟩ := Option.bind_eq_some_iff.1 hparts
    refine ⟨fun hscope => ?_, fun hscope => ?_⟩
    · have hext := extends_setTsa htsa
      rw [← hext.1] at hidf
      exact corresponds_setIdf hscope (hext.corresponds (hs.1 hscope)) hidf
    · obtain ⟨honTsa, honIdf⟩ := hok.resolve_left hscope
      exact (setIdf_silent hscope honIdf hidf).trans
        ((setTsa_silent htsa honTsa).trans (hs.2 hscope))

theorem good_addPeer {p : PeerSet} (hs : Good switchType s) (hok : Ok switchType s (.addPeer p))
    (h : next env switchType s (.addPeer p) = some s') : Good switchType s' := by
  have hext := extends_handlePeer h
  exact ⟨fun hscope => hext.corresponds (hs.1 hscope),
    fun hscope => (hext.silent (hok.resolve_left hscope)).trans (hs.2 hscope)⟩

theorem good_step {e : Event} (hs : Good switchType s) (hok : Ok switchType s e)
    (h : Step env switchType s e s') : Good switchType s' := by
  cases e with
  | set e => exact good_set hs hok h
  | addPeer p => exact good_addPeer hs hok h
  | put db table key value =>
    simp only [Step, next] at h
    split_ifs at h with hslot
    obtain rfl := Option.some.inj h
    rw [Good, idfIsolationState_store hslot]
    exact hs
  | remove db table key =>
    simp only [Step, next] at h
    split_ifs at h with hslot
    obtain rfl := Option.some.inj h
    rw [Good, idfIsolationState_remove hslot]
    exact hs

theorem state_setIdf {e : GlobalSet} {oldState : String}
    (h : setIdf env switchType e oldState s = some s') :
    idfIsolationState s'.dir =
      (e.data.get? "idf_isolation_state").getD (idfIsolationState s.dir) := by
  unfold setIdf at h
  cases hidf : e.data.get? "idf_isolation_state" with
  | none =>
    simp only [hidf, Option.some.injEq] at h
    rw [h, Option.getD_none]
  | some state =>
    simp only [hidf] at h
    obtain ⟨s₁, hreplay, rfl⟩ := Option.map_eq_some_iff.1 h
    have hstate : idfIsolationState s₁.dir = state :=
      (extends_replayPeers hreplay).1.trans (idfIsolationState_putIdf s.dir state)
    split_ifs <;> exact hstate

/-- Only a SET changes the isolation state. -/
theorem state_step {e : Event} (h : Step env switchType s e s') :
    idfIsolationState s'.dir = e.state?.getD (idfIsolationState s.dir) := by
  cases e with
  | set e =>
    obtain ⟨r, hset, rfl⟩ := Option.map_eq_some_iff.1 h
    unfold setHandler at hset
    split_ifs at hset with hempty
    · obtain rfl := Option.some.inj hset
      rw [Event.state?, hempty]
      rfl
    · obtain ⟨s₂, hparts, rfl⟩ := Option.map_eq_some_iff.1 hset
      obtain ⟨s₁, htsa, hidf⟩ := Option.bind_eq_some_iff.1 hparts
      exact (extends_setTsa htsa).1 ▸ state_setIdf hidf
  | addPeer p => exact (extends_handlePeer h).1
  | put db table key value =>
    simp only [Step, next] at h
    split_ifs at h with hslot
    obtain rfl := Option.some.inj h
    exact idfIsolationState_store hslot _ _ _
  | remove db table key =>
    simp only [Step, next] at h
    split_ifs at h with hslot
    obtain rfl := Option.some.inj h
    exact idfIsolationState_remove hslot _ _

/-- The state is the one of the last SET that has one.  Without a switch type, and on a SpineRouter,
    the last IDF policy is the one of the state; on every other switch type none is pushed. -/
theorem idf_of_run {dir : Directory} {es : List Event}
    (hstart : dir.lookup "CONFIG_DB" "BGP_DEVICE_GLOBAL" "idf_isolation_state" = none)
    (hrun : Run (Step env switchType) (Ok switchType) ⟨dir, []⟩ es s) :
    idfIsolationState s.dir = lastState es ∧
      (InScope switchType → Corresponds (idfPolicies s.pushed) (idfIsolationState s.dir)) ∧
      (¬InScope switchType → idfPolicies s.pushed = []) := by
  have hunisolated : idfIsolationState dir = "unisolated" := by
    rw [idfIsolationState, globalValue, hstart]
  refine ⟨hrun.history (P := fun es s => idfIsolationState s.dir = lastState es) ?_ hunisolated,
    Run.invariant (P := Good switchType) hrun (fun _ _ _ => good_step)
      ⟨fun _ => .inr ⟨rfl, hunisolated⟩, fun _ => rfl⟩⟩
  intro es s e s' hs _ hstep
  rw [state_step hstep, hs, lastState_append]

/-- Templates that render to short texts. -/
def plainEnv : Env where
  getTsRoutemaps _ _ := ""
  cfgLines s := [s]
  isIpv4 s := s == "10.1.0.1"
  ipOf s := (split '/' s).head?

def plainMgr : PeerMgr where
  peerType := "general"
  checkNeigMeta := false
  checkDeploymentId := false
  policyTemplate _ := some ""
  peergroupTemplate _ := some " neighbor PEER_V4 peer-group\n"
  addTemplate kwargs := some (" neighbor " ++ kwargs.neighborAddr ++ " peer-group PEER_V4\n")

/-- A directory with all that a peer waits for, but for the device-global values. -/
def plainDir : Directory where
  data :=
    [("CONFIG_DB__DEVICE_METADATA", [("localhost", .dict [("bgp_asn", .text "65100")])]),
      ("CONFIG_DB__LOOPBACK_INTERFACE",
        [("Loopback0", .dict []), ("Loopback0|10.1.0.1/32", .dict [])]),
      ("LOCAL__local_addresses", [("10.0.0.0", .dict [("interface", .text "Ethernet0")])]),
      ("LOCAL__interfaces", [("Ethernet0", .dict [("admin_status", .text "up")])])]

def plainPeer : PeerSet where
  mgr := plainMgr
  vrf := "default"
  nbr := "10.0.0.1"
  data := [("local_addr", "10.0.0.0")]

/-- A SET of both device-global values. -/
def globalSet (state : String) : Event :=
  .set ⟨[("tsa_enabled", "false"), ("idf_isolation_state", state)], [], [], []⟩

/-- Isolation, a peer, and the end of the isolation on a SpineRouter. -/
theorem idf_spineRouter :
    ∃ s, Run (Step plainEnv "SpineRouter") (Ok "SpineRouter") ⟨plainDir, []⟩
        [globalSet "isolated_no_export", .addPeer plainPeer, globalSet "unisolated"] s ∧
      idfPolicies s.pushed =
        [.isolate "isolated_no_export", .isolate "isolated_no_export", .unisolate] ∧
      Corresponds (idfPolicies s.pushed) (idfIsolationState s.dir) := by
  refine exists_run_imp (fun _ _ _ h => h) (fun s => idfPolicies s.pushed =
    [.isolate "isolated_no_export", .isolate "isolated_no_export", .unisolate])
    (by decide +kernel) ?_
  intro s hrun hpushed
  exact ⟨hpushed, (idf_of_run rfl hrun).2.1 (.inr rfl)⟩

/-- On another switch type a peer that is added in isolation pushes the isolation policy. -/
theorem idf_pushed_for_peer :
    ¬InScope "voq" ∧
      ∃ s, Run (Step plainEnv "voq") (fun _ _ => True) ⟨plainDir, []⟩
          [globalSet "isolated_no_export", .addPeer plainPeer] s ∧
        idfPolicies s.pushed = [.isolate "isolated_no_export"] :=
  ⟨by decide, exists_run (fun _ _ _ h => h) (by decide +kernel)⟩

end SonicBuildimage.Bgpcfgd.DeviceGlobal
