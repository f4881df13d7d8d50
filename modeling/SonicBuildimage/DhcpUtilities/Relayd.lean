/-
  dhcprelayd: is the relay in step with CONFIG_DB?

  Model.  The dhcp_server feature is enabled, and the device is not a SmartSwitch.  CONFIG_DB
  changes at any time, also while the daemon is at work: `wait`, `check_db_update` and
  `refresh_dhcrelay` are cut into the steps in which they take the notifications of a table,
  read a table, subscribe, and restart dhcrelay (`RelayPc`).  A process is its command line, and
  `_kill_exist_relay_releated_process` finds its interfaces there.

  Proved: `relay_of_run`.  Whenever the daemon waits and all notifications have been taken,
  dhcrelay runs with exactly the enabled interfaces that are in `VLAN`, in every run in which
  * a row of `VLAN` is only added or removed while its table is subscribed to, if it is that of
    an interface that was enabled at the last refresh; and not for an interface that is enabled
    while a refresh is between reading `VLAN` and subscribing, and
  * the interface in `MID_PLANE_BRIDGE` is not enabled when a refresh begins.
  In other runs it does not: a refresh subscribes to `VLAN` only if an interface of
  `DHCP_SERVER_IPV4` is there already (`relay_missed`).

  Not modelled: the feature table, whose checker never reports a change here, dhcpmon, the
  supervisor's own processes, which have been stopped, and the waiting for the server's address.
-/
import SonicBuildimage.DhcpUtilities.Monitor
import SonicBuildimage.Lib.Run

namespace SonicBuildimage.DhcpUtilities

open SonicBuildimage.Lib

/-! ## The process -/

/-- A row of `DHCP_SERVER_IPV4` with a state that is enabled or disabled. -/
structure StatedRow where
  row : ServerRow
  stated : row.state = some "enabled" ∨ row.state = some "disabled"
  deriving DecidableEq

structure RelayEnv where
  ip : IpModule
  /-- `bridge` of the row `GLOBAL` of `MID_PLANE_BRIDGE` -/
  bridge : Option String
  serverIp : String
  serverIp_ne : serverIp ≠ "-id"
  /-- the order in which a set is iterated -/
  order : List String → List String
  order_iter : IterOrder order

/-- The command line of dhcrelay. -/
def dhcrelayCmd (env : RelayEnv) (interfaces : List String) : List String :=
  ["/usr/sbin/dhcrelay", "-d", "-m", "discard", "-a", "%h:%p", "%P", "--name-alias-map-file",
    "/tmp/port-name-alias-map.txt"] ++
    ((env.order interfaces).flatMap fun i => ["-id", i]) ++ ["-iu", "docker0", env.serverIp]

/-- The interfaces that are passed with `-id`; `none` if there is nothing behind the last. -/
def idsOf : List String → Option (List String)
  | [] => some []
  | [c] => if c = "-id" then none else some []
  | c :: i :: cmds =>
    if c = "-id" then (idsOf cmds).map fun ids => i :: ids else idsOf (i :: cmds)

/-- The interfaces of all processes. -/
def oldInterfaces (procs : List (List String)) : Option (List String) :=
  (procs.mapM idsOf).map List.flatten

/-- `s == t` of two sets -/
def sameSet (s t : List String) : Bool := s.all (fun x => x ∈ t) && t.all fun x => x ∈ s

/-- `_kill_exist_relay_releated_process` and then, unless nothing was killed that should have
    been, `_start_dhcrelay_process` -/
def startDhcrelay (env : RelayEnv) (procs : List (List String)) (force : Bool)
    (interfaces : List String) : Option (List (List String)) := do
  let old ← oldInterfaces procs
  if procs ≠ [] ∧ ¬force ∧ sameSet old interfaces then some procs
  else if interfaces = [] then some []
  else some [dhcrelayCmd env interfaces]

/-! ## A refresh -/

/-- What the loop of `refresh_dhcrelay` has found so far. -/
structure Refresh where
  dhcpInterfaces : List String
  enabledDhcpInterfaces : List String
  /-- whether the VLAN checkers are to be enabled -/
  vlanCheckers : Bool

def refreshStep (env : RelayEnv) (vlans : List String) (r : Refresh) (e : String × StatedRow) :
    Refresh :=
  let r :=
    if e.2.row.enabled then
      { r with
        dhcpInterfaces := setAdd r.dhcpInterfaces e.1
        enabledDhcpInterfaces := setAdd r.enabledDhcpInterfaces e.1 }
    else r
  if e.1 ∉ vlans ∧ env.bridge ≠ some e.1 then
    { r with dhcpInterfaces := setDiscard r.dhcpInterfaces e.1 }
  else if e.1 ∈ vlans then { r with vlanCheckers := true }
  else r

def refreshLoop (env : RelayEnv) (vlans : List String) (server : Dict String StatedRow) : Refresh :=
  server.foldl (refreshStep env vlans) ⟨[], [], false⟩

/-! ## The daemon -/

inductive RelayChecker where
  | server
  | vlanIntf
  | vlan
  deriving DecidableEq

/-- Where the daemon is. -/
inductive RelayPc where
  /-- in `select` -/
  | waiting
  /-- in `check_db_update`: the checkers to come, and those that report a change -/
  | checking (todo hits : List RelayChecker)
  | refresh (force : Bool)
  /-- `DHCP_SERVER_IPV4` has been read -/
  | readServer (force : Bool) (server : Dict String StatedRow)
  /-- `VLAN` has been read too -/
  | readVlan (force : Bool) (server : Dict String StatedRow) (vlans : List String)
  /-- the tables are subscribed to, and dhcrelay is to be restarted -/
  | restart (force : Bool) (interfaces : List String)
  deriving DecidableEq

structure Relayd where
  server : Feed String StatedRow
  vlan : Feed String Unit
  vlanIntf : Feed String Unit
  enabledDhcpInterfaces : List String
  procs : List (List String)
  pc : RelayPc

inductive RelayAct where
  /-- a row is set, or deleted (`none`) -/
  | server (key : String) (row : Option StatedRow)
  | vlan (key : String) (row : Option Unit)
  | vlanIntf (key : String) (row : Option Unit)
  /-- the next step of the daemon; `fresh` says how the notifications are delivered -/
  | advance (fresh : Nat → Bool)

namespace Relayd

variable (env : RelayEnv) (s : Relayd)

/-- `check_update_event` of one checker, if it is enabled: whether it reports a change, and the
    state with all its notifications taken. -/
def check (fresh : Nat → Bool) : RelayChecker → Option (Bool × Relayd)
  | .server =>
    if s.server.subscribed then
      (checkUpdateEvent
        (fun key op =>
          some (intfEnablementCheck s.enabledDhcpInterfaces key (op.map StatedRow.row)))
        (s.server.deliver fresh)).map fun hit => (hit, { s with server := s.server.drain })
    else some (false, s)
  | .vlanIntf =>
    if s.vlanIntf.subscribed then
      (checkUpdateEvent (fun key _ => vlanIntfCheck s.enabledDhcpInterfaces env.ip key)
        (s.vlanIntf.deliver fresh)).map fun hit => (hit, { s with vlanIntf := s.vlanIntf.drain })
    else some (false, s)
  | .vlan =>
    if s.vlan.subscribed then
      (checkUpdateEvent (fun key _ => some (keyCheck s.enabledDhcpInterfaces key))
        (s.vlan.deliver fresh)).map fun hit => (hit, { s with vlan := s.vlan.drain })
    else some (false, s)

/-- `_proceed_with_check_res` -/
def proceed (hits : List RelayChecker) : RelayPc :=
  if .vlanIntf ∈ hits then .refresh true
  else if .vlan ∈ hits ∨ .server ∈ hits then .refresh false
  else .waiting

/-- The next step of the daemon; `none` if it ends with an exception. -/
def advance (fresh : Nat → Bool) : Option Relayd :=
  match s.pc with
  | .waiting => some { s with pc := .checking [.server, .vlanIntf, .vlan] [] }
  | .checking (c :: todo) hits =>
    (s.check env fresh c).map fun r =>
      { r.2 with pc := .checking todo (if r.1 then hits ++ [c] else hits) }
  | .checking [] hits => some { s with pc := proceed hits }
  | .refresh force => some { s with pc := .readServer force s.server.rows }
  | .readServer force server => some { s with pc := .readVlan force server (Dict.keys s.vlan.rows) }
  | .readVlan force server vlans =>
    let r := refreshLoop env vlans server
    some { s with
      enabledDhcpInterfaces := r.enabledDhcpInterfaces
      vlan := s.vlan.setSubscribed r.vlanCheckers
      vlanIntf := s.vlanIntf.setSubscribed r.vlanCheckers
      pc := .restart force r.dhcpInterfaces }
  | .restart force interfaces =>
    (startDhcrelay env s.procs force interfaces).map fun procs =>
      { s with procs := procs, pc := .waiting }

def next : RelayAct → Option Relayd
  | .server key row => some { s with server := s.server.change key row }
  | .vlan key row => some { s with vlan := s.vlan.change key row }
  | .vlanIntf key row => some { s with vlanIntf := s.vlanIntf.change key row }
  | .advance fresh => s.advance env fresh

/-- The daemon after `start`. -/
def started (server : Feed String StatedRow) (vlan vlanIntf : Feed String Unit) : Relayd where
  server := server.subscribe
  vlan := vlan.unsubscribe
  vlanIntf := vlanIntf.unsubscribe
  enabledDhcpInterfaces := []
  procs := []
  pc := .waiting

/-! ## What is to be proved -/

/-- The interface is enabled in rows of `DHCP_SERVER_IPV4`. -/
def EnabledIn (server : Dict String StatedRow) (i : String) : Prop :=
  ((Dict.get? server i).any fun r => r.row.enabled) = true

instance (server : Dict String StatedRow) (i : String) : Decidable (EnabledIn server i) :=
  inferInstanceAs (Decidable (_ = true))

/-- The relay is to serve the interface. -/
def Wanted (i : String) : Prop := EnabledIn s.server.rows i ∧ i ∈ Dict.keys s.vlan.rows

instance (i : String) : Decidable (s.Wanted i) := inferInstanceAs (Decidable (_ ∧ _))

/-- The daemon waits, and all notifications have been taken. -/
def Settled : Prop :=
  s.pc = .waiting ∧ s.server.events = [] ∧ s.vlan.events = [] ∧ s.vlanIntf.events = []

instance : Decidable s.Settled := inferInstanceAs (Decidable (_ ∧ _))

/-- dhcrelay runs for exactly the interfaces it is to serve, and not at all if there are none. -/
def Served : Prop :=
  ((∀ i, ¬s.Wanted i) ∧ s.procs = []) ∨
    (∃ i, s.Wanted i) ∧ ∃ cmd ids, s.procs = [cmd] ∧ idsOf cmd = some ids ∧
      ∀ i, i ∈ ids ↔ s.Wanted i

end Relayd

/-! ## The processes -/

theorem idsOf_pairs (is : List String) (cmds : List String) :
    idsOf ((is.flatMap fun i => ["-id", i]) ++ cmds) = (idsOf cmds).map fun ids => is ++ ids := by
  induction is with
  | nil => simp
  | cons i is ih =>
    have hpair : ∀ l, idsOf ("-id" :: i :: l) = (idsOf l).map fun ids => i :: ids := by
      intro l
      rw [idsOf, if_pos rfl]
    rw [List.flatMap_cons, List.append_assoc, List.cons_append, List.cons_append, List.nil_append,
      hpair, ih, Option.map_map]
    rfl

theorem idsOf_dhcrelayCmd (env : RelayEnv) (interfaces : List String) :
    idsOf (dhcrelayCmd env interfaces) = some (env.order interfaces) := by
  have hrest : idsOf ["-iu", "docker0", env.serverIp] = some [] := by
    simp [idsOf, env.serverIp_ne]
  have hpairs := idsOf_pairs (env.order interfaces) ["-iu", "docker0", env.serverIp]
  rw [hrest, Option.map_some, List.append_nil] at hpairs
  rw [← hpairs]
  unfold dhcrelayCmd
  generalize ((env.order interfaces).flatMap fun i => ["-id", i]) = is
  rw [List.append_assoc]
  cases hcmds : is ++ ["-iu", "docker0", env.serverIp] with
  | nil => exact absurd hcmds (by simp)
  | cons c cmds => simp [idsOf]

/-- The processes for some interfaces: none without an interface, else one. -/
def Running (env : RelayEnv) (procs : List (List String)) (interfaces : List String) : Prop :=
  (procs = [] ∧ interfaces = []) ∨
    ∃ is, is ≠ [] ∧ procs = [dhcrelayCmd env is] ∧ ∀ i, i ∈ is ↔ i ∈ interfaces

theorem sameSet_iff {s t : List String} : sameSet s t = true ↔ ∀ x, x ∈ s ↔ x ∈ t := by
  unfold sameSet
  simp only [Bool.and_eq_true, List.all_eq_true, decide_eq_true_eq]
  exact ⟨fun h x => ⟨h.1 x, h.2 x⟩, fun h => ⟨fun x => (h x).1, fun x => (h x).2⟩⟩

/-- Whatever runs, afterwards dhcrelay runs for the new interfaces. -/
theorem running_startDhcrelay {env : RelayEnv} {procs procs' : List (List String)}
    {old interfaces : List String} {force : Bool} (hold : Running env procs old)
    (h : startDhcrelay env procs force interfaces = some procs') :
    Running env procs' interfaces := by
  unfold startDhcrelay at h
  obtain ⟨ids, hids, h⟩ := Option.bind_eq_some_iff.1 h
  split at h
  · next hkeep =>
    -- the process is kept
    obtain rfl := Option.some.inj h
    rcases hold with ⟨hnil, -⟩ | ⟨is, hne, hprocs, -⟩
    · exact absurd hnil hkeep.1
    · refine Or.inr ⟨is, hne, hprocs, fun i => ?_⟩
      rw [← sameSet_iff.1 hkeep.2.2 i]
      have hids' : env.order is = ids := by
        unfold oldInterfaces at hids
        rw [hprocs] at hids
        simpa [idsOf_dhcrelayCmd] using hids
      rw [← hids']
      exact (IterOrder.mem env.order_iter).symm
  · split at h
    · next hnil =>
      exact Or.inl ⟨(Option.some.inj h).symm, hnil⟩
    · next hne =>
      exact Or.inr ⟨interfaces, hne, (Option.some.inj h).symm, fun i => Iff.rfl⟩

/-! ## The loop of a refresh -/

/-- A refresh leaves an interface to the relay: it is in `VLAN`, or it is the bridge. -/
def Relayed (env : RelayEnv) (vlans : List String) (i : String) : Prop :=
  i ∈ vlans ∨ env.bridge = some i

theorem mem_refreshStep (env : RelayEnv) (vlans : List String) (r : Refresh)
    (e : String × StatedRow) (i : String) :
    (i ∈ (refreshStep env vlans r e).enabledDhcpInterfaces ↔
      i ∈ r.enabledDhcpInterfaces ∨ (i = e.1 ∧ e.2.row.enabled = true)) ∧
    (i ∈ (refreshStep env vlans r e).dhcpInterfaces ↔
      (i ∈ r.dhcpInterfaces ∧ (i = e.1 → Relayed env vlans i)) ∨
        (i = e.1 ∧ e.2.row.enabled = true ∧ Relayed env vlans i)) := by
  unfold refreshStep Relayed
  by_cases hi : i = e.1
  · subst hi
    cases hen : e.2.row.enabled <;> by_cases hv : e.1 ∈ vlans <;>
      by_cases hb : env.bridge = some e.1 <;> simp [hv, hb, mem_setAdd, mem_setDiscard]
  · cases hen : e.2.row.enabled <;> by_cases hv : e.1 ∈ vlans <;>
      by_cases hb : env.bridge = some e.1 <;> simp [hi, hv, hb, mem_setAdd, mem_setDiscard]

section RefreshLoop

variable {env : RelayEnv} {vlans : List String} {server : Dict String StatedRow}

theorem mem_foldl_refreshStep (r : Refresh) (i : String) :
    (i ∈ (server.foldl (refreshStep env vlans) r).enabledDhcpInterfaces ↔
      i ∈ r.enabledDhcpInterfaces ∨ ∃ row, (i, row) ∈ server ∧ row.row.enabled = true) ∧
    (i ∈ (server.foldl (refreshStep env vlans) r).dhcpInterfaces ↔
      (i ∈ r.dhcpInterfaces ∧ (i ∈ Dict.keys server → Relayed env vlans i)) ∨
        ∃ row, (i, row) ∈ server ∧ row.row.enabled = true ∧ Relayed env vlans i) := by
  induction server generalizing r with
  | nil => simp [Dict.keys]
  | cons e server ih =>
    obtain ⟨hen, hdh⟩ := ih (refreshStep env vlans r e)
    obtain ⟨hen', hdh'⟩ := mem_refreshStep env vlans r e i
    rw [List.foldl_cons]
    have hmem : ∀ P : StatedRow → Prop, (∃ row, (i, row) ∈ e :: server ∧ P row) ↔
        (i = e.1 ∧ P e.2) ∨ ∃ row, (i, row) ∈ server ∧ P row := by
      intro P
      constructor
      · rintro ⟨row, hrow, hP⟩
        rcases List.mem_cons.1 hrow with h | h
        · exact Or.inl (by rw [← h]; exact ⟨rfl, hP⟩)
        · exact Or.inr ⟨row, h, hP⟩
      · rintro (⟨rfl, hP⟩ | ⟨row, hrow, hP⟩)
        · exact ⟨e.2, List.mem_cons_self, hP⟩
        · exact ⟨row, List.mem_cons_of_mem e hrow, hP⟩
    refine ⟨?_, ?_⟩
    · rw [hen, hen', hmem, or_assoc]
    · rw [hdh, hdh', hmem, Dict.mem_keys_cons]
      grind

/-- What a refresh makes of the tables it has read. -/
theorem mem_refreshLoop (hnodup : (Dict.keys server).Nodup) (i : String) :
    (i ∈ (refreshLoop env vlans server).enabledDhcpInterfaces ↔ Relayd.EnabledIn server i) ∧
    (i ∈ (refreshLoop env vlans server).dhcpInterfaces ↔
      Relayd.EnabledIn server i ∧ Relayed env vlans i) := by
  obtain ⟨hen, hdh⟩ := @mem_foldl_refreshStep env vlans server ⟨[], [], false⟩ i
  unfold refreshLoop Relayd.EnabledIn
  rw [hen, hdh, Option.any_eq_true]
  simp only [List.not_mem_nil, false_and, false_or, Dict.get?_eq_some_iff hnodup, true_and]
  constructor
  · rintro ⟨row, hrow, hen, hrel⟩
    exact ⟨⟨row, hrow, hen⟩, hrel⟩
  · rintro ⟨⟨row, hrow, hen⟩, hrel⟩
    exact ⟨row, hrow, hen, hrel⟩

end RefreshLoop

/-! ## The invariant -/

namespace Relayd

/-- The interfaces `enabled` and `interfaces` of a refresh are those of the tables, but for those
    the daemon will be told of. -/
structure Synced (server : Feed String StatedRow) (vlan : Feed String Unit)
    (enabled interfaces : List String) : Prop where
  server : ∀ i, (EnabledIn server.rows i ↔ i ∈ enabled) ∨ i ∈ server.touched
  vlan : ∀ i ∈ enabled, (i ∈ Dict.keys vlan.rows ↔ i ∈ interfaces) ∨ i ∈ vlan.touched
  subset : ∀ i ∈ interfaces, i ∈ enabled

/-- The rows of `DHCP_SERVER_IPV4` that a refresh has read. -/
structure ServerRead (env : RelayEnv) (server : Feed String StatedRow)
    (rows : Dict String StatedRow) : Prop where
  nodup : (Dict.keys rows).Nodup
  server : ∀ i, (EnabledIn server.rows i ↔ EnabledIn rows i) ∨ i ∈ server.touched
  bridge : ∀ b ∈ env.bridge, ¬EnabledIn rows b

/-- What holds of the tables where the daemon is, if dhcrelay runs for `running`. -/
def At (env : RelayEnv) (server : Feed String StatedRow) (vlan : Feed String Unit)
    (enabled running : List String) : RelayPc → Prop
  | .waiting => Synced server vlan enabled running
  | .checking _ hits => hits = [] → Synced server vlan enabled running
  | .refresh _ => True
  | .readServer _ rows => ServerRead env server rows
  | .readVlan _ rows vlans =>
    ServerRead env server rows ∧ ∀ i, EnabledIn rows i → (i ∈ Dict.keys vlan.rows ↔ i ∈ vlans)
  | .restart _ interfaces => Synced server vlan enabled interfaces

structure Good (env : RelayEnv) (s : Relayd) : Prop where
  subscribed : s.server.subscribed = true
  server : s.server.Reflects
  vlan : s.vlan.Reflects
  running : ∃ running, Running env s.procs running ∧
    At env s.server s.vlan s.enabledDhcpInterfaces running s.pc

/-- A row of `VLAN` can be added or removed without the daemon missing it. -/
def Sees (vlan : Feed String Unit) (enabled : List String) (i : String) : RelayPc → Prop
  | .refresh _ => True
  | .readServer _ _ => True
  | .readVlan _ server _ => ¬EnabledIn server i
  | _ => i ∉ enabled ∨ vlan.subscribed = true

/-- No refresh begins while the bridge is enabled. -/
def BridgeOk (env : RelayEnv) (server : Feed String StatedRow) : RelayPc → Prop
  | .refresh _ => ∀ b ∈ env.bridge, ¬EnabledIn server.rows b
  | _ => True

/-- What is asked of a step. -/
def Ok (env : RelayEnv) (s : Relayd) : RelayAct → Prop
  | .vlan key row =>
    (key ∈ Dict.keys s.vlan.rows ↔ row.isSome = true) ∨
      Sees s.vlan s.enabledDhcpInterfaces key s.pc
  | .advance _ => BridgeOk env s.server s.pc
  | _ => True

instance (vlan : Feed String Unit) (enabled : List String) (i : String) (pc : RelayPc) :
    Decidable (Sees vlan enabled i pc) :=
  match pc with
  | .refresh _ => isTrue trivial
  | .readServer _ _ => isTrue trivial
  | .readVlan _ _ _ => inferInstanceAs (Decidable (¬_))
  | .waiting => inferInstanceAs (Decidable (_ ∨ _))
  | .checking _ _ => inferInstanceAs (Decidable (_ ∨ _))
  | .restart _ _ => inferInstanceAs (Decidable (_ ∨ _))

instance (env : RelayEnv) (server : Feed String StatedRow) (pc : RelayPc) :
    Decidable (BridgeOk env server pc) :=
  match pc with
  | .refresh _ => inferInstanceAs (Decidable (∀ b ∈ env.bridge, _))
  | .readServer _ _ => isTrue trivial
  | .readVlan _ _ _ => isTrue trivial
  | .waiting => isTrue trivial
  | .checking _ _ => isTrue trivial
  | .restart _ _ => isTrue trivial

instance (env : RelayEnv) (s : Relayd) (a : RelayAct) : Decidable (s.Ok env a) :=
  match a with
  | .vlan _ _ => inferInstanceAs (Decidable (_ ∨ _))
  | .advance _ => inferInstanceAs (Decidable (BridgeOk _ _ _))
  | .server _ _ => isTrue trivial
  | .vlanIntf _ _ => isTrue trivial

/-! ## Changes of the tables -/

theorem enabledIn_change_ne (f : Feed String StatedRow) {k i : String} (row : Option StatedRow)
    (h : k ≠ i) : EnabledIn (f.change k row).rows i ↔ EnabledIn f.rows i := by
  unfold EnabledIn
  rw [Feed.get?_change_ne f row h]

/-- A change of `DHCP_SERVER_IPV4` is one that the daemon will be told of. -/
theorem server_change {f : Feed String StatedRow} (hsub : f.subscribed = true) {Q : String → Prop}
    (h : ∀ i, (EnabledIn f.rows i ↔ Q i) ∨ i ∈ f.touched) (k : String) (row : Option StatedRow)
    (i : String) :
    (EnabledIn (f.change k row).rows i ↔ Q i) ∨ i ∈ (f.change k row).touched := by
  by_cases hki : k = i
  · subst hki
    rcases Feed.told_of_change hsub k row with htold | ⟨hrows, -⟩
    · exact Or.inr htold
    · rw [hrows]
      exact (h k).imp_right (Feed.touched_change row)
  · rw [enabledIn_change_ne f row hki]
    exact (h i).imp_right (Feed.touched_change row)

theorem good_server {env : RelayEnv} {s : Relayd} (h : s.Good env) (k : String)
    (row : Option StatedRow) : Good env { s with server := s.server.change k row } := by
  obtain ⟨running, hrun, hat⟩ := h.running
  have hsync : ∀ {E I}, Synced s.server s.vlan E I →
      Synced (s.server.change k row) s.vlan E I := fun hs =>
    ⟨fun i => server_change h.subscribed hs.server k row i, hs.vlan, hs.subset⟩
  have hread : ∀ {rows}, ServerRead env s.server rows →
      ServerRead env (s.server.change k row) rows := fun hs =>
    ⟨hs.nodup, fun i => server_change h.subscribed hs.server k row i, hs.bridge⟩
  refine ⟨(s.server.subscribed_change k row).trans h.subscribed,
    Feed.reflects_change h.server k row, h.vlan, running, hrun, ?_⟩
  dsimp only
  revert hat
  cases s.pc with
  | waiting => exact fun hat => hsync hat
  | checking todo hits => exact fun hat hnil => hsync (hat hnil)
  | refresh force => exact fun _ => trivial
  | readServer force rows => exact fun hat => hread hat
  | readVlan force rows vlans => exact fun hat => ⟨hread hat.1, hat.2⟩
  | restart force interfaces => exact fun hat => hsync hat

/-- What a change does to the rows of `VLAN` that there are. -/
theorem vlan_change_cases {vlan : Feed String Unit} {k i : String} {row : Option Unit} :
    (i ∈ Dict.keys (vlan.change k row).rows ↔ i ∈ Dict.keys vlan.rows) ∨
      (i = k ∧ ¬(k ∈ Dict.keys vlan.rows ↔ row.isSome = true)) := by
  rw [Dict.mem_keys_iff, Dict.mem_keys_iff, Dict.mem_keys_iff]
  by_cases hki : k = i
  · subst hki
    rw [Feed.get?_change_self, ← Option.isSome_iff_ne_none, ← Option.isSome_iff_ne_none]
    by_cases h : (Dict.get? vlan.rows k).isSome = true ↔ row.isSome = true
    · exact Or.inl h.symm
    · exact Or.inr ⟨rfl, h⟩
  · rw [Feed.get?_change_ne vlan row hki]
    exact Or.inl Iff.rfl

/-- A change of `VLAN` that the daemon sees. -/
theorem synced_vlan {server : Feed String StatedRow} {vlan : Feed String Unit} {E I : List String}
    {k : String} {row : Option Unit} (hs : Synced server vlan E I)
    (hsees : (k ∈ Dict.keys vlan.rows ↔ row.isSome = true) ∨ k ∉ E ∨ vlan.subscribed = true) :
    Synced server (vlan.change k row) E I := by
  refine ⟨hs.server, fun i hi => ?_, hs.subset⟩
  rcases @vlan_change_cases vlan k i row with hsame | ⟨rfl, hother⟩
  · rw [hsame]
    exact (hs.vlan i hi).imp_right (Feed.touched_change row)
  · have hsub := ((hsees.resolve_left hother).resolve_left (not_not.2 hi))
    rcases Feed.told_of_change hsub i row with htold | ⟨hrows, -⟩
    · exact Or.inr htold
    · rw [hrows]
      exact (hs.vlan i hi).imp_right (Feed.touched_change row)

theorem good_vlan {env : RelayEnv} {s : Relayd} (h : s.Good env) {k : String}
    {row : Option Unit} (hok : s.Ok env (.vlan k row)) :
    Good env { s with vlan := s.vlan.change k row } := by
  obtain ⟨running, hrun, hat⟩ := h.running
  refine ⟨h.subscribed, h.server, Feed.reflects_change h.vlan k row, running, hrun, ?_⟩
  dsimp only
  unfold Ok at hok
  revert hok hat
  cases s.pc with
  | waiting => exact fun hok hat => synced_vlan hat hok
  | checking todo hits => exact fun hok hat hnil => synced_vlan (hat hnil) hok
  | refresh force => exact fun _ _ => trivial
  | readServer force rows => exact fun _ hat => hat
  | readVlan force rows vlans =>
    intro hok hat
    refine ⟨hat.1, fun i hi => ?_⟩
    rcases @vlan_change_cases s.vlan k i row with hsame | ⟨rfl, hother⟩
    · rw [hsame]
      exact hat.2 i hi
    · exact absurd hi (hok.resolve_left hother)
  | restart force interfaces => exact fun hok hat => synced_vlan hat hok

/-! ## Steps of the daemon -/

/-- A check of `DHCP_SERVER_IPV4` that reports nothing: the interfaces are those of the table. -/
theorem synced_checkServer {s : Relayd} {I : List String} {fresh : Nat → Bool}
    (hr : s.server.Reflects)
    (hcheck : checkUpdateEvent (fun key op =>
      some (intfEnablementCheck s.enabledDhcpInterfaces key (op.map StatedRow.row)))
      (s.server.deliver fresh) = some false)
    (hs : Synced s.server s.vlan s.enabledDhcpInterfaces I) :
    Synced s.server.drain s.vlan s.enabledDhcpInterfaces I := by
  refine ⟨fun i => Or.inl ?_, hs.vlan, hs.subset⟩
  rcases hs.server i with hsame | htouched
  · exact hsame
  · have hno := Option.some.inj (touched_of_check hr hcheck i htouched)
    unfold EnabledIn
    unfold Feed.current at hno
    rw [Feed.rows_drain]
    cases hget : Dict.get? s.server.rows i with
    | none =>
      rw [hget] at hno
      simpa [FeedOp.map, intfEnablementCheck] using hno
    | some row =>
      rw [hget] at hno
      dsimp only [FeedOp.map, intfEnablementCheck] at hno
      rw [Option.any_some, ServerRow.enabled]
      by_cases hi : i ∈ s.enabledDhcpInterfaces
      · rcases row.stated with hst | hst
        · simp [hst, hi]
        · simp [hst, hi] at hno
      · rcases row.stated with hst | hst
        · simp [hst, hi] at hno
        · simp [hst, hi]

/-- A check of `VLAN` that reports nothing. -/
theorem synced_checkVlan {s : Relayd} {I : List String} {fresh : Nat → Bool}
    (hr : s.vlan.Reflects)
    (hcheck : checkUpdateEvent (fun key _ => some (keyCheck s.enabledDhcpInterfaces key))
      (s.vlan.deliver fresh) = some false)
    (hs : Synced s.server s.vlan s.enabledDhcpInterfaces I) :
    Synced s.server s.vlan.drain s.enabledDhcpInterfaces I := by
  refine ⟨hs.server, fun i hi => Or.inl ?_, hs.subset⟩
  rcases hs.vlan i hi with hsame | htouched
  · exact hsame
  · have hno := Option.some.inj (touched_of_check hr hcheck i htouched)
    exact absurd hi (by simpa [keyCheck] using hno)

/-- A check takes the notifications of one table; if it reports nothing, nothing is missed. -/
theorem good_check {env : RelayEnv} {s s' : Relayd} {fresh : Nat → Bool} {c : RelayChecker}
    {todo hits : List RelayChecker} {hit : Bool} (h : s.Good env)
    (hpc : s.pc = .checking (c :: todo) hits) (hcheck : s.check env fresh c = some (hit, s')) :
    Good env { s' with pc := .checking todo (if hit then hits ++ [c] else hits) } := by
  obtain ⟨running, hrun, hat⟩ := h.running
  rw [hpc] at hat
  -- the invariant is about the case that nothing has been reported
  have hnil : (if hit then hits ++ [c] else hits) = [] → hit = false ∧ hits = [] := by
    cases hit with
    | true => simp
    | false => simp
  cases c with
  | server =>
    rw [check, if_pos h.subscribed] at hcheck
    obtain ⟨hit', hres, heq⟩ := Option.map_eq_some_iff.1 hcheck
    cases heq
    refine ⟨?_, Feed.reflects_of_events (Feed.events_drain _), h.vlan, running, hrun, ?_⟩
    · rw [Feed.subscribed_drain]
      exact h.subscribed
    · intro hno
      obtain ⟨rfl, hhits⟩ := hnil hno
      exact synced_checkServer h.server hres (hat hhits)
  | vlanIntf =>
    rw [check] at hcheck
    split at hcheck
    · obtain ⟨hit', -, heq⟩ := Option.map_eq_some_iff.1 hcheck
      cases heq
      exact ⟨h.subscribed, h.server, h.vlan, running, hrun, fun hno => hat (hnil hno).2⟩
    · cases hcheck
      exact ⟨h.subscribed, h.server, h.vlan, running, hrun, fun hno => hat (hnil hno).2⟩
  | vlan =>
    rw [check] at hcheck
    split at hcheck
    · obtain ⟨hit', hres, heq⟩ := Option.map_eq_some_iff.1 hcheck
      cases heq
      refine ⟨h.subscribed, h.server, Feed.reflects_of_events (Feed.events_drain _), running, hrun,
        ?_⟩
      intro hno
      obtain ⟨rfl, hhits⟩ := hnil hno
      exact synced_checkVlan h.vlan hres (hat hhits)
    · cases hcheck
      exact ⟨h.subscribed, h.server, h.vlan, running, hrun, fun hno => hat (hnil hno).2⟩

/-- The end of a refresh: what it has made of the tables is what they say. -/
theorem synced_refreshLoop {env : RelayEnv} {s : Relayd} {rows : Dict String StatedRow}
    {vlans : List String} (hread : ServerRead env s.server rows)
    (hvlans : ∀ i, EnabledIn rows i → (i ∈ Dict.keys s.vlan.rows ↔ i ∈ vlans)) (wanted : Bool) :
    Synced s.server (s.vlan.setSubscribed wanted)
      (refreshLoop env vlans rows).enabledDhcpInterfaces
      (refreshLoop env vlans rows).dhcpInterfaces := by
  have hmem := fun i => @mem_refreshLoop env vlans rows hread.nodup i
  refine ⟨fun i => ?_, fun i hi => Or.inl ?_, fun i hi => ?_⟩
  · rw [(hmem i).1]
    exact hread.server i
  · rw [(hmem i).1] at hi
    rw [(hmem i).2, Feed.rows_setSubscribed, hvlans i hi]
    constructor
    · exact fun hv => ⟨hi, Or.inl hv⟩
    · rintro ⟨-, hv | hb⟩
      · exact hv
      · exact absurd hi (hread.bridge i hb)
  · rw [(hmem i).2] at hi
    exact (hmem i).1.2 hi.1

theorem good_advance {env : RelayEnv} {s s' : Relayd} {fresh : Nat → Bool} (h : s.Good env)
    (hok : s.Ok env (.advance fresh)) (hstep : s.advance env fresh = some s') : s'.Good env := by
  obtain ⟨running, hrun, hat⟩ := h.running
  unfold advance at hstep
  split at hstep
  · next hpc =>
    rw [hpc] at hat
    obtain rfl := Option.some.inj hstep
    exact ⟨h.subscribed, h.server, h.vlan, running, hrun, fun _ => hat⟩
  · next c todo hits hpc =>
    obtain ⟨⟨hit, s₁⟩, hcheck, rfl⟩ := Option.map_eq_some_iff.1 hstep
    exact good_check h hpc hcheck
  · next hits hpc =>
    rw [hpc] at hat
    obtain rfl := Option.some.inj hstep
    refine ⟨h.subscribed, h.server, h.vlan, running, hrun, ?_⟩
    dsimp only
    unfold proceed
    split
    · exact trivial
    · split
      · exact trivial
      · next hintf hother =>
        refine hat ?_
        cases hits with
        | nil => rfl
        | cons c hits => cases c <;> simp_all
  · next force hpc =>
    unfold Ok at hok
    rw [hpc] at hok
    obtain rfl := Option.some.inj hstep
    exact ⟨h.subscribed, h.server, h.vlan, running, hrun,
      ⟨s.server.nodup, fun i => Or.inl Iff.rfl, hok⟩⟩
  · next force rows hpc =>
    rw [hpc] at hat
    obtain rfl := Option.some.inj hstep
    exact ⟨h.subscribed, h.server, h.vlan, running, hrun, hat, fun i _ => Iff.rfl⟩
  · next force rows vlans hpc =>
    rw [hpc] at hat
    obtain rfl := Option.some.inj hstep
    exact ⟨h.subscribed, h.server, Feed.reflects_setSubscribed h.vlan _, running, hrun,
      synced_refreshLoop hat.1 hat.2 _⟩
  · next force interfaces hpc =>
    rw [hpc] at hat
    obtain ⟨procs, hstart, rfl⟩ := Option.map_eq_some_iff.1 hstep
    exact ⟨h.subscribed, h.server, h.vlan, interfaces, running_startDhcrelay hrun hstart, hat⟩

/-! ## Runs -/

def Step (env : RelayEnv) (s : Relayd) (a : RelayAct) (s' : Relayd) : Prop :=
  s.next env a = some s'

theorem step_next (env : RelayEnv) (s : Relayd) (a : RelayAct) (s' : Relayd)
    (h : s.next env a = some s') : Step env s a s' := h

theorem good_next {env : RelayEnv} {s s' : Relayd} {a : RelayAct} (h : s.Good env)
    (hok : s.Ok env a) (hstep : Step env s a s') : s'.Good env := by
  unfold Step next at hstep
  cases a with
  | server key row =>
    obtain rfl := Option.some.inj hstep
    exact good_server h key row
  | vlan key row =>
    obtain rfl := Option.some.inj hstep
    exact good_vlan h hok
  | vlanIntf key row =>
    obtain rfl := Option.some.inj hstep
    exact ⟨h.subscribed, h.server, h.vlan, h.running⟩
  | advance fresh => exact good_advance h hok hstep

theorem good_started (env : RelayEnv) (server : Feed String StatedRow)
    (vlan vlanIntf : Feed String Unit) : (started server vlan vlanIntf).Good env := by
  refine ⟨rfl, Feed.reflects_subscribe server, Feed.reflects_of_events rfl, [], Or.inl ⟨rfl, rfl⟩,
    ⟨fun i => ?_, fun i hi => absurd hi List.not_mem_nil, fun i hi => absurd hi List.not_mem_nil⟩⟩
  -- the daemon is told of all rows
  by_cases hi : i ∈ Dict.keys server.rows
  · right
    unfold started Feed.touched Feed.events Feed.subscribe
    rw [Option.getD_some, List.map_map]
    exact hi
  · left
    rw [Dict.mem_keys_iff, not_not] at hi
    unfold started EnabledIn
    rw [Feed.rows_subscribe, hi]
    simp

theorem served_of_good {env : RelayEnv} {s : Relayd} (h : s.Good env) (hs : s.Settled) :
    s.Served := by
  obtain ⟨hpc, hserver, hvlan, -⟩ := hs
  obtain ⟨running, hrun, hat⟩ := h.running
  rw [hpc] at hat
  have hnone : ∀ {ν : Type} {f : Feed String ν} {i : String}, f.events = [] → i ∉ f.touched := by
    intro ν f i hf
    unfold Feed.touched
    rw [hf]
    exact List.not_mem_nil
  have hwanted : ∀ i, i ∈ running ↔ s.Wanted i := by
    intro i
    have hen := (hat.server i).resolve_right (hnone hserver)
    constructor
    · intro hi
      have hE := hat.subset i hi
      exact ⟨hen.2 hE, ((hat.vlan i hE).resolve_right (hnone hvlan)).2 hi⟩
    · rintro ⟨hi, hv⟩
      exact ((hat.vlan i (hen.1 hi)).resolve_right (hnone hvlan)).1 hv
  rcases hrun with ⟨hprocs, hnil⟩ | ⟨is, hne, hprocs, his⟩
  · refine Or.inl ⟨fun i hi => ?_, hprocs⟩
    rw [← hwanted, hnil] at hi
    exact absurd hi List.not_mem_nil
  · obtain ⟨i, hi⟩ := List.exists_mem_of_ne_nil is hne
    refine Or.inr ⟨⟨i, (hwanted i).1 ((his i).1 hi)⟩, _, _, hprocs, idsOf_dhcrelayCmd env is,
      fun i => ?_⟩
    rw [IterOrder.mem env.order_iter, his, hwanted]

/-- In every run whose steps meet the condition, dhcrelay runs for exactly the interfaces it is
    to serve whenever all notifications have been taken. -/
theorem relay_of_run {env : RelayEnv} {server : Feed String StatedRow}
    {vlan vlanIntf : Feed String Unit} {acts : List RelayAct} {s : Relayd}
    (hrun : Run (Step env) (Ok env) (started server vlan vlanIntf) acts s) (hs : s.Settled) :
    s.Served :=
  served_of_good (hrun.invariant (P := Good env) (fun _ _ _ h hok hstep => good_next h hok hstep)
    (good_started env server vlan vlanIntf)) hs

/-- A switch with one address. -/
def sampleIp : IpModule where
  ipAddress s := if s = "192.168.0.1" then some ⟨4, 3232235521⟩ else none
  ipNetwork _ := none
  strAddr _ := "192.168.0.1"
  strNet _ := "192.168.0.0/24"
  version_network _ _ h := absurd h (by simp)

def sampleEnv : RelayEnv := ⟨sampleIp, none, "240.127.1.2", by decide, id, iterOrder_id⟩

def sampleRow : StatedRow := ⟨⟨some "enabled", some "PORT", none, none, none⟩, Or.inl rfl⟩

/-- Vlan1000 is enabled in `DHCP_SERVER_IPV4`. -/
def sampleServer : Feed String StatedRow := ⟨[("Vlan1000", sampleRow)], by decide, none⟩

def sampleVlan : Feed String Unit := ⟨[("Vlan1000", ())], by decide, none⟩

def noRows : Feed String Unit := ⟨[], by decide, none⟩

/-- The daemon checks the tables once, and refreshes. -/
def round : List RelayAct := List.replicate 9 (.advance fun _ => true)

/-- Vlan1000 is there from the start, gets an address, and is removed and added again. -/
def watched : List RelayAct :=
  round ++ round ++ [RelayAct.vlanIntf "Vlan1000|192.168.0.1/24" (some ())] ++ round ++
    [RelayAct.vlan "Vlan1000" none] ++ [RelayAct.vlan "Vlan1000" (some ())] ++ round

theorem relay_watched :
    ∃ s, Run (Step sampleEnv) (Ok sampleEnv)
        (started sampleServer sampleVlan noRows) watched s ∧
      s.Settled ∧ s.procs ≠ [] ∧ s.Served := by
  obtain ⟨s, hrun, hs, hprocs⟩ : ∃ s, Run (Step sampleEnv) (Ok sampleEnv)
      (started sampleServer sampleVlan noRows) watched s ∧
        s.Settled ∧ s.procs ≠ [] :=
    exists_run (step_next sampleEnv) (by decide +kernel)
  exact ⟨s, hrun, hs, hprocs, relay_of_run hrun hs⟩

/-- Vlan1000 is enabled first and added to `VLAN` then: the daemon has not subscribed to `VLAN`,
    and no relay is started. -/
theorem relay_missed :
    ∃ s, Run (Step sampleEnv) (fun _ _ => True) (started sampleServer noRows noRows)
        (round ++ [RelayAct.vlan "Vlan1000" (some ())]) s ∧ s.Settled ∧ ¬s.Served := by
  obtain ⟨s, hrun, hs, hwanted, hprocs⟩ : ∃ s,
      Run (Step sampleEnv) (fun _ _ => True) (started sampleServer noRows noRows)
        (round ++ [RelayAct.vlan "Vlan1000" (some ())]) s ∧
          s.Settled ∧ s.Wanted "Vlan1000" ∧ s.procs = [] :=
    exists_run (step_next sampleEnv) (by decide +kernel)
  refine ⟨s, hrun, hs, ?_⟩
  rintro (⟨hnone, -⟩ | ⟨-, cmd, ids, hcmd, -⟩)
  · exact hnone "Vlan1000" hwanted
  · rw [hprocs] at hcmd
    cases hcmd

end Relayd

end SonicBuildimage.DhcpUtilities
