/-
  Who runs a feature: its local container or one that Kubernetes has deployed (the script container
  and container_startup.py of sonic-ctrmgrd).

  Model.  The service on the host goes through container_start, container_wait and container_stop,
  in turn; any number of deployed containers, and the local one, go through container_up.  Every
  read and every write of the databases is a step, and the steps interleave freely; so do changes
  of the configuration and of the connection to the server, and the exits of containers.

  Proved: `exclusive_of_run`.  In every run in which a container is deployed after the first start
  of the feature, takes a `ready` that still stands while the host waits for it, and container_wait
  does not see a new container id together with `pending`, one container at most runs the
  application.  Otherwise two do (`not_exclusive`).

  Not modelled: docker commands that fail, the labels for the server, container_kill, and a host
  without ctrmgrd, where container writes nothing.
-/
import SonicBuildimage.Lib.Run

namespace SonicBuildimage.Ctrmgrd

open SonicBuildimage.Lib

/-! ## The databases -/

inductive SetOwner where
  | local
  | kube
  deriving DecidableEq

/-- `current_owner` -/
inductive Owner where
  | none
  | local
  | kube
  deriving DecidableEq

/-- `remote_state` -/
inductive RemoteState where
  | none
  | pending
  | ready
  | running
  | stopped
  deriving DecidableEq

/-- `system_state`; there is none before the first start. -/
inductive SystemState where
  | unset
  | up
  | down
  deriving DecidableEq

/-- The containers: the local one has the name of the feature. -/
inductive Ctr where
  | feature
  | docker (i : Nat)
  deriving DecidableEq

/-- The row of the feature in STATE_DB. -/
structure Feature where
  currentOwner : Owner
  /-- `none` without the field, `some none` for an empty text -/
  containerId : Option (Option Ctr)
  remoteState : RemoteState
  version : String
  systemState : SystemState

namespace Feature

def initial : Feature := ⟨.none, none, .none, "0.0.0", .unset⟩

/-- `container_id` of the script container -/
def idOf (d : Feature) : Option Ctr :=
  if d.currentOwner = .local then some .feature else d.containerId.getD (some .feature)

/-- The container id as `read_state` gives it. -/
def readId (d : Feature) : Option Ctr := d.containerId.getD none

end Feature

/-! ## Where everybody is -/

/-- Where a deployed container is in `container_up(feature, "kube", version)`. -/
inductive Kube where
  | absent
  /-- about to read the configuration, and then the state -/
  | entered (version : String)
  | owned (version : String) (setOwner : SetOwner)
  /-- about to look whether the version is blocked; `mode` is the `remote_state` it has read -/
  | checking (version : String) (mode : RemoteState)
  | versioning (version : String) (mode : RemoteState)
  | announcing (version : String) (mode : RemoteState)
  | polling (version : String)
  /-- about to write its state -/
  | marking (version : String)
  /-- `container_up` has returned, and the application runs -/
  | up (version : String)
  | frozen
  | gone
  deriving DecidableEq

/-- The application runs. -/
def Kube.isUp : Kube → Bool
  | .up _ => true
  | _ => false

/-- Where the local container is in `container_up(feature, "local", version)`. -/
inductive Local where
  | stopped
  | started
  | labelling
  | marking
  | up
  deriving DecidableEq

inductive Host where
  | startConfig
  | startState (setOwner : SetOwner) (fallback : Bool)
  | startServer (setOwner : SetOwner) (fallback : Bool) (remoteState : RemoteState)
  | startWrite (startLocal : Bool)
  | startDocker
  | waitConfig
  | waitId (fallback : Bool)
  | polling (fallback : Bool)
  /-- about to write `ready`, with the id it has read -/
  | granting (fallback : Bool) (dockerId : Option Ctr)
  | clearing
  /-- in `docker wait` -/
  | waiting (dockerId : Ctr)
  | stopState
  | stopId (remoteState : RemoteState)
  | stopDocker (remoteState : RemoteState) (dockerId : Option Ctr)
  | stopWrite (remoteState : RemoteState)
  deriving DecidableEq

structure St where
  setOwner : SetOwner
  fallback : Bool
  serverConnected : Bool
  db : Feature
  /-- the version under the label that blocks a deployment -/
  localLabel : Option String
  host : Host
  loc : Local
  kube : Nat → Kube

inductive Event where
  | config (setOwner : SetOwner) (fallback : Bool)
  | server (connected : Bool)
  | deploy (i : Nat) (version : String)
  /-- the next step of the host, a deployed or the local container -/
  | host
  | kube (i : Nat)
  | local
  /-- `pend_wait_secs` are over -/
  | timeout
  /-- `container_wait` ends, or is ended -/
  | leave
  /-- a container exits or is killed -/
  | exit (c : Ctr)

namespace St

def start (setOwner : SetOwner) (fallback : Bool) : St :=
  ⟨setOwner, fallback, false, .initial, none, .startConfig, .stopped, fun _ => .absent⟩

def setKube (s : St) (i : Nat) (k : Kube) : St := { s with kube := Function.update s.kube i k }

/-- The container does not run any more. -/
def stop (s : St) : Ctr → St
  | .feature => { s with loc := .stopped }
  | .docker i => s.setKube i .gone

/-! ## The host -/

/-- Behind the test of the loop of `container_wait`. -/
def afterPoll (s : St) (fallback : Bool) : Option Ctr → St
  | none => { s with host := .polling fallback }
  | some d => { s with host := .waiting d }

/-- The next step of the host, from where it is. -/
def hostNext (s : St) : Host → Option St
  | .startConfig => some { s with host := .startState s.setOwner s.fallback }
  | .startState o fallback => some { s with host := .startServer o fallback s.db.remoteState }
  | .startServer o fallback remote =>
    let startLocal :=
      o = .local || (fallback && (remote = .none || s.serverConnected = false))
    some { s with host := .startWrite startLocal }
  | .startWrite true =>
    some { s with
      db := { s.db with
        systemState := .up, remoteState := .none, currentOwner := .local,
        containerId := some (some .feature) }
      host := .startDocker }
  | .startWrite false =>
    some { s with db := { s.db with systemState := .up }, host := .waitConfig }
  | .startDocker => some { s with loc := .started, host := .waitConfig }
  | .waitConfig => some { s with host := .waitId s.fallback }
  | .waitId fallback => some (s.afterPoll fallback s.db.idOf)
  | .polling fallback =>
    if s.db.remoteState = .pending then
      some { s with host := .granting fallback s.db.readId }
    else some (s.afterPoll fallback s.db.readId)
  | .granting fallback dockerId =>
    some ({ s with db := { s.db with remoteState := .ready } }.afterPoll fallback dockerId)
  | .clearing =>
    some { s with db := { s.db with remoteState := .none }, host := .stopState }
  | .waiting _ => none
  | .stopState => some { s with host := .stopId s.db.remoteState }
  | .stopId remote => some { s with host := .stopDocker remote s.db.idOf }
  | .stopDocker remote none => some { s with host := .stopWrite remote }
  | .stopDocker remote (some d) => some { s.stop d with host := .stopWrite remote }
  | .stopWrite remote =>
    some { s with
      db := { s.db with
        currentOwner := .none, containerId := some none, systemState := .down,
        remoteState := if remote = .running then .stopped else s.db.remoteState }
      host := .startConfig }

def inWait (s : St) : Bool :=
  match s.host with
  | .waitConfig => true
  | .waitId _ => true
  | .polling _ => true
  | .granting _ _ => true
  | .clearing => true
  | .waiting _ => true
  | _ => false

/-! ## The containers -/

/-- `check_version_blocked` -/
def versionBlocked (s : St) (version : String) : Bool :=
  s.localLabel.any fun l => l.toLower = version.toLower

/-- The next step of a deployed container, from where it is. -/
def kubeNext (s : St) (i : Nat) : Kube → Option St
  | .entered v => some (s.setKube i (.owned v s.setOwner))
  | .owned v o =>
    if s.db.systemState = .unset then some (s.setKube i (.up v))
    else if o = .local then some (s.setKube i .frozen)
    else if s.db.systemState ≠ .up then some (s.setKube i .frozen)
    else some (s.setKube i (.checking v s.db.remoteState))
  | .checking v mode =>
    if s.versionBlocked v then some (s.setKube i .frozen)
    else some (s.setKube i (.versioning v mode))
  | .versioning v mode =>
    some ({ s with db := { s.db with version := v } }.setKube i (.announcing v mode))
  | .announcing v .pending => some (s.setKube i (.polling v))
  | .announcing v .ready => some (s.setKube i (.marking v))
  | .announcing v _ =>
    some ({ s with db := { s.db with remoteState := .pending } }.setKube i (.polling v))
  | .polling v =>
    if v ≠ s.db.version then some (s.setKube i .frozen)
    else if s.db.remoteState = .ready then some (s.setKube i (.marking v))
    else some s
  | .marking v =>
    some ({ s with
      db := { s.db with
        currentOwner := .kube, containerId := some (some (.docker i)), version := v,
        remoteState := .running } }.setKube i (.up v))
  | _ => none

/-- The next step of the local container, which is of a version. -/
def localNext (version : String) (s : St) : Option St :=
  match s.loc with
  | .started =>
    if s.db.systemState = .unset then some { s with loc := .up }
    else some { s with loc := .labelling }
  | .labelling => some { s with localLabel := some version, loc := .marking }
  | .marking =>
    some { s with
      db := { s.db with
        currentOwner := .local, containerId := some (some .feature), version := version }
      loc := .up }
  | _ => none

/-! ## Runs -/

def next (version : String) (s : St) : Event → Option St
  | .config o fallback => some { s with setOwner := o, fallback := fallback }
  | .server connected => some { s with serverConnected := connected }
  | .deploy i v => if s.kube i = .absent then some (s.setKube i (.entered v)) else none
  | .host => s.hostNext s.host
  | .kube i => s.kubeNext i (s.kube i)
  | .local => s.localNext version
  | .timeout =>
    match s.host with
    | .polling true => some { s with host := .clearing }
    | _ => none
  | .leave => if s.inWait then some { s with host := .stopState } else none
  | .exit c => some (s.stop c)

def Step (version : String) (s : St) (e : Event) (s' : St) : Prop := s.next version e = some s'

theorem step_next (version : String) (s : St) (e : Event) (s' : St)
    (h : s.next version e = some s') : Step version s e s' := h

/-- The host is in the loop of `container_wait`. -/
def inLoop (s : St) : Bool :=
  match s.host with
  | .polling _ => true
  | .granting _ _ => true
  | _ => false

/-- A container looks at the state of a feature that was started, and it writes its own while the
    `ready` still stands and the host is waiting for it. -/
def KubeOk (s : St) : Kube → Prop
  | .owned _ _ => s.db.systemState ≠ .unset
  | .marking _ => s.db.remoteState = .ready ∧ s.inLoop = true
  | _ => True

/-- The host does not see an id together with a `pending`. -/
def HostOk (s : St) : Host → Prop
  | .polling _ => s.db.remoteState = .pending → s.db.readId = none
  | _ => True

def Ok (s : St) : Event → Prop
  | .kube i => s.KubeOk (s.kube i)
  | .host => s.HostOk s.host
  | _ => True

instance (s : St) (k : Kube) : Decidable (s.KubeOk k) := by
  cases k <;> unfold KubeOk <;> infer_instance

instance (s : St) (h : Host) : Decidable (s.HostOk h) := by
  cases h <;> unfold HostOk <;> infer_instance

instance (s : St) (e : Event) : Decidable (s.Ok e) := by
  cases e <;> unfold Ok <;> infer_instance

/-- No deployed container runs beside the local one or one of another version. -/
structure Exclusive (s : St) : Prop where
  alone : ∀ i v, s.kube i = .up v → s.loc = .stopped
  same : ∀ i v j w, s.kube i = .up v → s.kube j = .up w → v = w

/-! ## The invariant -/

/-- No container runs the application. -/
structure Idle (s : St) : Prop where
  loc : s.loc = .stopped
  kube : ∀ i v, s.kube i ≠ .up v

/-- What the host can rely on where it is. -/
def HostInv (s : St) : Host → Prop
  | .startConfig => s.Idle
  | .startState _ _ => s.Idle
  | .startServer _ _ _ => s.Idle
  | .startWrite _ => s.Idle
  | .startDocker =>
    s.Idle ∧ s.db.remoteState ≠ .ready ∧ s.db.currentOwner = .local ∧
      s.db.containerId = some (some .feature)
  | .granting _ dockerId => s.Idle ∧ s.db.remoteState ≠ .ready ∧ dockerId = none
  | .stopDocker _ dockerId =>
    (s.loc ≠ .stopped → dockerId = some .feature) ∧
      ∀ i v, s.kube i = .up v → dockerId = some (.docker i)
  | .stopWrite _ => s.Idle
  | _ => True

/-- A container that runs is the one in the database, and `ready` is for none that runs. -/
structure Inv (s : St) : Prop where
  loc : s.loc ≠ .stopped → s.db.currentOwner = .local ∧ s.db.containerId = some (some .feature)
  kube : ∀ i v, s.kube i = .up v →
    s.db.currentOwner = .kube ∧ s.db.containerId = some (some (.docker i))
  ready : s.db.remoteState = .ready → s.Idle
  host : s.HostInv s.host

theorem inv_start (o : SetOwner) (fallback : Bool) : Inv (start o fallback) where
  loc h := absurd rfl h
  kube i v h := by cases h
  ready h := by cases h
  host := ⟨rfl, fun i v h => by cases h⟩

theorem Inv.exclusive {s : St} (h : Inv s) : s.Exclusive where
  alone i v hi := by
    by_contra hloc
    have howner := (h.loc hloc).1
    rw [(h.kube i v hi).1] at howner
    cases howner
  same i v j w hi hj := by
    have hid := (h.kube i v hi).2
    rw [(h.kube j w hj).2] at hid
    cases hid
    rw [hi] at hj
    cases hj
    rfl

/-- A container that runs is the one that `container_stop` finds. -/
theorem Inv.idOf {s : St} (h : Inv s) :
    (s.loc ≠ .stopped → s.db.idOf = some .feature) ∧
      ∀ i v, s.kube i = .up v → s.db.idOf = some (.docker i) := by
  unfold Feature.idOf
  constructor
  · intro hloc
    rw [if_pos (h.loc hloc).1]
  · intro i v hi
    obtain ⟨howner, hid⟩ := h.kube i v hi
    rw [howner, hid]
    rfl

/-- Without an id no container runs. -/
theorem Inv.idle_of_readId {s : St} (h : Inv s) (hid : s.db.readId = none) : s.Idle where
  loc := by
    by_contra hloc
    rw [Feature.readId, (h.loc hloc).2] at hid
    cases hid
  kube i v hi := by
    rw [Feature.readId, (h.kube i v hi).2] at hid
    cases hid

/-! ## Steps -/

/-- No container starts to run, and what the database says of those that do stays. -/
structure Quiet (s s' : St) : Prop where
  loc : s'.loc ≠ .stopped → s.loc ≠ .stopped
  kube : ∀ i v, s'.kube i = .up v → s.kube i = .up v
  owner : s'.db.currentOwner = s.db.currentOwner
  id : s'.db.containerId = s.db.containerId
  ready : s'.db.remoteState = .ready → s.db.remoteState = .ready

theorem Quiet.idle {s s' : St} (hq : Quiet s s') (h : s.Idle) : s'.Idle where
  loc := by
    by_contra hloc
    exact hq.loc hloc h.loc
  kube i v hi := h.kube i v (hq.kube i v hi)

theorem Quiet.hostInv {s s' : St} (hq : Quiet s s') {host : Host} (h : s.HostInv host) :
    s'.HostInv host := by
  cases host with
  | startConfig => exact hq.idle h
  | startState o fallback => exact hq.idle h
  | startServer o fallback remote => exact hq.idle h
  | startWrite startLocal => exact hq.idle h
  | startDocker =>
    obtain ⟨hidle, hready, howner, hid⟩ := h
    exact ⟨hq.idle hidle, fun hr => hready (hq.ready hr), hq.owner.trans howner, hq.id.trans hid⟩
  | granting fallback dockerId =>
    obtain ⟨hidle, hready, hid⟩ := h
    exact ⟨hq.idle hidle, fun hr => hready (hq.ready hr), hid⟩
  | stopDocker remote dockerId =>
    exact ⟨fun hloc => h.1 (hq.loc hloc), fun i v hi => h.2 i v (hq.kube i v hi)⟩
  | stopWrite remote => exact hq.idle h
  | waitConfig => trivial
  | waitId fallback => trivial
  | polling fallback => trivial
  | clearing => trivial
  | waiting dockerId => trivial
  | stopState => trivial
  | stopId remote => trivial

/-- A quiet step, where the host may have moved on. -/
theorem Inv.quiet {s s' : St} (h : Inv s) (hq : Quiet s s') (hhost : s.HostInv s'.host) :
    Inv s' where
  loc hloc := by
    rw [hq.owner, hq.id]
    exact h.loc (hq.loc hloc)
  kube i v hi := by
    rw [hq.owner, hq.id]
    exact h.kube i v (hq.kube i v hi)
  ready hr := hq.idle (h.ready (hq.ready hr))
  host := hq.hostInv hhost

theorem kube_setKube_self (s : St) (i : Nat) (k : Kube) : (s.setKube i k).kube i = k :=
  Function.update_self _ _ _

theorem kube_setKube_ne (s : St) {i j : Nat} (k : Kube) (h : j ≠ i) :
    (s.setKube i k).kube j = s.kube j := Function.update_of_ne h _ _

theorem quiet_setKube (s : St) (i : Nat) {k : Kube} (hk : k.isUp = false) :
    Quiet s (s.setKube i k) where
  loc := id
  kube j v hj := by
    by_cases hji : j = i
    · rw [hji, kube_setKube_self] at hj
      rw [hj] at hk
      cases hk
    · rwa [kube_setKube_ne s k hji] at hj
  owner := rfl
  id := rfl
  ready := id

theorem quiet_stop (s : St) (c : Ctr) : Quiet s (s.stop c) := by
  cases c with
  | feature => exact ⟨fun h => absurd rfl h, fun _ _ h => h, rfl, rfl, id⟩
  | docker i => exact quiet_setKube s i rfl

theorem host_stop (s : St) (c : Ctr) : (s.stop c).host = s.host := by
  cases c <;> rfl

/-- `docker stop` of the only container that can run. -/
theorem idle_stop {s : St} {d : Ctr} (hloc : s.loc ≠ .stopped → some d = some .feature)
    (hkube : ∀ i v, s.kube i = .up v → some d = some (.docker i)) : (s.stop d).Idle := by
  have hq := quiet_stop s d
  constructor
  · by_contra hne
    cases Option.some.inj (hloc (hq.loc hne))
    exact hne rfl
  · intro i v hi
    cases Option.some.inj (hkube i v (hq.kube i v hi))
    rw [stop, kube_setKube_self] at hi
    cases hi

/-- Only the host moves on. -/
theorem Inv.hostMove {s : St} (h : Inv s) {host : Host} (hhost : s.HostInv host) :
    Inv { s with host := host } :=
  h.quiet ⟨fun h => h, fun _ _ h => h, rfl, rfl, fun h => h⟩ hhost

theorem Inv.afterPoll {s : St} (h : Inv s) (fallback : Bool) (d : Option Ctr) :
    Inv (s.afterPoll fallback d) := by
  cases d with
  | none => exact h.hostMove trivial
  | some d => exact h.hostMove trivial

/-- A state in which nothing runs has only to say where the host is. -/
theorem inv_of_idle {s : St} (h : s.Idle) (hhost : s.HostInv s.host) : Inv s where
  loc hloc := absurd h.loc hloc
  kube i v hi := absurd hi (h.kube i v)
  ready _ := h
  host := hhost

theorem Inv.hostNext {s s' : St} (h : Inv s) {host : Host} (hhost : s.host = host)
    (hok : s.HostOk host) (hstep : s.hostNext host = some s') : Inv s' := by
  have hinv : s.HostInv host := hhost ▸ h.host
  cases host with
  | startConfig =>
    cases hstep
    exact h.hostMove hinv
  | startState o fallback =>
    cases hstep
    exact h.hostMove hinv
  | startServer o fallback remote =>
    cases hstep
    exact h.hostMove hinv
  | startWrite startLocal =>
    cases startLocal with
    | false =>
      cases hstep
      exact h.quiet ⟨fun h => h, fun _ _ h => h, rfl, rfl, fun h => h⟩ trivial
    | true =>
      cases hstep
      have hidle : s.Idle := hinv
      refine inv_of_idle ⟨hidle.loc, hidle.kube⟩ ⟨⟨hidle.loc, hidle.kube⟩, ?_, rfl, rfl⟩
      intro hr
      cases hr
  | startDocker =>
    cases hstep
    obtain ⟨hidle, hready, howner, hid⟩ := hinv
    exact ⟨fun _ => ⟨howner, hid⟩, fun i v hi => absurd hi (hidle.kube i v),
      fun hr => absurd hr hready, trivial⟩
  | waitConfig =>
    cases hstep
    exact h.hostMove trivial
  | waitId fallback =>
    cases hstep
    exact h.afterPoll _ _
  | polling fallback =>
    rw [St.hostNext] at hstep
    split at hstep
    · next hpending =>
      cases hstep
      have hid := hok hpending
      refine h.hostMove ⟨h.idle_of_readId hid, ?_, hid⟩
      rw [hpending]
      decide
    · cases hstep
      exact h.afterPoll _ _
  | granting fallback dockerId =>
    cases hstep
    obtain ⟨hidle, _, rfl⟩ := hinv
    exact inv_of_idle ⟨hidle.loc, hidle.kube⟩ trivial
  | clearing =>
    cases hstep
    refine h.quiet ⟨fun h => h, fun _ _ h => h, rfl, rfl, ?_⟩ trivial
    intro hr
    cases hr
  | waiting dockerId => cases hstep
  | stopState =>
    cases hstep
    exact h.hostMove trivial
  | stopId remote =>
    cases hstep
    exact h.hostMove h.idOf
  | stopDocker remote dockerId =>
    obtain ⟨hloc, hkube⟩ := hinv
    cases dockerId with
    | none =>
      cases hstep
      refine h.hostMove ⟨?_, ?_⟩
      · by_contra hne
        cases hloc hne
      · intro i v hi
        cases hkube i v hi
    | some d =>
      cases hstep
      have hstop : Inv (s.stop d) := by
        refine h.quiet (quiet_stop s d) ?_
        rw [host_stop]
        exact h.host
      exact hstop.hostMove (idle_stop hloc hkube)
  | stopWrite remote =>
    cases hstep
    have hidle : s.Idle := hinv
    exact inv_of_idle ⟨hidle.loc, hidle.kube⟩ ⟨hidle.loc, hidle.kube⟩

/-- A deployed container passes `container_up`, with the `ready` that the host is waiting for. -/
theorem Inv.pass {s : St} (h : Inv s) {i : Nat} {v : String} (hready : s.db.remoteState = .ready)
    (hloop : s.inLoop = true) :
    Inv ({ s with
      db := { s.db with
        currentOwner := .kube, containerId := some (some (.docker i)), version := v,
        remoteState := .running } }.setKube i (.up v)) := by
  have hidle := h.ready hready
  have hinv := h.host
  constructor
  · intro hloc
    exact absurd hidle.loc hloc
  · intro j w hj
    by_cases hji : j = i
    · rw [hji]
      exact ⟨rfl, rfl⟩
    · rw [kube_setKube_ne _ _ hji] at hj
      exact absurd hj (hidle.kube j w)
  · intro hr
    cases hr
  · change HostInv _ s.host
    unfold inLoop at hloop
    split at hloop
    · next hhost =>
      rw [hhost]
      trivial
    · next hhost =>
      rw [hhost] at hinv
      exact absurd hready hinv.2.1
    · cases hloop

/-- A deployed container that does not pass `container_up`. -/
theorem Inv.setKube {s : St} (h : Inv s) (i : Nat) {k : Kube} (hk : k.isUp = false) :
    Inv (s.setKube i k) := h.quiet (quiet_setKube s i hk) h.host

theorem Inv.kubeNext {s s' : St} (h : Inv s) {i : Nat} {k : Kube} (hok : s.KubeOk k)
    (hstep : s.kubeNext i k = some s') : Inv s' := by
  cases k with
  | absent => cases hstep
  | entered v =>
    cases hstep
    exact h.setKube i rfl
  | owned v o =>
    rw [St.kubeNext, if_neg hok] at hstep
    split at hstep
    · cases hstep
      exact h.setKube i rfl
    · split at hstep
      · cases hstep
        exact h.setKube i rfl
      · cases hstep
        exact h.setKube i rfl
  | checking v mode =>
    rw [St.kubeNext] at hstep
    split at hstep
    · cases hstep
      exact h.setKube i rfl
    · cases hstep
      exact h.setKube i rfl
  | versioning v mode =>
    cases hstep
    have hdb : Inv { s with db := { s.db with version := v } } :=
      h.quiet ⟨fun h => h, fun _ _ h => h, rfl, rfl, fun h => h⟩ h.host
    exact hdb.setKube i rfl
  | announcing v mode =>
    have hpending : Inv { s with db := { s.db with remoteState := .pending } } := by
      refine h.quiet ⟨fun h => h, fun _ _ h => h, rfl, rfl, ?_⟩ h.host
      intro hr
      cases hr
    cases mode with
    | pending =>
      cases hstep
      exact h.setKube i rfl
    | ready =>
      cases hstep
      exact h.setKube i rfl
    | none =>
      cases hstep
      exact hpending.setKube i rfl
    | running =>
      cases hstep
      exact hpending.setKube i rfl
    | stopped =>
      cases hstep
      exact hpending.setKube i rfl
  | polling v =>
    rw [St.kubeNext] at hstep
    split at hstep
    · cases hstep
      exact h.setKube i rfl
    · split at hstep
      · cases hstep
        exact h.setKube i rfl
      · cases hstep
        exact h
  | marking v =>
    cases hstep
    exact h.pass hok.1 hok.2
  | up v => cases hstep
  | frozen => cases hstep
  | gone => cases hstep

/-- The local container only says again what `container_start` has written. -/
theorem Inv.localNext {version : String} {s s' : St} (h : Inv s)
    (hstep : s.localNext version = some s') : Inv s' := by
  unfold St.localNext at hstep
  split at hstep
  · next hloc =>
    have hrun : s.loc ≠ .stopped := by
      rw [hloc]
      decide
    split at hstep
    · cases hstep
      exact h.quiet ⟨fun _ => hrun, fun _ _ h => h, rfl, rfl, fun h => h⟩ h.host
    · cases hstep
      exact h.quiet ⟨fun _ => hrun, fun _ _ h => h, rfl, rfl, fun h => h⟩ h.host
  · next hloc =>
    have hrun : s.loc ≠ .stopped := by
      rw [hloc]
      decide
    cases hstep
    exact h.quiet ⟨fun _ => hrun, fun _ _ h => h, rfl, rfl, fun h => h⟩ h.host
  · next hloc =>
    have hrun : s.loc ≠ .stopped := by
      rw [hloc]
      decide
    obtain ⟨howner, hid⟩ := h.loc hrun
    cases hstep
    exact h.quiet ⟨fun _ => hrun, fun _ _ h => h, howner.symm, hid.symm, fun h => h⟩ h.host
  · cases hstep

theorem Inv.step {version : String} {s s' : St} {e : Event} (h : Inv s) (hok : s.Ok e)
    (hstep : Step version s e s') : Inv s' := by
  unfold Step at hstep
  cases e with
  | config o fallback =>
    cases hstep
    exact h.quiet ⟨fun h => h, fun _ _ h => h, rfl, rfl, fun h => h⟩ h.host
  | server connected =>
    cases hstep
    exact h.quiet ⟨fun h => h, fun _ _ h => h, rfl, rfl, fun h => h⟩ h.host
  | deploy i v =>
    rw [next] at hstep
    split at hstep
    · cases hstep
      exact h.setKube i rfl
    · cases hstep
  | host => exact h.hostNext rfl hok hstep
  | kube i => exact h.kubeNext hok hstep
  | «local» => exact h.localNext hstep
  | timeout =>
    rw [next] at hstep
    split at hstep
    · cases hstep
      exact h.hostMove trivial
    · cases hstep
  | leave =>
    rw [next] at hstep
    split at hstep
    · cases hstep
      exact h.hostMove trivial
    · cases hstep
  | exit c =>
    cases hstep
    refine h.quiet (quiet_stop s c) ?_
    rw [host_stop]
    exact h.host

/-- Two containers never run the application at one time, if the hand-shake is kept. -/
theorem exclusive_of_run (version : String) (o : SetOwner) (fallback : Bool) {es : List Event}
    {s : St} (hrun : Run (Step version) Ok (start o fallback) es s) : s.Exclusive := by
  have hinv : Inv s :=
    hrun.invariant (fun _ _ _ h hok hstep => h.step hok hstep) (inv_start o fallback)
  exact hinv.exclusive

/-- The local container runs until one is deployed; then the service is restarted. -/
def handOver : List Event :=
  List.flatten [[.server true], List.replicate 7 .host, List.replicate 3 .local,
    [.deploy 1 "2.0"], List.replicate 5 (.kube 1), [.leave], List.replicate 12 .host,
    List.replicate 2 (.kube 1)]

theorem exclusive_handOver :
    ∃ s, Run (Step "1.0") Ok (start .kube true) handOver s ∧ s.kube 1 = .up "2.0" ∧
      s.Exclusive := by
  obtain ⟨s, hrun, hup⟩ :
      ∃ s, Run (Step "1.0") Ok (start .kube true) handOver s ∧ s.kube 1 = .up "2.0" :=
    exists_run (step_next "1.0") (by decide +kernel)
  exact ⟨s, hrun, hup, exclusive_of_run "1.0" .kube true hrun⟩

/-! ## Two containers at once -/

/-- The host waits for a container, and one is deployed and has been told to go on. -/
def granted : List Event :=
  List.flatten [List.replicate 6 .host, [.leave], List.replicate 10 .host, [.deploy 1 "1.1"],
    List.replicate 5 (.kube 1), List.replicate 2 .host]

/-- It runs and the next one is deployed before the host looks again: the host sees the id of the
    first and the `pending` of the second. -/
def secondGrant : List Event :=
  List.flatten [granted, List.replicate 2 (.kube 1), [.deploy 2 "1.2"], List.replicate 5 (.kube 2),
    List.replicate 2 .host, List.replicate 2 (.kube 2)]

/-- The next one is deployed when the first has read `ready` and not written yet. -/
def sharedGrant : List Event :=
  List.flatten [granted, [.kube 1, .deploy 2 "1.2"], List.replicate 5 (.kube 2),
    [.kube 1, .kube 2]]

/-- A container is there before the first start of the feature. -/
def early : List Event :=
  List.flatten [[.deploy 1 "1.1"], List.replicate 2 (.kube 1), List.replicate 5 .host]

theorem not_exclusive :
    (∃ s, Run (Step "1.0") (fun _ _ => True) (start .kube false) secondGrant s ∧ ¬ s.Exclusive) ∧
    (∃ s, Run (Step "1.0") (fun _ _ => True) (start .kube false) sharedGrant s ∧ ¬ s.Exclusive) ∧
    ∃ s, Run (Step "1.0") (fun _ _ => True) (start .local false) early s ∧ ¬ s.Exclusive := by
  refine ⟨?_, ?_, ?_⟩
  · obtain ⟨s, hrun, hfirst, hsecond⟩ :
        ∃ s, Run (Step "1.0") (fun _ _ => True) (start .kube false) secondGrant s ∧
          s.kube 1 = .up "1.1" ∧ s.kube 2 = .up "1.2" :=
      exists_run (step_next "1.0") (by decide +kernel)
    exact ⟨s, hrun, fun h => absurd (h.same 1 _ 2 _ hfirst hsecond) (by decide)⟩
  · obtain ⟨s, hrun, hfirst, hsecond⟩ :
        ∃ s, Run (Step "1.0") (fun _ _ => True) (start .kube false) sharedGrant s ∧
          s.kube 1 = .up "1.1" ∧ s.kube 2 = .up "1.2" :=
      exists_run (step_next "1.0") (by decide +kernel)
    exact ⟨s, hrun, fun h => absurd (h.same 1 _ 2 _ hfirst hsecond) (by decide)⟩
  · obtain ⟨s, hrun, hup, hloc⟩ :
        ∃ s, Run (Step "1.0") (fun _ _ => True) (start .local false) early s ∧
          s.kube 1 = .up "1.1" ∧ s.loc = .started :=
      exists_run (step_next "1.0") (by decide +kernel)
    refine ⟨s, hrun, fun h => ?_⟩
    have hstopped := h.alone 1 _ hup
    rw [hloc] at hstopped
    cases hstopped

end St

end SonicBuildimage.Ctrmgrd
