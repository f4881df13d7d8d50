/-
  sysmonitor: is the system ready?

  Model.  `update_system_status` scans all monitored services at the start; afterwards every
  event leads to `check_unit_status` of one service.  Both go through `get_unit_status`, which
  returns "OK", "NOT OK" or `None`.  What it reads of a unit is a `UnitView`; the monitored
  services and the views are the `World`, which changes at one service before each event.  A name
  that does not have exactly one dot makes `get_unit_status` fail in its own exception handler.

  Proved: `ready_of_run`.  In every run that starts with well-formed names and in which a
  monitored service that an event is about is loaded and enabled, the set of services that are
  down is exactly the set of monitored services that are "NOT OK", and the published state is UP
  exactly if that set is empty.  A monitored service that is disabled is no obstacle for the scan,
  but takes the system down with its next event (`ready_disabled`).

  Not modelled: how the list of monitored services is formed (`get_all_service_list`), the console
  and the logs, and the queue of events.
-/
import SonicBuildimage.Lib.PyDict
import SonicBuildimage.Lib.PyStr
import SonicBuildimage.Lib.Run

namespace SonicBuildimage.SystemHealth

open SonicBuildimage.Lib

/-! ## Units -/

/-- The fields of `FEATURE` in STATE_DB that are read. -/
structure FeatureState where
  upStatus : Option String
  failReason : Option String
  updateTime : Option String

/-- What is read of a unit: the properties that systemctl shows, `check_up_status` of its row of
    `FEATURE` in CONFIG_DB, if there is such a row, and its row in STATE_DB. -/
structure UnitView where
  props : Dict String String
  checkUpStatus : Option (Option String)
  state : FeatureState

inductive UnitStatus where
  | ok
  | notOk
  deriving DecidableEq

/-- A row of `ALL_SERVICE_STATUS`. -/
structure StatusRow where
  serviceStatus : String
  appReadyStatus : String
  failReason : String
  updateTime : String

def lower (s : String) : String := String.ofList (s.toList.map Char.toLower)

/-- `get_app_ready_status`: whether the application is up, the reason if it is not, and the time -/
def getAppReadyStatus (v : UnitView) : Bool × String × String :=
  match v.checkUpStatus with
  | none => (true, "", "-")
  | some check =>
    if check.any fun s => lower s = "true" then
      let time := v.state.updateTime.getD "-"
      if v.state.upStatus.any fun s => lower s = "true" then (true, "", time)
      else (false, v.state.failReason.getD "NA", time)
    else (true, "", "-")

/-- `spl_srv_list` -/
def splSrvList : List String := ["database-chassis", "gbsyncd"]

/-- `UnitFileState` of a unit that is taken into account. -/
def enabledStates : List String := ["enabled", "enabled-runtime", "static"]

/-- The status of an enabled unit, and the row that is posted. -/
def classify (v : UnitView) (name failReason activeState subState srvType : String) :
    UnitStatus × StatusRow :=
  let failReason := if failReason = "success" then "-" else failReason
  if activeState = "active" ∧ subState = "exited" then (.ok, ⟨"OK", "OK", failReason, "-"⟩)
  else if activeState = "active" ∧ subState = "running" then
    let (up, appFailReason, updateTime) := getAppReadyStatus v
    if up then (.ok, ⟨"OK", "OK", failReason, updateTime⟩)
    else if appFailReason = "docker start" then (.notOk, ⟨"OK", "Starting", "-", updateTime⟩)
    else (.notOk, ⟨"OK", "Down", appFailReason, updateTime⟩)
  else if activeState = "activating" then (.notOk, ⟨"Starting", "Starting", failReason, "-"⟩)
  else if activeState = "deactivating" then (.notOk, ⟨"Stopping", "Stopping", failReason, "-"⟩)
  else if activeState = "inactive" then
    if srvType = "oneshot" ∨ srvType = "idle" ∨ name ∈ splSrvList then
      (.ok, ⟨"OK", "OK", failReason, "-"⟩)
    else (.notOk, ⟨"Down", "Down", if failReason = "-" then "Inactive" else failReason, "-"⟩)
  else (.notOk, ⟨"Down", "Down", failReason, "-"⟩)

/-- What `get_unit_status` returns and posts for a unit with this name; `none` if it returns
    `None`, be it after an exception. -/
def report (v : UnitView) (name : String) : Option (UnitStatus × StatusRow) :=
  if Dict.get? v.props "LoadState" = some "loaded" then
    (Dict.get? v.props "UnitFileState").bind fun status =>
    (Dict.get? v.props "Result").bind fun failReason =>
    (Dict.get? v.props "ActiveState").bind fun activeState =>
    (Dict.get? v.props "SubState").bind fun subState =>
    (Dict.get? v.props "Type").bind fun srvType =>
      if status ∈ enabledStates then some (classify v name failReason activeState subState srvType)
      else none
  else none

/-! ## The world -/

structure World where
  monitored : List String
  units : Dict String UnitView

namespace World

variable (w : World)

def view (event : String) : UnitView := Dict.getD w.units event ⟨[], none, none, none, none⟩

/-- `get_unit_status`, with the name of the service; `none` is an exception -/
def getUnitStatus (event : String) : Option (String × Option (UnitStatus × StatusRow)) :=
  match split '.' event with
  | [name, _] => some (name, report (w.view event) name)
  | _ => none

/-- `get_unit_status` would return "NOT OK". -/
def NotOk (event : String) : Prop :=
  ((w.getUnitStatus event).bind fun r => r.2.map Prod.fst) = some .notOk

end World

/-- A change of one service: whether it is monitored, and what can be read of its unit. -/
structure Change where
  service : String
  monitored : Bool
  view : UnitView

def World.apply (w : World) (c : Change) : World where
  monitored :=
    if c.monitored then setAdd w.monitored c.service else setDiscard w.monitored c.service
  units := Dict.set w.units c.service c.view

/-! ## The monitor -/

inductive SystemState where
  | up
  | down
  deriving DecidableEq

/-- The set of services that are down, the global state, what is published of it, and the table
    of the statuses. -/
structure Sysmonitor where
  dnsrvsName : List String
  systemAllsrvState : SystemState
  published : Option SystemState
  allServiceStatus : Dict String StatusRow

namespace Sysmonitor

variable (w : World) (m : Sysmonitor)

def init : Sysmonitor := ⟨[], .down, none, []⟩

/-- `post_unit_status`, if there is something to post -/
def post (name : String) (r : Option (UnitStatus × StatusRow)) : Sysmonitor :=
  match r with
  | some (_, row) => { m with allServiceStatus := Dict.set m.allServiceStatus name row }
  | none => m

def publishSystemStatus (astate : SystemState) : Sysmonitor :=
  if m.systemAllsrvState ≠ astate then
    { m with systemAllsrvState := astate, published := some astate }
  else m

/-- The state that the set of services that are down stands for. -/
def overall : SystemState := if m.dnsrvsName = [] then .up else .down

/-- The loop of `get_all_system_status`, and whether it has come to its end -/
def scan : List String → Sysmonitor → Sysmonitor × Bool
  | [], m => (m, true)
  | service :: rest, m =>
    match w.getUnitStatus service with
    | none => (m, false)
    | some (name, r) =>
      let m := m.post name r
      scan rest (if r.map Prod.fst = some .notOk then
        { m with dnsrvsName := setAdd m.dnsrvsName service } else m)

def updateSystemStatus : Sysmonitor :=
  match scan w w.monitored m with
  | (m, true) => m.publishSystemStatus m.overall
  | (m, false) => m

/-- What `check_unit_status` makes of the status of a monitored service -/
def settle (event : String) (status : Option UnitStatus) : Sysmonitor :=
  if status = some .ok ∧ m.systemAllsrvState = .up then m.publishSystemStatus .up
  else if status = some .ok ∧ m.systemAllsrvState = .down then
    if event ∈ m.dnsrvsName then
      let m := { m with dnsrvsName := setDiscard m.dnsrvsName event }
      m.publishSystemStatus m.overall
    else m.publishSystemStatus .down
  else
    let m := { m with dnsrvsName := setAdd m.dnsrvsName event }
    m.publishSystemStatus .down

def checkUnitStatus (event : String) : Sysmonitor :=
  if event ∈ w.monitored then
    match w.getUnitStatus event with
    | none => m
    | some (name, r) => (m.post name r).settle event (r.map Prod.fst)
  else
    let m := { m with dnsrvsName := setDiscard m.dnsrvsName event }
    let m := m.publishSystemStatus m.overall
    match split '.' event with
    | [name, "service"] => { m with allServiceStatus := Dict.erase m.allServiceStatus name }
    | _ => m

end Sysmonitor

/-! ## Runs -/

structure Health where
  world : World
  monitor : Sysmonitor

namespace Health

variable (h : Health)

def started (w : World) : Health := ⟨w, Sysmonitor.init.updateSystemStatus w⟩

/-- A change, and the event for it. -/
def next (c : Change) : Health :=
  ⟨h.world.apply c, h.monitor.checkUnitStatus (h.world.apply c) c.service⟩

/-- The services that are down are known exactly, and so is the state of the system. -/
def Ready : Prop :=
  (∀ x, x ∈ h.monitor.dnsrvsName ↔ x ∈ h.world.monitored ∧ h.world.NotOk x) ∧
    (h.monitor.published = some .up ↔ h.monitor.dnsrvsName = [])

end Health

/-- The name of a unit has one dot. -/
def WellNamed (event : String) : Prop := (split '.' event).length = 2

instance (event : String) : Decidable (WellNamed event) := inferInstanceAs (Decidable (_ = _))

/-- A unit that is loaded and enabled. -/
structure Reported (event : String) (v : UnitView) : Prop where
  named : WellNamed event
  loaded : Dict.get? v.props "LoadState" = some "loaded"
  enabled : ∃ status ∈ Dict.get? v.props "UnitFileState", status ∈ enabledStates
  shown : ∀ prop ∈ ["Result", "ActiveState", "SubState", "Type"], Dict.get? v.props prop ≠ none

instance (event : String) (v : UnitView) : Decidable (Reported event v) :=
  decidable_of_iff (WellNamed event ∧ Dict.get? v.props "LoadState" = some "loaded" ∧
      (∃ status ∈ Dict.get? v.props "UnitFileState", status ∈ enabledStates) ∧
        ∀ prop ∈ ["Result", "ActiveState", "SubState", "Type"], Dict.get? v.props prop ≠ none)
    ⟨fun ⟨h₁, h₂, h₃, h₄⟩ => ⟨h₁, h₂, h₃, h₄⟩, fun ⟨h₁, h₂, h₃, h₄⟩ => ⟨h₁, h₂, h₃, h₄⟩⟩

def Health.Ok (_ : Health) (c : Change) : Prop := c.monitored = true → Reported c.service c.view

instance (h : Health) (c : Change) : Decidable (h.Ok c) := inferInstanceAs (Decidable (_ → _))

def Health.Step (h : Health) (c : Change) (h' : Health) : Prop := h' = h.next c

/-! ## Changes -/

section World

variable {w : World} {c : Change} {x : String}

theorem mem_apply_self : c.service ∈ (w.apply c).monitored ↔ c.monitored = true := by
  unfold World.apply
  cases c.monitored with
  | true => simp [mem_setAdd]
  | false => simp [mem_setDiscard]

theorem mem_apply_ne (h : x ≠ c.service) : x ∈ (w.apply c).monitored ↔ x ∈ w.monitored := by
  unfold World.apply
  cases c.monitored with
  | true => simp [mem_setAdd, h]
  | false => simp [mem_setDiscard, h]

theorem notOk_apply_ne (h : x ≠ c.service) : (w.apply c).NotOk x ↔ w.NotOk x := by
  have hview : (w.apply c).view x = w.view x := Dict.getD_set_ne _ _ _ h.symm
  unfold World.NotOk World.getUnitStatus
  rw [hview]

theorem view_apply_self : (w.apply c).view c.service = c.view := by
  unfold World.view World.apply
  rw [Dict.getD_set, if_pos rfl]

theorem getUnitStatus_of_wellNamed (h : WellNamed x) :
    ∃ name, w.getUnitStatus x = some (name, report (w.view x) name) := by
  unfold WellNamed at h
  obtain ⟨name, last, hsplit⟩ := List.length_eq_two.1 h
  refine ⟨name, ?_⟩
  unfold World.getUnitStatus
  rw [hsplit]

/-- A unit that is loaded and enabled has a status. -/
theorem report_of_reported {v : UnitView} (h : Reported x v) (name : String) :
    ∃ r, report v name = some r := by
  obtain ⟨-, hloaded, ⟨status, hstatus, henabled⟩, hshown⟩ := h
  obtain ⟨failReason, hr⟩ := Option.ne_none_iff_exists'.1 (hshown "Result" (by simp))
  obtain ⟨activeState, ha⟩ := Option.ne_none_iff_exists'.1 (hshown "ActiveState" (by simp))
  obtain ⟨subState, hsub⟩ := Option.ne_none_iff_exists'.1 (hshown "SubState" (by simp))
  obtain ⟨srvType, ht⟩ := Option.ne_none_iff_exists'.1 (hshown "Type" (by simp))
  refine ⟨classify v name failReason activeState subState srvType, ?_⟩
  unfold report
  rw [if_pos hloaded, Option.mem_def.1 hstatus, hr, ha, hsub, ht]
  exact if_pos henabled

end World

/-! ## The invariant -/

namespace Sysmonitor

variable {m : Sysmonitor} {w : World}

/-- The global state is the one that is published, and says whether a service is down. -/
structure Consistent (m : Sysmonitor) : Prop where
  published : m.published = some .up ↔ m.systemAllsrvState = .up
  state : m.systemAllsrvState = .up ↔ m.dnsrvsName = []

theorem dnsrvsName_publish (a : SystemState) :
    (m.publishSystemStatus a).dnsrvsName = m.dnsrvsName := by
  unfold publishSystemStatus
  split
  · rfl
  · rfl

theorem consistent_publish {a : SystemState}
    (hpub : m.published = some .up ↔ m.systemAllsrvState = .up)
    (ha : a = .up ↔ m.dnsrvsName = []) : (m.publishSystemStatus a).Consistent := by
  unfold publishSystemStatus
  split
  · refine ⟨?_, ha⟩
    simp
  · next hsame =>
    rw [ne_eq, not_not] at hsame
    exact ⟨hpub, by rw [hsame]; exact ha⟩

theorem overall_eq_up : m.overall = .up ↔ m.dnsrvsName = [] := by
  unfold overall
  split
  · next h =>
    simp [h]
  · next h =>
    simp [h]

/-- What an event does about the service it is for. -/
structure Settles (m m' : Sysmonitor) (event : String) (down : Prop) : Prop where
  consistent : m'.Consistent
  self : event ∈ m'.dnsrvsName ↔ down
  others : ∀ x ≠ event, x ∈ m'.dnsrvsName ↔ x ∈ m.dnsrvsName

theorem settle_spec (hm : m.Consistent) (event : String) (status : UnitStatus) :
    m.Settles (m.settle event (some status)) event (status = .notOk) := by
  unfold settle
  cases status with
  | ok =>
    cases hstate : m.systemAllsrvState with
    | up =>
      have hnil := hm.state.1 hstate
      rw [if_pos ⟨rfl, rfl⟩]
      refine ⟨consistent_publish hm.published (by simp [hnil]), ?_, fun x _ => ?_⟩
      · simp [dnsrvsName_publish, hnil]
      · rw [dnsrvsName_publish]
    | down =>
      have hpub := hm.published
      rw [hstate] at hpub
      rw [if_neg (by simp), if_pos ⟨rfl, rfl⟩]
      split
      · refine ⟨consistent_publish hpub overall_eq_up, ?_, fun x hx => ?_⟩
        · simp [dnsrvsName_publish, mem_setDiscard]
        · rw [dnsrvsName_publish, mem_setDiscard]
          exact and_iff_left hx
      · next hnot =>
        have hne : m.dnsrvsName ≠ [] := by
          intro hnil
          rw [hm.state.2 hnil] at hstate
          cases hstate
        refine ⟨consistent_publish hm.published (by simp [hne]), ?_, fun x _ => ?_⟩
        · simp [dnsrvsName_publish, hnot]
        · rw [dnsrvsName_publish]
  | notOk =>
    rw [if_neg (by simp), if_neg (by simp)]
    refine ⟨consistent_publish hm.published ?_, ?_, fun x hx => ?_⟩
    · simp [setAdd_ne_nil]
    · simp [dnsrvsName_publish, mem_setAdd]
    · rw [dnsrvsName_publish, mem_setAdd]
      exact or_iff_left hx

theorem consistent_post (hm : m.Consistent) (name : String)
    (r : Option (UnitStatus × StatusRow)) :
    (m.post name r).Consistent ∧ (m.post name r).dnsrvsName = m.dnsrvsName := by
  cases r with
  | none => exact ⟨hm, rfl⟩
  | some r => exact ⟨⟨hm.published, hm.state⟩, rfl⟩

theorem checkUnitStatus_spec (hm : m.Consistent) {event : String}
    (hok : event ∈ w.monitored → Reported event (w.view event)) :
    m.Settles (m.checkUnitStatus w event) event (event ∈ w.monitored ∧ w.NotOk event) := by
  unfold checkUnitStatus
  by_cases hmon : event ∈ w.monitored
  · rw [if_pos hmon]
    obtain ⟨name, hstatus⟩ := getUnitStatus_of_wellNamed (w := w) (hok hmon).named
    obtain ⟨⟨status, row⟩, hreport⟩ := report_of_reported (hok hmon) name
    have hnotOk : w.NotOk event ↔ status = .notOk := by
      unfold World.NotOk
      rw [hstatus, hreport]
      simp
    rw [hstatus, hreport]
    obtain ⟨hpost, hnames⟩ := consistent_post hm name (some (status, row))
    obtain ⟨hcons, hself, hothers⟩ := settle_spec hpost event status
    refine ⟨hcons, ?_, fun x hx => ?_⟩
    · rw [hnotOk, and_iff_right hmon]
      exact hself
    · rw [← hnames]
      exact hothers x hx
  · rw [if_neg hmon]
    have hdiscard : m.Settles
        (({ m with dnsrvsName := setDiscard m.dnsrvsName event } : Sysmonitor).publishSystemStatus
          ({ m with dnsrvsName := setDiscard m.dnsrvsName event } : Sysmonitor).overall)
        event (event ∈ w.monitored ∧ w.NotOk event) := by
      refine ⟨consistent_publish hm.published overall_eq_up, ?_, fun x hx => ?_⟩
      · simp [dnsrvsName_publish, mem_setDiscard, hmon]
      · rw [dnsrvsName_publish, mem_setDiscard]
        exact and_iff_left hx
    dsimp only
    split
    · exact ⟨⟨hdiscard.consistent.published, hdiscard.consistent.state⟩, hdiscard.self,
        hdiscard.others⟩
    · exact hdiscard

/-- The scan comes to its end if the names are well formed, and finds every service that is
    "NOT OK". -/
theorem scan_spec {services : List String} (hnamed : ∀ x ∈ services, WellNamed x)
    (m : Sysmonitor) :
    ∃ m', scan w services m = (m', true) ∧ m'.systemAllsrvState = m.systemAllsrvState ∧
      m'.published = m.published ∧
        ∀ x, x ∈ m'.dnsrvsName ↔ x ∈ m.dnsrvsName ∨ x ∈ services ∧ w.NotOk x := by
  induction services generalizing m with
  | nil => exact ⟨m, rfl, rfl, rfl, fun x => by simp⟩
  | cons service services ih =>
    obtain ⟨name, hstatus⟩ :=
      getUnitStatus_of_wellNamed (w := w) (hnamed service List.mem_cons_self)
    have hnotOk : w.NotOk service ↔
        (report (w.view service) name).map Prod.fst = some UnitStatus.notOk := by
      unfold World.NotOk
      rw [hstatus]
      rfl
    rw [scan, hstatus]
    dsimp only
    have hpost : ∀ r, (m.post name r).systemAllsrvState = m.systemAllsrvState ∧
        (m.post name r).published = m.published ∧ (m.post name r).dnsrvsName = m.dnsrvsName := by
      intro r
      cases r with
      | none => exact ⟨rfl, rfl, rfl⟩
      | some r => exact ⟨rfl, rfl, rfl⟩
    obtain ⟨hstate, hpublished, hnames⟩ := hpost (report (w.view service) name)
    split
    · next hstatus =>
      have hdown := hnotOk.2 hstatus
      obtain ⟨m', hscan, hs, hp, hmem⟩ := ih (fun x hx => hnamed x (List.mem_cons_of_mem _ hx))
        { m.post name (report (w.view service) name) with
          dnsrvsName := setAdd (m.post name (report (w.view service) name)).dnsrvsName service }
      refine ⟨m', hscan, hs.trans hstate, hp.trans hpublished, fun x => ?_⟩
      rw [hmem, mem_setAdd, hnames, List.mem_cons]
      by_cases hx : x = service
      · simp [hx, hdown]
      · simp [hx]
    · next hstatus =>
      have hup : ¬w.NotOk service := fun h => hstatus (hnotOk.1 h)
      obtain ⟨m', hscan, hs, hp, hmem⟩ := ih (fun x hx => hnamed x (List.mem_cons_of_mem _ hx))
        (m.post name (report (w.view service) name))
      refine ⟨m', hscan, hs.trans hstate, hp.trans hpublished, fun x => ?_⟩
      rw [hmem, hnames, List.mem_cons]
      by_cases hx : x = service
      · simp [hx, hup]
      · simp [hx]

end Sysmonitor

namespace Health

/-- The invariant of the runs. -/
structure Good (h : Health) : Prop where
  consistent : h.monitor.Consistent
  down : ∀ x, x ∈ h.monitor.dnsrvsName ↔ x ∈ h.world.monitored ∧ h.world.NotOk x

theorem good_started {w : World} (hw : ∀ x ∈ w.monitored, WellNamed x) : Good (started w) := by
  obtain ⟨m, hscan, hstate, hpublished, hmem⟩ :=
    Sysmonitor.scan_spec (w := w) hw Sysmonitor.init
  have hstart : (started w).monitor = m.publishSystemStatus m.overall := by
    unfold started Sysmonitor.updateSystemStatus
    rw [hscan]
  refine ⟨?_, fun x => ?_⟩
  · rw [hstart]
    refine Sysmonitor.consistent_publish ?_ Sysmonitor.overall_eq_up
    rw [hstate, hpublished]
    simp [Sysmonitor.init]
  · rw [hstart, Sysmonitor.dnsrvsName_publish, hmem]
    exact or_iff_right List.not_mem_nil

theorem good_next {h : Health} (hg : Good h) {c : Change} (hok : h.Ok c) : Good (h.next c) := by
  have hspec : h.monitor.Settles (h.next c).monitor c.service
      (c.service ∈ (h.world.apply c).monitored ∧ (h.world.apply c).NotOk c.service) := by
    refine Sysmonitor.checkUnitStatus_spec hg.consistent fun hmon => ?_
    rw [view_apply_self]
    exact hok (mem_apply_self.1 hmon)
  refine ⟨hspec.consistent, fun x => ?_⟩
  by_cases hx : x = c.service
  · subst hx
    exact hspec.self
  · refine (hspec.others x hx).trans ?_
    rw [hg.down]
    exact and_congr (mem_apply_ne hx).symm (notOk_apply_ne hx).symm

theorem ready_of_good {h : Health} (hg : Good h) : h.Ready :=
  ⟨hg.down, hg.consistent.published.trans hg.consistent.state⟩

/-- In every run whose changes meet the condition, readiness is exact after every event. -/
theorem ready_of_run {w : World} (hw : ∀ x ∈ w.monitored, WellNamed x) {cs : List Change}
    {h : Health} (hrun : Run Step Ok (started w) cs h) : h.Ready :=
  ready_of_good (hrun.invariant (P := Good)
    (fun _ _ _ hg hok hstep => by rw [hstep]; exact good_next hg hok) (good_started hw))

theorem step_next (h : Health) (c : Change) (h' : Health) (hn : some (h.next c) = some h') :
    Step h c h' := (Option.some.inj hn).symm

/-- A service in these states. -/
def serviceView (unitFileState activeState subState : String) : UnitView :=
  ⟨[("LoadState", "loaded"), ("UnitFileState", unitFileState), ("Result", "success"),
    ("ActiveState", activeState), ("SubState", subState), ("Type", "simple")],
    none, none, none, none⟩

/-- One service, which is up. -/
def lldpUp : World :=
  ⟨["lldp.service"], [("lldp.service", serviceView "enabled" "active" "running")]⟩

/-- The service stops. -/
def lldpStops : Change := ⟨"lldp.service", true, serviceView "enabled" "inactive" "dead"⟩

/-- The service is taken from the list. -/
def lldpRemoved : Change := ⟨"lldp.service", false, serviceView "disabled" "inactive" "dead"⟩

theorem ready_removed :
    ∃ h, Run Step Ok (started lldpUp) [lldpStops, lldpRemoved] h ∧
      h.monitor.published = some .up ∧ h.Ready := by
  obtain ⟨h, hrun, hup⟩ : ∃ h, Run Step Ok (started lldpUp) [lldpStops, lldpRemoved] h ∧
      h.monitor.published = some .up :=
    exists_run step_next (by decide +kernel)
  have hw : ∀ x ∈ lldpUp.monitored, WellNamed x := by decide +kernel
  exact ⟨h, hrun, hup, ready_of_run hw hrun⟩

/-- The service is stopped and disabled, and still in the list. -/
def lldpDisabled : Change := ⟨"lldp.service", true, serviceView "disabled" "inactive" "dead"⟩

/-- With its event the service counts as down, although its status is not "NOT OK"; a scan of the
    same services finds the system ready. -/
theorem ready_disabled :
    ∃ h, Run Step (fun _ _ => True) (started lldpUp) [lldpDisabled] h ∧ ¬h.Ready ∧
      (started h.world).monitor.published = some .up ∧ h.monitor.published = some .down := by
  obtain ⟨h, hrun, hmem, hnot, hup, hdown⟩ : ∃ h,
      Run Step (fun _ _ => True) (started lldpUp) [lldpDisabled] h ∧
        "lldp.service" ∈ h.monitor.dnsrvsName ∧
        ((h.world.getUnitStatus "lldp.service").bind fun r => r.2.map Prod.fst) ≠ some .notOk ∧
        (started h.world).monitor.published = some .up ∧ h.monitor.published = some .down :=
    exists_run step_next (by decide +kernel)
  exact ⟨h, hrun, fun hr => hnot ((hr.1 "lldp.service").1 hmem).2, hup, hdown⟩

end Health

end SonicBuildimage.SystemHealth
