/-
  The expiry of static routes: `StaticRouteTimer.alarm` of bgpcfgd/static_rt_timer.py, beside
  writers of the same table.

  Model.  The rows of `STATIC_ROUTE` in APPL_DB.  Each database operation of the alarm is one step,
  and between any two of them writers may create, refresh, mark or delete routes.  Beside the code's
  state, the state says which routes have been refreshed since the timer last read their `refresh`,
  and which ones their writer has deleted.

  Proved: `safe_of_run`.  If no writer touches a route from the moment the alarm has read its expiry
  until the alarm has handled it, the alarm deletes no route whose expiry is false or that has been
  refreshed, and no row is left of a route that its writer has deleted.  The decision and the write
  are separate operations, so a write in between is lost (`write_between`).

  Not modelled: how long the timer sleeps between alarms.
-/
import SonicBuildimage.Lib.PyDict
import SonicBuildimage.Lib.Run

namespace SonicBuildimage.Bgpcfgd.StaticRtTimer

open SonicBuildimage.Lib

abbrev Db := Dict String (Dict String String)

/-- `db.get` -/
def field (db : Db) (sr name : String) : Option String :=
  (Dict.get? db sr).bind fun row => Dict.get? row name

/-- The write of some fields of a row, which is created if it is not there. -/
def writeFields (db : Db) (sr : String) (fields : Dict String String) : Db :=
  Dict.set db sr (Dict.setAll (Dict.getD db sr []) fields)

/-- What the writers do. -/
inductive WriterOp
  | create (sr : String) (fields : Dict String String)
  | refresh (sr : String)
  | noExpiry (sr : String)
  | delete (sr : String)

namespace WriterOp

def route : WriterOp → String
  | create sr _ | refresh sr | noExpiry sr | delete sr => sr

def write (db : Db) : WriterOp → Db
  | create sr fields => writeFields db sr fields
  | refresh sr => writeFields db sr [("refresh", "true")]
  | noExpiry sr => writeFields db sr [("expiry", "false")]
  | delete sr => Dict.erase db sr

end WriterOp

/-- Where `alarm` stands. -/
inductive Pc
  | idle
  /-- at the head of the loop, with the routes to come -/
  | scan (rest : List String)
  /-- `expiry` of `sr` was not `false` -/
  | gotExpiry (sr : String) (rest : List String)
  | gotRefresh (sr : String) (refresh : Option String) (rest : List String)
  deriving DecidableEq

/-- The route that `alarm` has begun to handle. -/
def Pc.window : Pc → Option String
  | gotExpiry sr _ | gotRefresh sr _ _ => some sr
  | _ => none

structure State where
  db : Db
  pc : Pc := .idle
  refreshed : String → Bool := fun _ => false
  deleted : String → Bool := fun _ => false

inductive Action
  /-- `keys` has returned `static_routes` -/
  | alarm (staticRoutes : List String)
  | timer
  | writer (op : WriterOp)

/-- The next operation of `alarm`. -/
def timer (s : State) : State :=
  match s.pc with
  | .idle => s
  | .scan [] => { s with pc := .idle }
  | .scan (sr :: rest) =>
    { s with
      pc := if field s.db sr "expiry" = some "false" then .scan rest else .gotExpiry sr rest }
  | .gotExpiry sr rest =>
    { s with
      pc := .gotRefresh sr (field s.db sr "refresh") rest
      refreshed := Function.update s.refreshed sr
        (s.refreshed sr && field s.db sr "refresh" ≠ some "true") }
  | .gotRefresh sr refresh rest =>
    { s with
      db := if refresh = some "true" then writeFields s.db sr [("refresh", "false")]
        else Dict.erase s.db sr
      pc := .scan rest }

def writer (s : State) (op : WriterOp) : State :=
  { s with
    db := op.write s.db
    refreshed := Function.update s.refreshed op.route
      (match op with
      | .create sr fields =>
        if "refresh" ∈ Dict.keys fields then
          field (writeFields s.db sr fields) sr "refresh" = some "true"
        else s.refreshed sr
      | .refresh _ => true
      | .noExpiry sr => s.refreshed sr
      | .delete _ => false)
    deleted := Function.update s.deleted op.route
      (match op with
      | .delete _ => true
      | _ => false) }

def Step (s : State) : Action → State → Prop
  | .alarm staticRoutes, s' =>
    s.pc = .idle ∧ staticRoutes.Perm (Dict.keys s.db) ∧ s' = { s with pc := .scan staticRoutes }
  | .timer, s' => s' = timer s
  | .writer op, s' => s' = writer s op

/-- No writer touches the route that `alarm` has begun to handle. -/
def Undisturbed (s : State) : Action → Prop
  | .writer op => s.pc.window ≠ some op.route
  | _ => True

/-- The next operation of `alarm` deletes `sr`. -/
def Deletes (s : State) (sr : String) : Prop :=
  ∃ refresh rest, s.pc = .gotRefresh sr refresh rest ∧ refresh ≠ some "true"

/-! ### Rows and fields -/

theorem field_of_get? {db db' : Db} {sr : String} (h : Dict.get? db' sr = Dict.get? db sr)
    (name : String) : field db' sr name = field db sr name := by
  unfold field
  rw [h]

theorem field_writeFields_of_not_mem (db : Db) (sr : String) {fields : Dict String String}
    {name : String} (h : name ∉ Dict.keys fields) :
    field (writeFields db sr fields) sr name = field db sr name := by
  unfold field writeFields
  rw [Dict.get?_set_self, Option.bind_some, Dict.get?_setAll_of_not_mem _ h, Dict.getD]
  cases Dict.get? db sr with
  | none => rfl
  | some row => rfl

theorem field_writeFields_one (db : Db) (sr name value : String) :
    field (writeFields db sr [(name, value)]) sr name = some value := by
  unfold field writeFields
  rw [Dict.get?_set_self, Option.bind_some]
  exact Dict.get?_set_self _ _ _

/-- A writer's operation leaves the other rows alone. -/
theorem get?_write_ne (db : Db) (op : WriterOp) {sr : String} (h : sr ≠ op.route) :
    Dict.get? (op.write db) sr = Dict.get? db sr := by
  cases op with
  | delete sr' => exact Dict.get?_erase_ne _ h.symm
  | create sr' fields => exact Dict.get?_set_ne _ _ h.symm
  | refresh sr' => exact Dict.get?_set_ne _ _ h.symm
  | noExpiry sr' => exact Dict.get?_set_ne _ _ h.symm

/-! ### The invariant -/

structure Safe (s : State) : Prop where
  refreshed : ∀ sr, s.refreshed sr = true → field s.db sr "refresh" = some "true"
  deleted : ∀ sr, s.deleted sr = true → Dict.get? s.db sr = none
  expiry : ∀ sr, s.pc.window = some sr → field s.db sr "expiry" ≠ some "false"
  read : ∀ sr refresh rest, s.pc = .gotRefresh sr refresh rest →
    refresh = field s.db sr "refresh" ∧ s.refreshed sr = false

/-- A step of the loop that touches neither the rows nor what is known of them. -/
theorem Safe.goto {s : State} (h : Safe s) {pc : Pc}
    (hw : ∀ sr, pc.window = some sr → field s.db sr "expiry" ≠ some "false")
    (hr : ∀ sr refresh rest, pc ≠ .gotRefresh sr refresh rest) : Safe { s with pc := pc } :=
  ⟨h.refreshed, h.deleted, hw, fun sr refresh rest hpc => absurd hpc (hr sr refresh rest)⟩

theorem Safe.readRefresh {s : State} (h : Safe s) {sr : String} {rest : List String}
    (hpc : s.pc = .gotExpiry sr rest) : Safe (timer s) := by
  have hself : (s.refreshed sr && decide (field s.db sr "refresh" ≠ some "true")) = false := by
    cases hf : s.refreshed sr with
    | false => rfl
    | true => simp [h.refreshed sr hf]
  simp only [timer, hpc, hself]
  refine ⟨fun sr' hf => ?_, h.deleted, fun sr' hw => ?_, fun sr' refresh rest' heq => ?_⟩
  · dsimp only at hf
    by_cases heq : sr' = sr
    · subst heq
      simp at hf
    · rw [Function.update_of_ne heq] at hf
      exact h.refreshed sr' hf
  · obtain rfl := Option.some.inj hw
    exact h.expiry sr (by rw [hpc]; rfl)
  · cases heq
    exact ⟨rfl, Function.update_self _ _ _⟩

/-- The alarm's write or delete: the row is as it was read, so that it is there if it is written,
    and it has not been refreshed. -/
theorem Safe.handle {s : State} (h : Safe s) {sr : String} {refresh : Option String}
    {rest : List String} (hpc : s.pc = .gotRefresh sr refresh rest) : Safe (timer s) := by
  obtain ⟨hread, hnot⟩ := h.read sr refresh rest hpc
  have hother : ∀ sr' ≠ sr, Dict.get? (timer s).db sr' = Dict.get? s.db sr' := by
    intro sr' hne
    simp only [timer, hpc]
    split
    · exact Dict.get?_set_ne _ _ hne.symm
    · exact Dict.get?_erase_ne _ hne.symm
  have hpc' : (timer s).pc = .scan rest := by simp only [timer, hpc]
  have hghost : (timer s).refreshed = s.refreshed ∧ (timer s).deleted = s.deleted := by
    simp only [timer, hpc, and_self]
  refine ⟨fun sr' hf => ?_, fun sr' hd => ?_, fun sr' hw => ?_, fun sr' refresh' rest' heq => ?_⟩
  · rw [hghost.1] at hf
    have hne : sr' ≠ sr := by
      rintro rfl
      rw [hnot] at hf
      exact Bool.false_ne_true hf
    rw [field_of_get? (hother sr' hne)]
    exact h.refreshed sr' hf
  · rw [hghost.2] at hd
    have hnone := h.deleted sr' hd
    by_cases heq : sr' = sr
    · subst heq
      -- the row is not there, so nothing was read and the alarm deletes
      have hne : refresh ≠ some "true" := by
        rw [hread, field, hnone]
        simp
      simp only [timer, hpc, if_neg hne]
      exact Dict.get?_erase_self _ _
    · rw [hother sr' heq, hnone]
  · rw [hpc'] at hw
    simp [Pc.window] at hw
  · rw [hpc'] at heq
    simp at heq

theorem Safe.timer {s : State} (h : Safe s) : Safe (timer s) := by
  obtain ⟨db, pc, refreshed, deleted⟩ := s
  cases pc with
  | idle => exact h
  | gotExpiry sr rest => exact h.readRefresh rfl
  | gotRefresh sr refresh rest => exact h.handle rfl
  | scan rest =>
    cases rest with
    | nil => exact h.goto (fun sr hw => by simp [Pc.window] at hw) fun sr r rest => by simp
    | cons sr rest =>
      simp only [StaticRtTimer.timer]
      split
      · exact h.goto (fun sr hw => by simp [Pc.window] at hw) fun sr r rest => by simp
      · next hexp =>
        refine h.goto (fun sr' hw => ?_) fun sr r rest => by simp
        obtain rfl := Option.some.inj hw
        exact hexp

theorem Safe.writer {s : State} (h : Safe s) {op : WriterOp} (hok : s.pc.window ≠ some op.route) :
    Safe (writer s op) := by
  have hother : ∀ sr ≠ op.route, Dict.get? (op.write s.db) sr = Dict.get? s.db sr :=
    fun sr hne => get?_write_ne s.db op hne
  refine ⟨fun sr hf => ?_, fun sr hd => ?_, fun sr hw => ?_, fun sr refresh rest heq => ?_⟩
  · by_cases hsr : sr = op.route
    · subst hsr
      simp only [StaticRtTimer.writer, Function.update_self] at hf ⊢
      cases op with
      | create sr fields =>
        dsimp only at hf
        split at hf
        · exact of_decide_eq_true hf
        · next hmem =>
          exact (field_writeFields_of_not_mem _ _ hmem).trans (h.refreshed sr hf)
      | refresh sr => exact field_writeFields_one _ _ _ _
      | noExpiry sr =>
        exact (field_writeFields_of_not_mem _ _ (by decide)).trans (h.refreshed sr hf)
      | delete sr => simp at hf
    · simp only [StaticRtTimer.writer, Function.update_of_ne hsr] at hf ⊢
      rw [field_of_get? (hother sr hsr)]
      exact h.refreshed sr hf
  · by_cases hsr : sr = op.route
    · subst hsr
      simp only [StaticRtTimer.writer, Function.update_self] at hd ⊢
      cases op with
      | delete sr => exact Dict.get?_erase_self _ _
      | create sr fields => simp at hd
      | refresh sr => simp at hd
      | noExpiry sr => simp at hd
    · simp only [StaticRtTimer.writer, Function.update_of_ne hsr] at hd ⊢
      rw [hother sr hsr]
      exact h.deleted sr hd
  · have hne : sr ≠ op.route := fun he => hok (he ▸ hw)
    rw [show field (StaticRtTimer.writer s op).db sr "expiry" = field s.db sr "expiry" from
      field_of_get? (hother sr hne) _]
    exact h.expiry sr hw
  · have hne : sr ≠ op.route := by
      rintro rfl
      exact hok (by rw [show s.pc = _ from heq]; rfl)
    obtain ⟨hread, hnot⟩ := h.read sr refresh rest heq
    exact ⟨hread.trans (field_of_get? (hother sr hne) _).symm,
      (Function.update_of_ne hne _ _).trans hnot⟩

theorem Safe.step {s s' : State} {a : Action} (h : Safe s) (hok : Undisturbed s a)
    (hstep : Step s a s') : Safe s' := by
  cases a with
  | alarm staticRoutes =>
    obtain ⟨-, -, rfl⟩ := hstep
    exact h.goto (fun sr hw => by simp [Pc.window] at hw) fun sr r rest => by simp
  | timer =>
    obtain rfl := hstep
    exact h.timer
  | writer op =>
    obtain rfl := hstep
    exact h.writer hok

/-- While no writer touches the route that the alarm has begun to handle: a route that the alarm
    deletes is subject to expiry and has not been refreshed, and what its writer has deleted is
    gone. -/
theorem safe_of_run {db : Db} {s : State} {acts : List Action}
    (hrun : Run Step Undisturbed { db := db } acts s) :
    (∀ sr, Deletes s sr → field s.db sr "expiry" ≠ some "false" ∧ s.refreshed sr = false) ∧
      ∀ sr, s.deleted sr = true → Dict.get? s.db sr = none := by
  have hsafe : Safe s := by
    refine hrun.invariant (fun s a s' h hok hstep => h.step hok hstep) ?_
    exact ⟨fun sr h => Bool.noConfusion h, fun sr h => Bool.noConfusion h,
      fun sr h => by simp [Pc.window] at h, fun sr r rest h => Pc.noConfusion h⟩
  refine ⟨fun sr hdel => ?_, hsafe.deleted⟩
  obtain ⟨refresh, rest, hpc, -⟩ := hdel
  exact ⟨hsafe.expiry sr (by rw [hpc]; rfl), (hsafe.read sr refresh rest hpc).2⟩

/-- The alarm after a writer has refreshed `b` while `a` was handled. -/
def otherRefreshed : State :=
  timer (writer (timer { db := [("a", [("refresh", "false")]), ("b", [("refresh", "false")])]
                         pc := .scan ["a", "b"] }) (.refresh "b"))

/-- One route that nobody refreshes, and a writer of another route. -/
theorem stale_deleted : Deletes otherRefreshed "a" ∧ otherRefreshed.refreshed "a" = false ∧
    otherRefreshed.refreshed "b" = true := by
  have hdel : Deletes otherRefreshed "a" := ⟨some "false", ["b"], by decide, by decide⟩
  have hok : Undisturbed
      (timer { db := [("a", [("refresh", "false")]), ("b", [("refresh", "false")])]
               pc := .scan ["a", "b"] }) (.writer (.refresh "b")) := by
    unfold Undisturbed
    decide
  have hrun : Run Step Undisturbed
      { db := [("a", [("refresh", "false")]), ("b", [("refresh", "false")])] }
      [.alarm ["a", "b"], .timer, .writer (.refresh "b"), .timer] otherRefreshed :=
    .cons trivial ⟨rfl, .refl _, rfl⟩ (.cons trivial rfl (.cons hok rfl
      (.cons trivial rfl (.nil _))))
  exact ⟨hdel, ((safe_of_run hrun).1 "a" hdel).2, by decide⟩

/-- A refresh between the reads and the delete, and a delete between the reads and the write. -/
theorem write_between :
    (∃ s, Run Step (fun _ _ => True) { db := [("a", [("refresh", "false")])] }
        [.alarm ["a"], .timer, .timer, .writer (.refresh "a")] s ∧
      Deletes s "a" ∧ s.refreshed "a" = true) ∧
    ∃ s, Run Step (fun _ _ => True) { db := [("a", [("refresh", "true")])] }
        [.alarm ["a"], .timer, .timer, .writer (.delete "a"), .timer] s ∧
      s.deleted "a" = true ∧ Dict.get? s.db "a" = some [("refresh", "false")] :=
  ⟨⟨_, .cons trivial ⟨rfl, .refl _, rfl⟩ (.cons trivial rfl (.cons trivial rfl
      (.cons trivial rfl (.nil _)))), ⟨some "false", [], by decide, by decide⟩, by decide⟩,
    _, .cons trivial ⟨rfl, .refl _, rfl⟩ (.cons trivial rfl (.cons trivial rfl
      (.cons trivial rfl (.cons trivial rfl (.nil _))))), by decide, by decide⟩

end SonicBuildimage.Bgpcfgd.StaticRtTimer
