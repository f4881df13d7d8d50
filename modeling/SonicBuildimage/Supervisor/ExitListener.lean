/-
  Alerts for critical processes that are not running: files/scripts/supervisor-proc-exit-listener,
  with auto-restart disabled.

  Model.  `process_under_alerting`, the two process events, and the body of the alerting loop for
  one process.  `time.time()` is a rational number that the environment chooses at every call.  An
  iteration of `main` is at most one event and then one check of each process; the runs here are
  over any sequence of events and checks.

  Proved: `minutes_of_run`.  An alert is written only for a process that is dead since an unexpected
  exit, and as long as the seconds dropped by the divisions since that exit are less than a minute
  in all, the minutes are those since the exit.  `last_alerted` is set to the time of the alert, not
  to the last whole minute, so the dropped seconds add up (`minute_lost`).

  Not modelled: heart beats, auto-restart other than disabled, the rest of the alert's text.
-/
import SonicBuildimage.Lib.PyDict
import SonicBuildimage.Lib.Run

namespace SonicBuildimage.Supervisor

open SonicBuildimage.Lib

/-- `ALERTING_INTERVAL_SECS` -/
def alertingIntervalSecs : ℚ := 60

/-- A value of `process_under_alerting`. -/
structure Entry where
  lastAlerted : ℚ
  deadMinutes : ℤ
  deriving DecidableEq

/-- `critical_process_list` and `critical_group_list`. -/
structure Critical where
  processes : List String
  groups : List String

/-- `PROCESS_STATE_EXITED` concerns the listener. -/
def Critical.unexpected (c : Critical) (process group : String) (expected : ℕ) : Prop :=
  (process ∈ c.processes ∨ group ∈ c.groups) ∧ expected = 0

instance Critical.decidableUnexpected (c : Critical) (process group : String) (expected : ℕ) :
    Decidable (c.unexpected process group expected) :=
  inferInstanceAs (Decidable (_ ∧ _))

/-- The handling of `PROCESS_STATE_EXITED` at the time `now`. -/
def exited (c : Critical) (d : Dict String Entry) (process group : String) (expected : ℕ)
    (now : ℚ) :
    Dict String Entry :=
  if c.unexpected process group expected then Dict.set d process ⟨now, 0⟩ else d

/-- The handling of `PROCESS_STATE_RUNNING`. -/
def running (d : Dict String Entry) (process : String) : Dict String Entry :=
  if process ∈ Dict.keys d then Dict.erase d process else d

/-- The body of the alerting loop; the alert has the minutes. -/
def check (d : Dict String Entry) (process : String) (epochTime : ℚ) :
    Dict String Entry × Option ℤ :=
  match Dict.get? d process with
  | none => (d, none)
  | some e =>
    let elapsedSecs := epochTime - e.lastAlerted
    if elapsedSecs ≥ alertingIntervalSecs then
      let elapsedMins := ⌊elapsedSecs / 60⌋
      (Dict.set d process ⟨epochTime, e.deadMinutes + elapsedMins⟩,
        some (e.deadMinutes + elapsedMins))
    else (d, none)

inductive Action
  | exited (process group : String) (expected : ℕ) (now : ℚ)
  | running (process : String)
  | check (process : String) (epochTime : ℚ)

/-- The exit since which a process is dead, from the events so far. -/
def deadSince (c : Critical) (acts : List Action) (p : String) : Option ℚ :=
  acts.foldl (fun dead a =>
    match a with
    | .exited process group expected now =>
      if process = p ∧ c.unexpected process group expected then some now else dead
    | .running process => if process = p then none else dead
    | .check _ _ => dead) none

/-- The state, with the seconds that the divisions have dropped since the exit of each process. -/
structure Watched where
  alerting : Dict String Entry := []
  dropped : String → ℚ := fun _ => 0

/-- What the division of the elapsed seconds drops. -/
def remainder (elapsedSecs : ℚ) : ℚ := elapsedSecs - 60 * ⌊elapsedSecs / 60⌋

def next (c : Critical) (s : Watched) : Action → Watched
  | .exited process group expected now =>
    { alerting := Supervisor.exited c s.alerting process group expected now
      dropped := if c.unexpected process group expected then Function.update s.dropped process 0
        else s.dropped }
  | .running process => { s with alerting := Supervisor.running s.alerting process }
  | .check process epochTime =>
    { alerting := (Supervisor.check s.alerting process epochTime).1
      dropped :=
        match Dict.get? s.alerting process with
        | none => s.dropped
        | some e =>
          if epochTime - e.lastAlerted ≥ alertingIntervalSecs then
            Function.update s.dropped process
              (s.dropped process + remainder (epochTime - e.lastAlerted))
          else s.dropped }

def Step (c : Critical) (s : Watched) (a : Action) (s' : Watched) : Prop := next c s a = s'

/-- With an alert at the time of the check, the seconds dropped since the exit are less than a
    minute. -/
def Timely (s : Watched) : Action → Prop
  | .check process epochTime => ∀ e, Dict.get? s.alerting process = some e →
    epochTime - e.lastAlerted ≥ alertingIntervalSecs →
      s.dropped process + remainder (epochTime - e.lastAlerted) < 60
  | _ => True

/-! ### The account of the seconds since the exit -/

/-- A process is listed while it is dead since an unexpected exit, and the time from the exit to the
    last alert is the minutes reported and the seconds dropped. -/
structure Accounted (s : Watched) (dead : String → Option ℚ) : Prop where
  running : ∀ p, Dict.get? s.alerting p = none → dead p = none
  seconds : ∀ p e, Dict.get? s.alerting p = some e → ∃ exit, dead p = some exit ∧
    e.lastAlerted - exit = 60 * e.deadMinutes + s.dropped p ∧ 0 ≤ s.dropped p

theorem remainder_nonneg (t : ℚ) : 0 ≤ remainder t := by
  have := Int.floor_le (t / 60)
  unfold remainder
  linarith

theorem deadSince_append (c : Critical) (acts : List Action) (a : Action) (p : String) :
    deadSince c (acts ++ [a]) p =
      match a with
      | .exited process group expected now =>
        if process = p ∧ c.unexpected process group expected then some now else deadSince c acts p
      | .running process => if process = p then none else deadSince c acts p
      | .check _ _ => deadSince c acts p := by
  unfold deadSince
  rw [List.foldl_append]
  rfl

theorem check_none {d : Dict String Entry} {p : String} {t : ℚ}
    (h : ∀ e, Dict.get? d p = some e → ¬t - e.lastAlerted ≥ alertingIntervalSecs) :
    check d p t = (d, none) := by
  unfold check
  split
  · rfl
  · next e he =>
    exact if_neg (h e he)

theorem check_some {d : Dict String Entry} {p : String} {t : ℚ} {e : Entry}
    (he : Dict.get? d p = some e) (h : t - e.lastAlerted ≥ alertingIntervalSecs) :
    check d p t =
      (Dict.set d p ⟨t, e.deadMinutes + ⌊(t - e.lastAlerted) / 60⌋⟩,
        some (e.deadMinutes + ⌊(t - e.lastAlerted) / 60⌋)) := by
  unfold check
  rw [he]
  exact if_pos h

variable {c : Critical} {s : Watched} {acts : List Action}

theorem Accounted.exited (h : Accounted s (deadSince c acts)) (process group : String)
    (expected : ℕ) (now : ℚ) :
    Accounted (next c s (.exited process group expected now))
      (deadSince c (acts ++ [.exited process group expected now])) := by
  by_cases hu : c.unexpected process group expected
  · constructor
    · intro p hp
      simp only [next, Supervisor.exited, if_pos hu, Dict.get?_set] at hp
      split at hp
      · simp at hp
      · next hne =>
        rw [deadSince_append]
        simp only [hne, false_and, if_false]
        exact h.running p hp
    · intro p e hp
      simp only [next, Supervisor.exited, if_pos hu, Dict.get?_set] at hp
      simp only [deadSince_append, next, if_pos hu]
      split at hp
      · next heq =>
        obtain rfl := Option.some.inj hp
        exact ⟨now, if_pos ⟨heq, hu⟩, by simp [heq], by simp [heq]⟩
      · next hne =>
        rw [if_neg fun hc => hne hc.1, Function.update_of_ne (Ne.symm hne)]
        exact h.seconds p e hp
  · have hdead : deadSince c (acts ++ [.exited process group expected now]) = deadSince c acts := by
      funext p
      rw [deadSince_append]
      exact if_neg fun hc => hu hc.2
    have hnext : next c s (.exited process group expected now) = s := by
      simp only [next, Supervisor.exited, if_neg hu]
    rw [hdead, hnext]
    exact h

theorem get?_running (d : Dict String Entry) (process p : String) :
    Dict.get? (running d process) p = if process = p then none else Dict.get? d p := by
  unfold running
  split
  · exact Dict.get?_erase _ _ _
  · next hk =>
    split
    · next heq =>
      simpa [heq, Dict.mem_keys_iff] using hk
    · rfl

theorem Accounted.runs (h : Accounted s (deadSince c acts)) (process : String) :
    Accounted (next c s (.running process)) (deadSince c (acts ++ [.running process])) := by
  constructor
  · intro p hp
    simp only [next, get?_running] at hp
    rw [deadSince_append]
    dsimp only
    split
    · rfl
    · next hne =>
      rw [if_neg hne] at hp
      exact h.running p hp
  · intro p e hp
    simp only [next, get?_running] at hp
    rw [deadSince_append]
    dsimp only
    split at hp
    · simp at hp
    · next hne =>
      rw [if_neg hne]
      exact h.seconds p e hp

/-- The seconds from the exit to a check that alerts. -/
theorem Accounted.elapsed (h : Accounted s (deadSince c acts)) {process : String} {t : ℚ}
    {e : Entry}
    (he : Dict.get? s.alerting process = some e) :
    ∃ exit, deadSince c acts process = some exit ∧
      t - exit = 60 * ((e.deadMinutes + ⌊(t - e.lastAlerted) / 60⌋ : ℤ) : ℚ) +
        (s.dropped process + remainder (t - e.lastAlerted)) ∧
      0 ≤ s.dropped process + remainder (t - e.lastAlerted) := by
  obtain ⟨exit, hdead, hsecs, hnn⟩ := h.seconds process e he
  refine ⟨exit, hdead, ?_, add_nonneg hnn (remainder_nonneg _)⟩
  unfold remainder
  push_cast
  linarith

theorem Accounted.checked (h : Accounted s (deadSince c acts)) (process : String) (t : ℚ) :
    Accounted (next c s (.check process t)) (deadSince c (acts ++ [.check process t])) := by
  have hdead : deadSince c (acts ++ [.check process t]) = deadSince c acts := by
    funext p
    rw [deadSince_append]
  rw [hdead]
  by_cases ha : ∃ e, Dict.get? s.alerting process = some e ∧
      t - e.lastAlerted ≥ alertingIntervalSecs
  · obtain ⟨e, he, ht⟩ := ha
    simp only [next, check_some he ht, he, if_pos ht]
    constructor
    · intro p hp
      simp only [Dict.get?_set] at hp
      split at hp
      · simp at hp
      · exact h.running p hp
    · intro p e' hp
      simp only [Dict.get?_set] at hp
      split at hp
      · next heq =>
        subst heq
        obtain rfl := Option.some.inj hp
        simpa using h.elapsed (t := t) he
      · next hne =>
        simp only [Function.update_of_ne (Ne.symm hne)]
        exact h.seconds p e' hp
  · have hnone := fun e he ht => ha ⟨e, he, ht⟩
    have hnext : next c s (.check process t) = s := by
      simp only [next, check_none hnone]
      split
      · rfl
      · next e he =>
        rw [if_neg (hnone e he)]
    rw [hnext]
    exact h

theorem Accounted.next (h : Accounted s (deadSince c acts)) (a : Action) :
    Accounted (next c s a) (deadSince c (acts ++ [a])) := by
  cases a with
  | exited process group expected now => exact h.exited process group expected now
  | running process => exact h.runs process
  | check process t => exact h.checked process t

/-- An alert is written only for a process that is dead since an unexpected exit; while the seconds
    dropped since the exit are less than a minute, it has the whole minutes since the exit. -/
theorem minutes_of_run {process : String} {epochTime : ℚ} {minutes : ℤ}
    (hrun : Run (Step c) Timely {} acts s) (hok : Timely s (.check process epochTime))
    (halert : (check s.alerting process epochTime).2 = some minutes) :
    ∃ exit, deadSince c acts process = some exit ∧ minutes = ⌊(epochTime - exit) / 60⌋ := by
  have hacc : Accounted s (deadSince c acts) := by
    refine hrun.history (P := fun acts s => Accounted s (deadSince c acts)) ?_
      ⟨fun p _ => rfl, fun p e he => by simp at he⟩
    rintro acts s a s' h _ rfl
    exact h.next a
  by_cases ha : ∃ e, Dict.get? s.alerting process = some e ∧
      epochTime - e.lastAlerted ≥ alertingIntervalSecs
  · obtain ⟨e, he, ht⟩ := ha
    obtain ⟨exit, hdead, hsecs, hnn⟩ := hacc.elapsed (t := epochTime) he
    rw [check_some he ht] at halert
    refine ⟨exit, hdead, ?_⟩
    rw [← Option.some.inj halert]
    symm
    rw [Int.floor_eq_iff, hsecs]
    have := hok e he ht
    constructor <;> linarith
  · rw [check_none fun e he ht => ha ⟨e, he, ht⟩] at halert
    simp at halert

def orchagent : Critical := ⟨["orchagent"], []⟩

/-- Two alerts, each one second late. -/
theorem two_minutes : ∃ exit, deadSince orchagent
      [.exited "orchagent" "orchagent" 0 1000, .check "orchagent" 1061] "orchagent" = some exit ∧
    2 = ⌊((1122 : ℚ) - exit) / 60⌋ := by
  have hstep : Timely (next orchagent {} (.exited "orchagent" "orchagent" 0 1000))
      (.check "orchagent" 1061) := by
    rintro e he -
    obtain rfl : e = ⟨1000, 0⟩ := Option.some.inj (he.symm.trans (by decide +kernel))
    decide +kernel
  have hok : Timely (next orchagent (next orchagent {} (.exited "orchagent" "orchagent" 0 1000))
      (.check "orchagent" 1061)) (.check "orchagent" 1122) := by
    rintro e he -
    obtain rfl : e = ⟨1061, 1⟩ := Option.some.inj (he.symm.trans (by decide +kernel))
    decide +kernel
  exact minutes_of_run (.cons trivial rfl (.cons hstep rfl (.nil _))) hok (by decide +kernel)

/-- Two alerts, each 59 seconds late: 238 seconds are reported as two minutes. -/
theorem minute_lost : ∃ s, Run (Step orchagent) (fun _ _ => True) {}
      [.exited "orchagent" "orchagent" 0 1000, .check "orchagent" 1119] s ∧
    (check s.alerting "orchagent" 1238).2 = some 2 ∧
    deadSince orchagent [.exited "orchagent" "orchagent" 0 1000, .check "orchagent" 1119]
      "orchagent" = some 1000 ∧ ⌊((1238 : ℚ) - 1000) / 60⌋ = 3 :=
  ⟨_, .cons trivial rfl (.cons trivial rfl (.nil _)), by decide +kernel⟩

end SonicBuildimage.Supervisor
