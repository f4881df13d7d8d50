/-
  When `mlacp_peer_conn_handler` is called: once for each time that a CSM gets into the state
  `EXCHANGE`, before a message is handled in that state?

  Model.  Any number of CSMs, driven in any order; between the calls of `mlacp_fsm_transit` the
  rest of the daemon connects and disconnects them, delivers messages and changes what they
  have to send.  `prev_state` is one variable for all of them.

  Proved: `peerConn_of_run`.  The handler is called exactly as it should be for every CSM, in
  every run in which
  * a CSM in `EXCHANGE` is only driven while the CSM that was driven last is in `EXCHANGE` too
    (so in every run with one CSM), and
  * no request for synchronisation is given to a CSM that waits in stage 2 for the data of the
    peer: it would move the state on twice, past `EXCHANGE`.
  In other runs it is not: a CSM in `EXCHANGE` gets the call again each time that another one
  has been driven in another state (`peerConn_again`).
-/
import SonicBuildimage.Iccpd.MlacpFsm
import SonicBuildimage.Lib.Run

namespace SonicBuildimage.Iccpd

open SonicBuildimage.Lib

/-! ## The daemon -/

structure FsmSys where
  /-- `prev_state` of `mlacp_fsm_transit` -/
  prev : MlacpState
  csm : Nat → FsmCsm

inductive FsmAct where
  | transit (i : Nat) (beat : Bool)
  | connect (i : Nat) (role : Role)
  /-- `app_csm_transit` finds the connection operational -/
  | operational (i : Nat)
  | disconnect (i : Nat)
  | deliver (i : Nat) (m : FsmMsg)
  /-- other parts of the daemon change what there is to send -/
  | change (i : Nat) (info pending : List FsmMsg) (systemConfigChanged : Bool)

namespace FsmSys

def set (s : FsmSys) (i : Nat) (c : FsmCsm) : FsmSys :=
  { s with csm := fun j => if j = i then c else s.csm j }

/-- One of the CSMs is driven. -/
def drive (s : FsmSys) (i : Nat) (beat : Bool) : FsmSys :=
  let r := FsmCsm.transit beat (s.prev, s.csm i)
  { s.set i r.2 with prev := r.1 }

def step (s : FsmSys) : FsmAct → FsmSys
  | .transit i beat => s.drive i beat
  | .connect i role => s.set i { s.csm i with connected := true, role := role }
  | .operational i => s.set i { s.csm i with operational := true }
  | .disconnect i => s.set i (s.csm i).disconnect
  | .deliver i m => s.set i { s.csm i with queue := (s.csm i).queue ++ [m] }
  | .change i info pending changed =>
    s.set i { s.csm i with info := info, pending := pending, systemConfigChanged := changed }

def created (nodeId : Nat → UInt8) : FsmSys := ⟨.init, fun i => FsmCsm.created (nodeId i)⟩

end FsmSys

/-! ## What is to be proved -/

/-- Whether there is an entry into `EXCHANGE` that has not been followed by the call yet;
    `none` where a call was made too much or too late. -/
def awaits : Option Bool → Call → Option Bool
  | some false, .entered => some true
  | some true, .peerConn => some false
  | some false, .exchange => some false
  | some b, .received _ => some b
  | _, _ => none

/-- Every entry into `EXCHANGE` has been followed by exactly one call, before anything was
    handled in `EXCHANGE`, and there were no other calls. -/
def Notified (calls : List Call) : Prop := calls.foldl awaits (some false) = some false

instance (calls : List Call) : Decidable (Notified calls) := inferInstanceAs (Decidable (_ = _))

/-! ## The condition -/

/-- A request that comes while the CSM waits in stage 2 for the data of the peer. -/
def FsmCsm.late (c : FsmCsm) (m : FsmMsg) : Bool :=
  c.state = .stage2 ∧ c.sends = false ∧ c.waitForSyncData = true ∧ m.tlv = .syncRequest

/-- None of the messages is such a request when its turn comes. -/
def FsmCsm.inTime : List FsmMsg → MlacpState × FsmCsm → Bool
  | [], _ => true
  | m :: queue, (prev, c) =>
    if m.isNak then inTime queue (prev, { c with queue := queue }.recvNak m.tlv)
    else !c.late m && inTime queue (c.state, ({ c with queue := queue }.check prev).handle (some m))

/-- The daemon, and the CSM that was driven last (past the teardown). -/
structure Driven where
  sys : FsmSys
  last : Option Nat

namespace Driven

def next (d : Driven) (a : FsmAct) : Driven where
  sys := d.sys.step a
  last :=
    match a with
    | .transit i _ => if (d.sys.csm i).Live then some i else d.last
    | _ => d.last

def Step (d : Driven) (a : FsmAct) (d' : Driven) : Prop := d' = d.next a

/-- What a CSM in `EXCHANGE` needs to be driven. -/
def LastInExchange (d : Driven) : Prop :=
  d.last.any (fun j => (d.sys.csm j).state = .exchange) = true

instance (d : Driven) : Decidable d.LastInExchange := inferInstanceAs (Decidable (_ = _))

/-- The condition on a step. -/
def Ok (d : Driven) : FsmAct → Prop
  | .transit i beat =>
    (d.sys.csm i).Live →
      ((d.sys.csm i).state = .exchange → d.LastInExchange) ∧
        FsmCsm.inTime (d.sys.csm i).queue
          (FsmCsm.start (d.sys.prev, (d.sys.csm i).heartbeat beat)) = true
  | _ => True

instance (d : Driven) : (a : FsmAct) → Decidable (d.Ok a)
  | .transit _ _ => inferInstanceAs (Decidable (_ → _))
  | .connect _ _ => isTrue trivial
  | .operational _ => isTrue trivial
  | .disconnect _ => isTrue trivial
  | .deliver _ _ => isTrue trivial
  | .change _ _ _ _ => isTrue trivial

end Driven

/-! ## One turn -/

namespace FsmCsm

/-- What the calls so far leave open. -/
def status (c : FsmCsm) : Option Bool := c.calls.foldl awaits (some false)

@[simp] theorem status_record (c : FsmCsm) (e : Call) :
    (c.record e).status = awaits c.status e := by
  unfold status record
  rw [List.foldl_append]
  rfl

theorem status_advance {c : FsmCsm} (h : c.status = some false) :
    c.advance.status = some (decide (c.advance.state = .exchange)) := by
  rw [state_advance]
  unfold advance
  dsimp only
  by_cases hx : c.state.next = .exchange
  · rw [if_pos hx, status_record]
    change awaits c.status .entered = some (decide (c.state.next = .exchange))
    rw [h, hx]
    rfl
  · rw [if_neg hx]
    change c.status = some (decide (c.state.next = .exchange))
    rw [h, decide_eq_false hx]

/-- The calls of a handler leave an entry open exactly if the state is now `EXCHANGE`. -/
structure Outcome (c : FsmCsm) : Prop where
  status : c.status = some (decide (c.state = .exchange))
  started : c.state ≠ .init

theorem outcome_advance {c : FsmCsm} (h : c.status = some false) : c.advance.Outcome := by
  refine ⟨status_advance h, ?_⟩
  rw [state_advance]
  cases c.state <;> decide

/-- Where nothing was called, and the state is a stage. -/
theorem outcome_of_stage {c : FsmCsm} (h : c.status = some false)
    (hstage : c.state = .stage1 ∨ c.state = .stage2) : c.Outcome := by
  rcases hstage with hstage | hstage
  · exact ⟨by rw [h, hstage]; rfl, by rw [hstage]; decide⟩
  · exact ⟨by rw [h, hstage]; rfl, by rw [hstage]; decide⟩

/-- A message in a stage: the receiver either ends the waiting, or leaves the state alone. -/
theorem outcome_received {c : FsmCsm} {m : FsmMsg} (h : c.status = some false)
    (hstage : c.state = .stage1 ∨ c.state = .stage2) (hwait : c.waitForSyncData = true)
    (hlate : m.tlv = .syncRequest → c.state = .stage1) :
    (if (c.receive (some m)).waitForSyncData = false then (c.receive (some m)).advance
      else c.receive (some m)).Outcome := by
  have hrec : (c.record (.received m)).status = some false := by
    rw [status_record, h]
    rfl
  rw [receive]
  by_cases hreq : m.tlv = .syncRequest
  · -- the request is answered, and the state moves on twice
    rw [hreq, apply, sendAllInfo, waitForSyncData_advance, if_pos rfl]
    refine outcome_advance ?_
    have hstate : (c.record (.received m)).state.next = .stage2 := by
      change c.state.next = .stage2
      rw [hlate hreq]
      rfl
    rw [status_advance (by exact hrec), state_advance]
    change some (decide ((c.record (.received m)).state.next = .exchange)) = some false
    rw [hstate]
    rfl
  · by_cases hdone : m.tlv = .syncData 1
    · rw [hdone, apply, if_pos rfl, if_pos rfl]
      exact outcome_advance hrec
    · obtain ⟨hstate, hwait', hcalls⟩ := apply_other (c.record (.received m)) hreq hdone
      have hon : (c.record (.received m)).waitForSyncData = true := hwait
      rw [if_neg (by rw [hwait', hon]; decide)]
      refine outcome_of_stage ?_ (by rw [hstate]; exact hstage)
      unfold status at hrec ⊢
      rw [hcalls, hrec]

theorem outcome_stage {c : FsmCsm} {msg : Option FsmMsg} (h : c.status = some false)
    (hstage : c.state = .stage1 ∨ c.state = .stage2)
    (hlate : ∀ m, msg = some m → c.late m = false) : (c.stage msg).Outcome := by
  unfold stage
  split
  · cases msg with
    | none => exact outcome_of_stage h hstage
    | some m =>
      rw [stageSyncSend]
      split
      · exact outcome_advance h
      · exact outcome_of_stage h hstage
  · next hsends =>
    unfold stageSyncRequest
    split
    · exact outcome_of_stage h hstage
    · next hwait =>
      have hwait' : c.waitForSyncData = true := by simpa using hwait
      dsimp only
      cases msg with
      | none =>
        rw [receive, if_neg hwait]
        exact outcome_of_stage h hstage
      | some m =>
        refine outcome_received h hstage hwait' fun hreq => ?_
        rcases hstage with hs | hs
        · exact hs
        · have := hlate m rfl
          simp [late, hs, hwait', hreq, hsends] at this

/-- In `EXCHANGE` a message leaves no entry open. -/
theorem status_receive {c : FsmCsm} {msg : Option FsmMsg} (h : c.status = some false)
    (hx : c.state = .exchange) :
    (c.receive msg).status = some false ∧ (c.receive msg).state ≠ .init := by
  cases msg with
  | none => exact ⟨h, by rw [receive, hx]; decide⟩
  | some m =>
    have hrec : (c.record (.received m)).status = some false := by
      rw [status_record, h]
      rfl
    have hrecState : (c.record (.received m)).state = .exchange := hx
    rw [receive]
    generalize c.record (.received m) = r at hrec hrecState ⊢
    by_cases hreq : m.tlv = .syncRequest
    · have hnext : r.sendAllInfo.state = .error := by
        rw [sendAllInfo, state_advance]
        change r.state.next = .error
        rw [hrecState]
        rfl
      rw [hreq, apply]
      refine ⟨?_, by rw [hnext]; decide⟩
      have hstatus : r.sendAllInfo.status = some (decide (r.sendAllInfo.state = .exchange)) :=
        status_advance hrec
      rw [hstatus, hnext]
      rfl
    · by_cases hdone : m.tlv = .syncData 1
      · rw [hdone, apply, if_pos rfl]
        exact ⟨hrec, fun hi => absurd (hrecState.symm.trans hi) (by decide)⟩
      · obtain ⟨hstate, -, hcalls⟩ := apply_other r hreq hdone
        refine ⟨?_, by rw [hstate, hrecState]; decide⟩
        unfold status at hrec ⊢
        rw [hcalls, hrec]

theorem status_exchange {c : FsmCsm} {msg : Option FsmMsg} (h : c.status = some false)
    (hx : c.state = .exchange) :
    (c.exchange msg).status = some false ∧ (c.exchange msg).state ≠ .init := by
  have hrec : (c.record .exchange).status = some false := by
    rw [status_record, h]
    rfl
  have hrecState : (c.record .exchange).state = .exchange := hx
  unfold exchange
  dsimp only
  generalize c.record .exchange = r at hrec hrecState ⊢
  obtain ⟨hstate, hcalls⟩ := exchangeSend_state
    (if msg.any FsmMsg.isData then r.receive msg else r)
  unfold status at hrec ⊢
  rw [hstate, hcalls]
  split
  · exact status_receive hrec hrecState
  · exact ⟨hrec, by rw [hrecState]; decide⟩

/-- What is open in a turn, before its check: the entry of the turn before. -/
structure Open (r : MlacpState × FsmCsm) : Prop where
  status : r.2.status = some (decide (r.2.state = .exchange ∧ r.1 ≠ .exchange))
  started : r.2.state ≠ .init

/-- After the check nothing is open. -/
theorem status_check {prev : MlacpState} {c : FsmCsm} (h : Open (prev, c)) :
    (c.check prev).status = some false := by
  have hstatus := h.status
  unfold check
  by_cases hx : c.state = .exchange
  · by_cases hprev : prev = .exchange
    · rw [if_neg (by rw [hx, hprev]; exact fun hc => hc.1 rfl), hstatus]
      simp [hprev]
    · rw [if_pos ⟨by rw [hx]; exact hprev, hx⟩, status_record, hstatus]
      simp [hx, hprev, awaits]
  · rw [if_neg fun hc => hx hc.2, hstatus]
    simp [hx]

@[simp] theorem state_check (prev : MlacpState) (c : FsmCsm) : (c.check prev).state = c.state := by
  unfold check
  split
  · rfl
  · rfl

theorem open_handle {c : FsmCsm} {msg : Option FsmMsg} (h : c.status = some false)
    (hne : c.state ≠ .init) (hlate : ∀ m, msg = some m → c.late m = false) :
    Open (c.state, c.handle msg) := by
  unfold handle
  dsimp only
  rw [if_neg hne]
  cases hs : c.state with
  | init => exact absurd hs hne
  | error => exact ⟨by rw [h, hs]; rfl, by rw [hs]; decide⟩
  | stage1 =>
    obtain ⟨hstatus, hstarted⟩ := outcome_stage h (Or.inl hs) hlate
    exact ⟨by rw [hstatus]; simp, hstarted⟩
  | stage2 =>
    obtain ⟨hstatus, hstarted⟩ := outcome_stage h (Or.inr hs) hlate
    exact ⟨by rw [hstatus]; simp, hstarted⟩
  | exchange =>
    obtain ⟨hstatus, hstarted⟩ := @status_exchange c msg h hs
    exact ⟨by rw [hstatus]; simp, hstarted⟩

/-- A turn without a message does not move the state on. -/
theorem state_handle_none {c : FsmCsm} (hne : c.state ≠ .init) :
    (c.handle none).state = c.state := by
  unfold handle
  dsimp only
  rw [if_neg hne]
  have hstage : (c.stage none).state = c.state := by
    unfold stage
    split
    · rfl
    · unfold stageSyncRequest
      split
      · rfl
      · next hwait =>
        rw [receive]
        dsimp only
        rw [if_neg hwait]
  split
  · rfl
  · rfl
  · exact hstage
  · exact hstage
  · exact (exchangeSend_state _).1

/-! ## One call -/

@[simp] theorem late_check (prev : MlacpState) (c : FsmCsm) (m : FsmMsg) :
    (c.check prev).late m = c.late m := by
  unfold check
  split
  · rfl
  · rfl

theorem open_recvNak {prev : MlacpState} {c : FsmCsm} (h : Open (prev, c)) (t : FsmTlv) :
    Open (prev, c.recvNak t) := by
  unfold recvNak
  split
  · exact ⟨h.status, h.started⟩
  · exact ⟨h.status, h.started⟩

theorem open_turn {prev : MlacpState} {c : FsmCsm} {msg : Option FsmMsg} (h : Open (prev, c))
    (hlate : ∀ m, msg = some m → c.late m = false) :
    Open (c.state, (c.check prev).handle msg) := by
  have hturn := @open_handle (c.check prev) msg (status_check h)
    (by rw [state_check]; exact h.started) (by simpa using hlate)
  rwa [state_check] at hturn

/-- All messages of the queue, and the turn after them: nothing is open in the end, and
    `prev_state` is the state of the CSM. -/
theorem loop_spec {queue : List FsmMsg} {r : MlacpState × FsmCsm} (h : Open r)
    (hin : inTime queue r = true) :
    (loop queue r).2.status = some false ∧ (loop queue r).1 = (loop queue r).2.state := by
  induction queue generalizing r with
  | nil =>
    obtain ⟨prev, c⟩ := r
    have hopen : Open (prev, { c with queue := [] }) := ⟨h.status, h.started⟩
    have hturn := @open_turn prev { c with queue := [] } none hopen nofun
    have hstate : (({ c with queue := [] }.check prev).handle none).state = c.state := by
      rw [state_handle_none (by rw [state_check]; exact h.started), state_check]
    rw [loop]
    refine ⟨?_, hstate.symm⟩
    have hstatus := hturn.status
    dsimp only at hstatus ⊢
    rw [hstatus, hstate]
    simp
  | cons m queue ih =>
    obtain ⟨prev, c⟩ := r
    rw [inTime] at hin
    rw [loop]
    have hopen : Open (prev, { c with queue := queue }) := ⟨h.status, h.started⟩
    by_cases hnak : m.isNak = true
    · rw [if_pos hnak] at hin ⊢
      exact ih (open_recvNak hopen m.tlv) hin
    · rw [if_neg hnak] at hin ⊢
      rw [Bool.and_eq_true, Bool.not_eq_true'] at hin
      refine ih (open_turn hopen fun m' hm' => ?_) hin.2
      obtain rfl := Option.some.inj hm'
      exact hin.1

theorem open_start {prev : MlacpState} {c : FsmCsm} (h : c.status = some false)
    (hprev : c.state = .exchange → prev = .exchange) : Open (start (prev, c)) := by
  rw [start]
  by_cases hinit : c.state = .init
  · rw [if_pos hinit]
    have hcheck : c.check prev = c := by
      unfold check
      rw [if_neg (by rw [hinit]; simp)]
    have hout := @outcome_stage { c with waitForSyncData := false, state := .stage1 } none h
      (Or.inl rfl) nofun
    rw [hcheck, hinit]
    unfold handle
    dsimp only
    rw [if_pos hinit]
    exact ⟨by rw [hout.status]; simp, hout.started⟩
  · rw [if_neg hinit]
    refine ⟨?_, hinit⟩
    rw [h]
    by_cases hx : c.state = .exchange
    · simp [hprev hx]
    · simp [hx]

theorem heartbeat_eq (c : FsmCsm) (beat : Bool) :
    (c.heartbeat beat).status = c.status ∧ (c.heartbeat beat).state = c.state := by
  unfold heartbeat
  split
  · exact ⟨rfl, rfl⟩
  · exact ⟨rfl, rfl⟩

end FsmCsm

/-! ## Runs -/

/-- Every CSM has been notified as it should be, and `prev_state` is the state of the CSM that
    was driven last, unless that has been reset since. -/
structure Driven.Good (d : Driven) : Prop where
  notified : ∀ i, Notified (d.sys.csm i).calls
  prev : ∀ j, d.last = some j → (d.sys.csm j).state ≠ .init → d.sys.prev = (d.sys.csm j).state

theorem Driven.good_set {d : Driven} (h : d.Good) {i : Nat} {c : FsmCsm}
    (hcalls : c.calls = (d.sys.csm i).calls)
    (hstate : c.state = (d.sys.csm i).state ∨ c.state = .init) :
    Driven.Good ⟨d.sys.set i c, d.last⟩ := by
  refine ⟨fun j => ?_, fun j hj hne => ?_⟩
  · simp only [FsmSys.set]
    split
    · next hji =>
      rw [hcalls]
      exact h.notified i
    · exact h.notified j
  · simp only [FsmSys.set] at hne ⊢
    split at hne
    · next hji =>
      rw [if_pos hji]
      rcases hstate with hs | hs
      · rw [hs] at hne ⊢
        subst hji
        exact h.prev j hj hne
      · exact absurd hs hne
    · next hji =>
      rw [if_neg hji]
      exact h.prev j hj hne

theorem Driven.good_transit {d : Driven} (h : d.Good) {i : Nat} {beat : Bool}
    (hok : d.Ok (.transit i beat)) : (d.next (.transit i beat)).Good := by
  by_cases hlive : (d.sys.csm i).Live
  · obtain ⟨hlast, hin⟩ := hok hlive
    obtain ⟨hbeat, hbeat'⟩ := (d.sys.csm i).heartbeat_eq beat
    have hprev : ((d.sys.csm i).heartbeat beat).state = .exchange → d.sys.prev = .exchange := by
      intro hx
      rw [hbeat'] at hx
      obtain ⟨j, hj, hjx⟩ := (Option.any_eq_true _ _).1 (hlast hx)
      have hjx' : (d.sys.csm j).state = .exchange := of_decide_eq_true hjx
      rw [h.prev j hj (by rw [hjx']; decide), hjx']
    have hopen := FsmCsm.open_start (hbeat.trans (h.notified i)) hprev
    obtain ⟨hstatus, hend⟩ := FsmCsm.loop_spec hopen hin
    have htransit : FsmCsm.transit beat (d.sys.prev, d.sys.csm i)
        = FsmCsm.loop (d.sys.csm i).queue
          (FsmCsm.start (d.sys.prev, (d.sys.csm i).heartbeat beat)) := by
      rw [FsmCsm.transit, if_pos hlive]
    rw [← htransit] at hstatus hend
    refine ⟨fun j => ?_, fun j hj hne => ?_⟩
    · simp only [Driven.next, FsmSys.step, FsmSys.drive, FsmSys.set]
      split
      · exact hstatus
      · exact h.notified j
    · simp only [Driven.next, if_pos hlive] at hj
      obtain rfl := Option.some.inj hj
      simp only [Driven.next, FsmSys.step, FsmSys.drive, FsmSys.set]
      exact hend
  · -- a lost session: `prev_state` is not touched
    have hnext : d.next (.transit i beat) = ⟨d.sys.set i (d.sys.csm i).tearDown, d.last⟩ := by
      simp only [Driven.next, FsmSys.step, FsmSys.drive, FsmCsm.transit, if_neg hlive]
      rfl
    rw [hnext]
    refine Driven.good_set h ?_ ?_
    · unfold FsmCsm.tearDown
      split
      · rfl
      · rfl
    · unfold FsmCsm.tearDown
      split
      · exact Or.inr rfl
      · exact Or.inl rfl

theorem Driven.good_next {d : Driven} (h : d.Good) {a : FsmAct} (hok : d.Ok a) :
    (d.next a).Good := by
  cases a with
  | transit i beat => exact Driven.good_transit h hok
  | connect i role => exact Driven.good_set h rfl (Or.inl rfl)
  | operational i => exact Driven.good_set h rfl (Or.inl rfl)
  | disconnect i => exact Driven.good_set h rfl (Or.inr rfl)
  | deliver i m => exact Driven.good_set h rfl (Or.inl rfl)
  | change i info pending changed => exact Driven.good_set h rfl (Or.inl rfl)

/-- The daemon at its start. -/
def Driven.created (nodeId : Nat → UInt8) : Driven := ⟨FsmSys.created nodeId, none⟩

/-- In every run whose steps meet the condition, every CSM is notified once of each of its
    entries into `EXCHANGE`, before anything is handled there, and not otherwise. -/
theorem peerConn_of_run {nodeId : Nat → UInt8} {acts : List FsmAct} {d : Driven}
    (hrun : Run Driven.Step Driven.Ok (Driven.created nodeId) acts d) (i : Nat) :
    Notified (d.sys.csm i).calls := by
  have hgood : d.Good := by
    refine hrun.invariant (P := Driven.Good) ?_ ⟨fun _ => rfl, fun j hj => ?_⟩
    · rintro d a d' h hok rfl
      exact Driven.good_next h hok
    · exact absurd hj (by simp [Driven.created])
  exact hgood.notified i

/-- A standby CSM from its creation to `EXCHANGE`. -/
def toExchange (i : Nat) : List FsmAct :=
  [.connect i .standby, .operational i, .transit i true, .deliver i ⟨true, .syncData 1⟩,
    .deliver i ⟨true, .syncRequest⟩, .transit i false]

/-- A CSM gets into `EXCHANGE`, loses the session and gets into it again. -/
def reconnected : List FsmAct := toExchange 0 ++ [FsmAct.disconnect 0] ++ toExchange 0

theorem Driven.step_next (d : Driven) (a : FsmAct) (d' : Driven)
    (h : some (d.next a) = some d') : Driven.Step d a d' :=
  (Option.some.inj h).symm

theorem peerConn_twice :
    ∃ d, Run Driven.Step Driven.Ok (Driven.created fun _ => 0) reconnected d ∧
      (d.sys.csm 0).calls.count .peerConn = 2 ∧ Notified (d.sys.csm 0).calls := by
  obtain ⟨d, hrun, hcount⟩ : ∃ d,
      Run Driven.Step Driven.Ok (Driven.created fun _ => 0) reconnected d ∧
        (d.sys.csm 0).calls.count .peerConn = 2 :=
    exists_run Driven.step_next (by decide +kernel)
  exact ⟨d, hrun, hcount, peerConn_of_run hrun 0⟩

/-- The first CSM is in `EXCHANGE` when the second one starts, and is then driven again. -/
def overlapping : List FsmAct :=
  toExchange 0 ++
    [FsmAct.connect 1 .standby, FsmAct.operational 1, FsmAct.transit 1 true,
      FsmAct.transit 0 false]

/-- It is notified a second time, of no entry. -/
theorem peerConn_again :
    ¬Notified ((overlapping.foldl Driven.next (Driven.created fun _ => 0)).sys.csm 0).calls := by
  decide +kernel

end SonicBuildimage.Iccpd
