/-
  The mLACP state machine: `mlacp_fsm_transit` and its handlers (mlacp_fsm.c).

  Model.  A CSM is what the state machine reads and writes of it.  The messages of its queue
  are given by what the handlers look at (`FsmMsg`): whether a message is data or a
  notification, the type of its parameter, and the fields that change the state.  The
  messages that a handler sends are appended to `out`; what is sent of the local interfaces
  and tables comes from outside (`info` in a synchronisation, `pending` in the state
  `EXCHANGE`).  The calls that the statements are about are recorded in `calls`.

  `mlacp_fsm_transit` keeps the state of its last check in a variable of its own, `prev_state`,
  one for all CSMs; here it is passed through.  In the loop all messages of the queue are
  handled, and then one more turn is made without a message; only in the state `INIT` a turn
  does not take a message from the queue.

  Not modelled: the contents of the tables, warm reboot, the timers of the local interfaces
  and of MAC learning on the peer link.
-/
import Mathlib.Data.List.Basic
import Mathlib.Tactic.Common

namespace SonicBuildimage.Iccpd

/-! ## States and messages -/

/-- `MLACP_APP_STATE_E` -/
inductive MlacpState where
  | init
  | stage1
  | stage2
  | exchange
  | error
  deriving DecidableEq

/-- `current_state++`; no handler runs in the last state. -/
def MlacpState.next : MlacpState → MlacpState
  | init => stage1
  | stage1 => stage2
  | stage2 => exchange
  | exchange => error
  | error => error

/-- `csm->role_type` -/
inductive Role where
  | none
  | active
  | standby
  deriving DecidableEq

/-- The parameter of a message, as far as the state machine reads it. -/
inductive FsmTlv where
  /-- a rejection; whether the search in the message log finds a system configuration -/
  | nak (ofSystemConfig : Bool)
  | syncRequest
  | syncData (flags : Nat)
  | systemConfig (nodeId : UInt8)
  /-- whether it removes an aggregator that is not known -/
  | aggregatorConfig (purgesUnknown : Bool)
  | heartbeat
  | other (type : Nat)
  deriving DecidableEq

structure FsmMsg where
  /-- `MSG_T_RG_APP_DATA`; the others in the queue are `MSG_T_NOTIFICATION` -/
  isData : Bool
  tlv : FsmTlv
  deriving DecidableEq

/-- The message that `mlacp_fsm_transit` takes for a rejection. -/
def FsmMsg.isNak (m : FsmMsg) : Bool :=
  match m.isData, m.tlv with
  | false, .nak _ => true
  | _, _ => false

/-- Calls that are recorded. -/
inductive Call where
  /-- not a call: the state has become `EXCHANGE` -/
  | entered
  /-- `mlacp_peer_conn_handler` -/
  | peerConn
  /-- `mlacp_exchange_handler` -/
  | exchange
  /-- `mlacp_sync_receiver_handler` -/
  | received (m : FsmMsg)
  deriving DecidableEq

structure FsmCsm where
  /-- `sock_fd > 0` -/
  connected : Bool
  /-- `app_csm.current_state == APP_OPERATIONAL` -/
  operational : Bool
  role : Role
  state : MlacpState
  waitForSyncData : Bool
  needToSync : Bool
  systemConfigChanged : Bool
  nodeId : UInt8
  remoteNodeId : UInt8
  /-- what the sender functions have to send between the system configuration and the end -/
  info : List FsmMsg
  /-- what the exchange handler has to send of interfaces, MACs and neighbours -/
  pending : List FsmMsg
  /-- `mlacp_msg_list` -/
  queue : List FsmMsg
  out : List FsmMsg
  calls : List Call
  deriving DecidableEq

namespace FsmCsm

def send (c : FsmCsm) (m : FsmMsg) : FsmCsm := { c with out := c.out ++ [m] }

def record (c : FsmCsm) (e : Call) : FsmCsm := { c with calls := c.calls ++ [e] }

/-- `current_state++` -/
def advance (c : FsmCsm) : FsmCsm :=
  let c := { c with state := c.state.next }
  if c.state = .exchange then c.record .entered else c

/-! ## Handlers -/

/-- What is sent in a synchronisation: its start, the system configuration, the rest, its
    end. -/
def syncMsgs (c : FsmCsm) : List FsmMsg :=
  ⟨true, .syncData 0⟩ :: ⟨true, .systemConfig c.nodeId⟩ :: c.info ++ [⟨true, .syncData 1⟩]

/-- `mlacp_sync_send_all_info_handler` -/
def sendAllInfo (c : FsmCsm) : FsmCsm :=
  { c with out := c.out ++ c.syncMsgs, waitForSyncData := false }.advance

/-- What `mlacp_sync_receiver_handler` does to the state machine. -/
def apply (c : FsmCsm) : FsmTlv → FsmCsm
  | .syncData flags => if flags = 1 then { c with waitForSyncData := false } else c
  | .syncRequest => c.sendAllInfo
  | .systemConfig n =>
    { c with nodeId := if n = c.nodeId then c.nodeId + 1 else c.nodeId, remoteNodeId := n }
  | .aggregatorConfig purgesUnknown => if purgesUnknown then { c with needToSync := true } else c
  | .nak _ => c
  | .heartbeat => c
  | .other _ => c

/-- `mlacp_sync_receiver_handler` -/
def receive (c : FsmCsm) : Option FsmMsg → FsmCsm
  | some m => (c.record (.received m)).apply m.tlv
  | none => c

/-- `mlacp_stage_sync_send_handler` -/
def stageSyncSend (c : FsmCsm) : Option FsmMsg → FsmCsm
  | some m =>
    if c.waitForSyncData = false ∧ m.isData ∧ m.tlv = .syncRequest then
      { c with waitForSyncData := true }.sendAllInfo
    else c
  | none => c

/-- `mlacp_stage_sync_request_handler` -/
def stageSyncRequest (c : FsmCsm) (msg : Option FsmMsg) : FsmCsm :=
  if c.waitForSyncData = false then { c.send ⟨true, .syncRequest⟩ with waitForSyncData := true }
  else
    let c := c.receive msg
    if c.waitForSyncData = false then c.advance else c

/-- Whether a CSM sends in its stage: the active one first, then the other. -/
def sends (c : FsmCsm) : Bool :=
  if c.state = .stage1 then c.role = .active else c.role ≠ .active

/-- `mlacp_stage_handler` -/
def stage (c : FsmCsm) (msg : Option FsmMsg) : FsmCsm :=
  if c.sends then c.stageSyncSend msg else c.stageSyncRequest msg

/-- What the exchange handler sends after it has handled the message. -/
def exchangeSend (c : FsmCsm) : FsmCsm :=
  let c := if c.needToSync then { c.send ⟨true, .syncRequest⟩ with needToSync := false } else c
  let c :=
    if c.systemConfigChanged then
      { c.send ⟨true, .systemConfig c.nodeId⟩ with systemConfigChanged := false }
    else c
  { c with out := c.out ++ c.pending, pending := [] }

/-- `mlacp_exchange_handler` -/
def exchange (c : FsmCsm) (msg : Option FsmMsg) : FsmCsm :=
  let c := c.record .exchange
  let c := if msg.any FsmMsg.isData then c.receive msg else c
  c.exchangeSend

/-- `mlacp_sync_recv_nak_handler` -/
def recvNak (c : FsmCsm) : FsmTlv → FsmCsm
  | .nak true => { c with nodeId := c.nodeId - 1, systemConfigChanged := true }
  | _ => { c with needToSync := true }

/-! ## The loop -/

/-- The check of a turn. -/
def check (prev : MlacpState) (c : FsmCsm) : FsmCsm :=
  if prev ≠ c.state ∧ c.state = .exchange then c.record .peerConn else c

/-- The rest of a turn. -/
def handle (c : FsmCsm) (msg : Option FsmMsg) : FsmCsm :=
  let c := if c.state = .init then { c with waitForSyncData := false, state := .stage1 } else c
  match c.state with
  | .init => c
  | .error => c
  | .stage1 => c.stage msg
  | .stage2 => c.stage msg
  | .exchange => c.exchange msg

/-- The turns with a message, and the last one; `prev_state` is the first component. -/
def loop : List FsmMsg → MlacpState × FsmCsm → MlacpState × FsmCsm
  | [], (prev, c) => (c.state, ({ c with queue := [] }.check prev).handle none)
  | m :: queue, (prev, c) =>
    if m.isNak then loop queue (prev, { c with queue := queue }.recvNak m.tlv)
    else loop queue (c.state, ({ c with queue := queue }.check prev).handle (some m))

/-- The first turn in the state `INIT`, which leaves the queue alone. -/
def start : MlacpState × FsmCsm → MlacpState × FsmCsm
  | (prev, c) => if c.state = .init then (c.state, (c.check prev).handle none) else (prev, c)

/-- `mlacp_sync_send_heartbeat`; `beat` tells whether it is time for one. -/
def heartbeat (c : FsmCsm) (beat : Bool) : FsmCsm :=
  if beat then c.send ⟨true, .heartbeat⟩ else c

/-- The session is not lost. -/
def Live (c : FsmCsm) : Prop := c.connected = true ∧ c.operational = true

instance (c : FsmCsm) : Decidable c.Live := inferInstanceAs (Decidable (_ ∧ _))

/-- The teardown of a lost session. -/
def tearDown (c : FsmCsm) : FsmCsm :=
  if c.state ≠ .init then
    { c with queue := [], pending := [], state := .init, connected := false }
  else c

/-- `mlacp_fsm_transit` -/
def transit (beat : Bool) : MlacpState × FsmCsm → MlacpState × FsmCsm
  | (prev, c) =>
    if c.Live then loop c.queue (start (prev, c.heartbeat beat)) else (prev, c.tearDown)

/-- `scheduler_session_disconnect_handler` -/
def disconnect (c : FsmCsm) : FsmCsm :=
  { c with
    connected := false
    operational := false
    role := .none
    state := .init
    needToSync := false
    queue := []
    pending := [] }

/-- A CSM that has just been created. -/
def created (nodeId : UInt8) : FsmCsm :=
  ⟨false, false, .none, .init, false, false, false, nodeId, 0, [], [], [], [], []⟩

/-! ## What the handlers change -/

@[simp] theorem waitForSyncData_advance (c : FsmCsm) :
    c.advance.waitForSyncData = c.waitForSyncData := by
  unfold advance
  dsimp only
  split
  · rfl
  · rfl

@[simp] theorem state_advance (c : FsmCsm) : c.advance.state = c.state.next := by
  unfold advance
  dsimp only
  split
  · rfl
  · rfl

/-- Sending does not change the state. -/
theorem exchangeSend_state (c : FsmCsm) :
    c.exchangeSend.state = c.state ∧ c.exchangeSend.calls = c.calls := by
  unfold exchangeSend
  dsimp only
  cases c.needToSync with
  | true =>
    cases hs : c.systemConfigChanged with
    | true => simp [send, hs]
    | false => simp [send, hs]
  | false =>
    cases hs : c.systemConfigChanged with
    | true => simp [send, hs]
    | false => simp [hs]

/-- Messages other than a request and the end of a synchronisation leave the state alone. -/
theorem apply_other (c : FsmCsm) {t : FsmTlv} (hreq : t ≠ .syncRequest)
    (hdone : t ≠ .syncData 1) :
    (c.apply t).state = c.state ∧ (c.apply t).waitForSyncData = c.waitForSyncData ∧
      (c.apply t).calls = c.calls := by
  cases t with
  | nak b => exact ⟨rfl, rfl, rfl⟩
  | syncRequest => exact absurd rfl hreq
  | syncData flags =>
    rw [apply, if_neg (by rintro rfl; exact hdone rfl)]
    exact ⟨rfl, rfl, rfl⟩
  | systemConfig n => exact ⟨rfl, rfl, rfl⟩
  | aggregatorConfig purges =>
    cases purges with
    | true => exact ⟨rfl, rfl, rfl⟩
    | false => exact ⟨rfl, rfl, rfl⟩
  | heartbeat => exact ⟨rfl, rfl, rfl⟩
  | other t => exact ⟨rfl, rfl, rfl⟩

end FsmCsm

end SonicBuildimage.Iccpd
