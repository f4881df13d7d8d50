/-
  The connection state machine of iccpd: `iccp_csm_transit` with the functions that build
  and read its messages (iccp_csm.c), and the life of the socket under it (scheduler.c).

  Model.  A message is a block of memory of which the first `len` bytes were received; a
  handler may read behind them.  What the source turns into host order in place is here read
  in network order.  `scheduler_prepare_session` makes a connection or not (`TransitEnv.connect`):
  the times and addresses it looks at are not part of the model.  `scheduler_server_accept`
  takes a connection only if there is none; `scheduler_session_disconnect_handler` resets the
  state.  A `csm` whose socket is closed outside the state `NONEXISTENT` is released by the
  next transition, which is then no step; `Reached.closed` says that this does not happen.

  Proved: `operational_of_run`.  In every run in which each RG_CONNECT with a sender name has
  the configured RG id, the state is `OPERATIONAL` only after a capability TLV and, behind the
  last accepted RG_DISCONNECT, an RG_CONNECT with that id.  Without the condition an RG_CONNECT
  with another id is enough: it sets the flag, and the status it also sets is cleared by any
  later message with the right id (`operational_other_rg`).

  Not modelled: the messages of the other queues, the counters except `u_msg_in_count`, the
  pause after a notification, and the socket that `mlacp_fsm_transit` closes when the
  application has left `APP_OPERATIONAL`, since `app_csm_transit` leaves it only when the
  socket is closed.
-/
import SonicBuildimage.Iccpd.Framing
import SonicBuildimage.Iccpd.Routing
import SonicBuildimage.Lib.Run

namespace SonicBuildimage.Iccpd.Conn

open SonicBuildimage.Lib
open SonicBuildimage.Lib.Traced

/-! ## Codes and layout (msg_format.h) -/

/-- `MSG_T_RG_CONNECT` -/
def msgTRgConnect : Nat := 0x0700

/-- `MSG_T_RG_DISCONNECT` -/
def msgTRgDisconnect : Nat := 0x0701

/-- `TLV_T_ICCP_CAPABILITY` -/
def tlvTIccpCapability : Nat := 0x0700

/-- `TLV_L_ICCP_CAPABILITY` -/
def tlvLIccpCapability : Nat := 4

/-- `TLV_T_ICC_SENDER_NAME` -/
def tlvTIccSenderName : Nat := 0x0001

/-- `TLV_T_DISCONNECT_CODE` -/
def tlvTDisconnectCode : Nat := 0x0004

/-- `TLV_L_DISCONNECT_CODE` -/
def tlvLDisconnectCode : Nat := 4

/-- `TLV_T_ICC_RG_ID` -/
def tlvTIccRgId : Nat := 0x0005

/-- `TLV_L_ICC_RG_ID` -/
def tlvLIccRgId : Nat := 4

/-- `STATUS_CODE_U_ICCP_RG` -/
def statusCodeUIccpRg : Nat := 0x00010001

/-- `STATUS_CODE_ICCP_RG_REMOVED` -/
def statusCodeIccpRgRemoved : Nat := 0x00010010

/-- `sizeof(ICCParameter)` -/
def sizeofICCParameter : Nat := 4

/-- `sizeof(LDPICCPCapabilityTLV)` -/
def sizeofLDPICCPCapabilityTLV : Nat := 8

/-- The U-bit, the F-bit and the type of the ICC parameter at `i`. -/
def param (m : Nat → UInt8) (i : Nat) : Nat × Nat × Nat :=
  let v := (be16 m i).val
  (v / 2 ^ 15, v / 2 ^ 14 % 2, v % 2 ^ 14)

/-- `icc_hdr->icc_rg_id_tlv.icc_rg_id` -/
def rgId (m : Nat → UInt8) : Nat := (be32 m (sizeofLDPHdr + 4)).val

/-- A number of 16 bits in network byte order. -/
def be16Bytes (v : Nat) : List UInt8 := [UInt8.ofNat (v / 2 ^ 8), UInt8.ofNat v]

/-- A number of 32 bits in network byte order. -/
def be32Bytes (v : Nat) : List UInt8 := be16Bytes (v / 2 ^ 16) ++ be16Bytes v

structure Msg where
  buf : Nat → UInt8
  len : Nat

/-- A message as the peer gets it; what is behind it in the memory of the peer is not sent. -/
def Msg.ofBytes (bytes : List UInt8) : Msg := ⟨fun i => bytes.getD i 0, bytes.length⟩

/-! ## The state -/

/-- `ICCP_CONNECTION_STATE_E` -/
inductive State where
  | nonexistent
  | initialized
  | capsent
  | caprec
  | connecting
  | operational
  deriving DecidableEq

/-- `csm->iccp_info`; the flags are 0 or 1. -/
structure IccpInfo where
  iccRgId : UInt32
  senderName : List UInt8
  statusCode : Nat
  rejectedMsgId : Nat
  senderCapabilityFlag : Bool
  peerCapabilityFlag : Bool
  senderRgConnectFlag : Bool
  peerRgConnectFlag : Bool
  deriving DecidableEq

structure Csm where
  sockFd : Int
  currentState : State
  iccpInfo : IccpInfo
  msgList : List Msg
  msgLog : MsgLog
  uMsgInCount : Nat

/-- What a transition takes from outside. -/
structure TransitEnv where
  /-- the socket, if `session_client_conn_handler` is called and connects -/
  connect : Option Nat
  /-- `scheduler_check_csm_config` returns 1 -/
  configOk : Bool
  /-- `ICCP_MSG_ID`, which the whole process counts up -/
  iccpMsgId : UInt32

namespace Csm

/-- `iccp_csm_status_reset(csm, 0)` -/
def statusReset (c : Csm) : Csm :=
  { sockFd := -1
    currentState := .nonexistent
    iccpInfo :=
      { c.iccpInfo with
        statusCode := 0
        rejectedMsgId := 0
        senderCapabilityFlag := false
        peerCapabilityFlag := false
        senderRgConnectFlag := false
        peerRgConnectFlag := false }
    msgList := []
    msgLog := MsgLog.reset
    uMsgInCount := 0 }

/-- A new `csm` with its RG id and the name of the sender. -/
def start (rg : UInt32) (name : List UInt8) : Csm :=
  statusReset ⟨-1, .nonexistent, ⟨rg, name, 0, 0, false, false, false, false⟩, [], MsgLog.reset, 0⟩

/-! ## Messages to the peer -/

/-- The ICC header of a message with `len` bytes behind it. -/
def iccHdr (c : Csm) (id : UInt32) (type len : Nat) : List UInt8 :=
  be16Bytes type
    ++ be16Bytes (sizeofICCHdr + len - Framing.msgLIncludUBitMsgTLFields)
    ++ be32Bytes id.toNat
    -- `iccp_csm_fill_icc_rg_id_tlv`
    ++ be16Bytes tlvTIccRgId ++ be16Bytes tlvLIccRgId ++ be32Bytes c.iccpInfo.iccRgId.toNat

def prepareCapabilityMsg (c : Csm) (id : UInt32) : List UInt8 :=
  be16Bytes msgTCapability
    ++ be16Bytes (sizeofLDPHdr + sizeofLDPICCPCapabilityTLV - Framing.msgLIncludUBitMsgTLFields)
    ++ be32Bytes id.toNat
    -- the U-bit is set
    ++ be16Bytes (2 ^ 15 + tlvTIccpCapability)
    ++ be16Bytes tlvLIccpCapability
    ++ be16Bytes (if c.iccpInfo.senderCapabilityFlag then 2 ^ 15 else 0)
    ++ [1, 0]

def prepareNakMsg (c : Csm) (id : UInt32) : List UInt8 :=
  -- no status but this one is supported
  let known := c.iccpInfo.statusCode = statusCodeUIccpRg
  c.iccHdr id msgTNotification 12
    ++ be16Bytes tlvTNak
    ++ be16Bytes 8
    ++ be32Bytes (if known then c.iccpInfo.statusCode else 0)
    ++ be32Bytes (if known then c.iccpInfo.rejectedMsgId else 0)

def prepareRgConnectMsg (c : Csm) (id : UInt32) : List UInt8 :=
  c.iccHdr id msgTRgConnect (sizeofICCParameter + c.iccpInfo.senderName.length)
    ++ be16Bytes tlvTIccSenderName
    ++ be16Bytes c.iccpInfo.senderName.length
    ++ c.iccpInfo.senderName

def prepareRgDisconnectMsg (c : Csm) (id : UInt32) : List UInt8 :=
  c.iccHdr id msgTRgDisconnect 8
    ++ be16Bytes tlvTDisconnectCode
    ++ be16Bytes tlvLDisconnectCode
    ++ be32Bytes c.iccpInfo.statusCode

/-- `iccp_csm_prepare_iccp_msg`; `none` is the length -1. -/
def prepareIccpMsg (c : Csm) (id : UInt32) : Option (List UInt8) :=
  match c.currentState with
  | .nonexistent => none
  | .initialized => some (c.prepareCapabilityMsg id)
  | .capsent => none
  | .caprec =>
    if 0 < c.iccpInfo.statusCode then some (c.prepareNakMsg id)
    else some (c.prepareRgConnectMsg id)
  | .connecting => if 0 < c.iccpInfo.statusCode then some (c.prepareNakMsg id) else none
  | .operational =>
    if c.iccpInfo.peerRgConnectFlag = false then some (c.prepareRgDisconnectMsg id) else none

/-- `iccp_csm_prepare_iccp_msg` and `iccp_csm_send`: the message that is written, if there is
    one. -/
def sendIccpMsg (c : Csm) (id : UInt32) : Csm × Option Msg :=
  match c.prepareIccpMsg id with
  | none => (c, none)
  | some bytes =>
    let m := Msg.ofBytes bytes
    let log := (iccpCsmSend c.sockFd c.msgLog ⟨m.buf, m.len, m.len⟩).1
    ({ c with msgLog := log }, if c.sockFd ≤ 0 then none else some m)

/-! ## Messages from the peer -/

/-- The capability TLV is one that `iccp_csm_correspond_from_capability_msg` takes. -/
def CapabilityTlv (m : Nat → UInt8) : Prop :=
  param m sizeofLDPHdr = (1, 0, tlvTIccpCapability)
    ∧ (be16 m (sizeofLDPHdr + 2)).val = tlvLIccpCapability
    ∧ (be16 m (sizeofLDPHdr + 4)).val / 2 ^ 15 = 1
    ∧ m (sizeofLDPHdr + 6) = 1 ∧ m (sizeofLDPHdr + 7) = 0

/-- The sender name TLV is one that `iccp_csm_correspond_from_rg_connect_msg` takes. -/
def SenderNameTlv (m : Nat → UInt8) : Prop := param m sizeofICCHdr = (0, 0, tlvTIccSenderName)

/-- The disconnect code is one that `iccp_csm_correspond_from_rg_disconnect_msg` takes. -/
def DisconnectCodeTlv (m : Nat → UInt8) : Prop :=
  param m sizeofICCHdr = (0, 0, tlvTDisconnectCode)
    ∧ (be16 m (sizeofICCHdr + 2)).val = tlvLDisconnectCode
    ∧ (be32 m (sizeofICCHdr + 4)).val = statusCodeIccpRgRemoved

instance (m : Nat → UInt8) : Decidable (CapabilityTlv m) :=
  inferInstanceAs (Decidable (_ ∧ _))

instance (m : Nat → UInt8) : Decidable (SenderNameTlv m) :=
  inferInstanceAs (Decidable (_ = _))

instance (m : Nat → UInt8) : Decidable (DisconnectCodeTlv m) :=
  inferInstanceAs (Decidable (_ ∧ _))

end Csm

open Csm

namespace IccpInfo

def checkIdFromMsg (i : IccpInfo) (m : Nat → UInt8) : IccpInfo :=
  if (msgType m).val = msgTCapability then i
  else if rgId m = i.iccRgId.toNat then
    if i.statusCode = statusCodeUIccpRg then { i with statusCode := 0, rejectedMsgId := 0 } else i
  else { i with statusCode := statusCodeUIccpRg, rejectedMsgId := rgId m }

def correspondFromCapabilityMsg (i : IccpInfo) (m : Nat → UInt8) : IccpInfo :=
  if CapabilityTlv m then { i with peerCapabilityFlag := true } else i

def correspondFromRgConnectMsg (i : IccpInfo) (m : Nat → UInt8) : IccpInfo :=
  if SenderNameTlv m then { i with peerRgConnectFlag := true } else i

def correspondFromRgDisconnectMsg (i : IccpInfo) (m : Nat → UInt8) : IccpInfo :=
  if DisconnectCodeTlv m then { i with senderRgConnectFlag := false, peerRgConnectFlag := false }
  else i

/-- `iccp_csm_correspond_from_msg`, as far as it is about `iccp_info`. -/
def correspondFromMsg (i : IccpInfo) (m : Nat → UInt8) : IccpInfo :=
  let i := i.checkIdFromMsg m
  if (msgType m).val = msgTCapability then i.correspondFromCapabilityMsg m
  else if (msgType m).val = msgTRgConnect then i.correspondFromRgConnectMsg m
  else if (msgType m).val = msgTRgDisconnect then i.correspondFromRgDisconnectMsg m
  else i

end IccpInfo

namespace Csm

/-- The types that `iccp_csm_correspond_from_msg` knows. -/
def knownTypes : List Nat :=
  [msgTCapability, msgTRgConnect, msgTRgDisconnect, msgTNotification, msgTRgAppData]

/-- `iccp_csm_correspond_from_msg`, for a message if there is one. -/
def correspondFromMsg (c : Csm) : Option Msg → Csm
  | none => c
  | some m =>
    { c with
      iccpInfo := c.iccpInfo.correspondFromMsg m.buf
      uMsgInCount :=
        if (msgType m.buf).val ∈ knownTypes then c.uMsgInCount else c.uMsgInCount + 1 }

/-- `iccp_csm_enqueue_msg`; the other queues are not part of the state. -/
def enqueueMsg (c : Csm) (m : Msg) : Csm :=
  if (iccpCsmEnqueueMsg c.msgLog m.buf).val = .icc then { c with msgList := c.msgList ++ [m] }
  else c

/-! ## Transitions -/

/-- `scheduler_prepare_session` -/
def prepareSession (c : Csm) (env : TransitEnv) : Csm :=
  if 0 < c.sockFd then c
  else
    match env.connect with
    | none => c
    | some fd => { c with sockFd := fd }

/-- The first switch of `iccp_csm_transit`, with the message that was taken from the list. -/
def transitState (c : Csm) (msg : Option Msg) (env : TransitEnv) : Csm × Option Msg :=
  match c.currentState with
  | .nonexistent =>
    -- the message is dropped
    let c := c.prepareSession env
    if 0 < c.sockFd ∧ env.configOk then ({ c with currentState := .initialized }, none)
    else (c, none)
  | .initialized =>
    let (c, out) := (c.correspondFromMsg msg).sendIccpMsg env.iccpMsgId
    if c.iccpInfo.senderCapabilityFlag = true ∧ c.iccpInfo.peerCapabilityFlag = false then
      ({ c with currentState := .capsent }, out)
    else if c.iccpInfo.senderCapabilityFlag = true ∧ c.iccpInfo.peerCapabilityFlag = true then
      ({ c with currentState := .caprec }, out)
    else (c, out)
  | .capsent =>
    let c := c.correspondFromMsg msg
    if c.iccpInfo.senderCapabilityFlag = true ∧ c.iccpInfo.peerCapabilityFlag = true then
      ({ c with currentState := .caprec }, none)
    else (c, none)
  | .caprec =>
    let (c, out) := (c.correspondFromMsg msg).sendIccpMsg env.iccpMsgId
    if c.iccpInfo.peerRgConnectFlag = false ∧ c.iccpInfo.statusCode = 0 then
      ({ c with currentState := .connecting }, out)
    else if c.iccpInfo.peerRgConnectFlag = true ∧ c.iccpInfo.statusCode = 0 then
      ({ c with currentState := .operational }, out)
    else (c, out)
  | .connecting =>
    let (c, out) := (c.correspondFromMsg msg).sendIccpMsg env.iccpMsgId
    if 0 < c.iccpInfo.statusCode then ({ c with currentState := .caprec }, out)
    else if c.iccpInfo.peerRgConnectFlag = true ∧ c.iccpInfo.statusCode = 0 then
      ({ c with currentState := .operational }, out)
    else (c, out)
  | .operational =>
    let c := c.correspondFromMsg msg
    if c.iccpInfo.senderRgConnectFlag = false ∨ c.iccpInfo.peerRgConnectFlag = false then
      let (c, out) := c.sendIccpMsg env.iccpMsgId
      ({ c with currentState := .caprec }, out)
    else (c, none)

/-- `iccp_csm_enter_state_*` -/
def enterState (c : Csm) : Option Csm :=
  match c.currentState with
  -- `iccp_csm_finalize` releases the `csm`
  | .nonexistent => none
  | .initialized => some { c with iccpInfo.senderCapabilityFlag := true }
  | .capsent => some c
  | .caprec =>
    some { c with iccpInfo.senderCapabilityFlag := true, iccpInfo.peerCapabilityFlag := true }
  | .connecting => some { c with iccpInfo.senderRgConnectFlag := true }
  | .operational =>
    some { c with iccpInfo.senderRgConnectFlag := true, iccpInfo.peerRgConnectFlag := true }

/-- `iccp_csm_transit`: the state afterwards and the message that is sent; `none` if the `csm`
    is released. -/
def transit (c : Csm) (env : TransitEnv) : Option (Csm × Option Msg) :=
  if c.currentState ≠ .nonexistent ∧ c.sockFd ≤ 0 then none
  else
    let msg := c.msgList.head?
    let (c', out) := { c with msgList := c.msgList.tail }.transitState msg env
    if c'.currentState ≠ c.currentState ∨ c'.currentState ≠ .nonexistent ∧ msg.isSome then
      c'.enterState.map fun c'' => (c'', out)
    else some (c', out)

end Csm

/-! ## Messages that count -/

/-- A capability message that is taken for the one of the peer. -/
def IsCapability (m : Nat → UInt8) : Prop := (msgType m).val = msgTCapability ∧ CapabilityTlv m

/-- An RG_CONNECT that is taken for one of the peer, whatever its RG id. -/
def IsRgConnect (m : Nat → UInt8) : Prop := (msgType m).val = msgTRgConnect ∧ SenderNameTlv m

/-- An RG_DISCONNECT that is accepted, whatever its RG id. -/
def IsRgDisconnect (m : Nat → UInt8) : Prop :=
  (msgType m).val = msgTRgDisconnect ∧ DisconnectCodeTlv m

instance (m : Nat → UInt8) : Decidable (IsCapability m) := inferInstanceAs (Decidable (_ ∧ _))

instance (m : Nat → UInt8) : Decidable (IsRgConnect m) := inferInstanceAs (Decidable (_ ∧ _))

namespace IccpInfo

variable (i : IccpInfo) (m : Nat → UInt8)

@[simp] theorem checkId_iccRgId : (i.checkIdFromMsg m).iccRgId = i.iccRgId := by
  unfold checkIdFromMsg
  split_ifs <;> rfl

@[simp] theorem checkId_peerCapability :
    (i.checkIdFromMsg m).peerCapabilityFlag = i.peerCapabilityFlag := by
  unfold checkIdFromMsg
  split_ifs <;> rfl

@[simp] theorem checkId_peerRgConnect :
    (i.checkIdFromMsg m).peerRgConnectFlag = i.peerRgConnectFlag := by
  unfold checkIdFromMsg
  split_ifs <;> rfl

theorem correspond_iccRgId : (i.correspondFromMsg m).iccRgId = i.iccRgId := by
  unfold correspondFromMsg correspondFromCapabilityMsg correspondFromRgConnectMsg
    correspondFromRgDisconnectMsg
  simp only
  split_ifs <;> simp

theorem correspond_peerCapability :
    (i.correspondFromMsg m).peerCapabilityFlag = true ↔
      i.peerCapabilityFlag = true ∨ IsCapability m := by
  unfold correspondFromMsg correspondFromCapabilityMsg correspondFromRgConnectMsg
    correspondFromRgDisconnectMsg IsCapability
  simp only
  split_ifs with hcap htlv
  · simp [hcap, htlv]
  · simp [htlv]
  all_goals simp [hcap]

/-- The flag of the RG_CONNECT is set and cleared whatever the RG id of the message. -/
theorem correspond_peerRgConnect :
    (i.correspondFromMsg m).peerRgConnectFlag = true ↔
      IsRgConnect m ∨ i.peerRgConnectFlag = true ∧ ¬IsRgDisconnect m := by
  have hcc : msgTCapability ≠ msgTRgConnect := by decide
  have hdc : msgTCapability ≠ msgTRgDisconnect := by decide
  have hdr : msgTRgConnect ≠ msgTRgDisconnect := by decide
  unfold correspondFromMsg correspondFromCapabilityMsg correspondFromRgConnectMsg
    correspondFromRgDisconnectMsg IsRgConnect IsRgDisconnect
  simp only
  split_ifs with hcap htlv hconnect hsender hdisconnect hcode
  · simp [hcap, hcc, hdc]
  · simp [hcap, hcc, hdc]
  · simp [hconnect, hsender]
  · simp [hconnect, hsender, hdr]
  · simp [hdisconnect, hcode, hdr.symm]
  · simp [hdisconnect, hcode, hdr.symm]
  · simp [hconnect, hdisconnect]

end IccpInfo

/-! ## Sessions -/

/-- A `csm` with the messages of its connection. -/
structure Session where
  csm : Csm
  /-- the messages received since the socket was opened -/
  received : List Msg
  /-- those that `iccp_csm_correspond_from_msg` was called with, in the same order -/
  handled : List Msg

inductive Event where
  /-- `scheduler_server_accept` -/
  | accept (fd : Nat)
  /-- a message for `iccp_csm_enqueue_msg` -/
  | receive (m : Msg)
  | transit (env : TransitEnv)
  /-- `scheduler_session_disconnect_handler` -/
  | disconnect
  /-- a message of another part of iccpd -/
  | send (s : Send)

namespace Session

def start (rg : UInt32) (name : List UInt8) : Session := ⟨Csm.start rg name, [], []⟩

/-- The message that the next transition handles. -/
def handles (s : Session) : List Msg :=
  if s.csm.currentState = .nonexistent then [] else s.csm.msgList.take 1

/-- The session after a transition; a new connection has no messages yet. -/
def transited (s : Session) (c : Csm) : Session :=
  if s.csm.sockFd ≤ 0 then ⟨c, [], []⟩ else ⟨c, s.received, s.handled ++ s.handles⟩

def next (s : Session) : Event → Option Session
  | .accept fd =>
    if s.csm.sockFd ≤ 0 ∧ 0 < fd then
      some ⟨{ s.csm with sockFd := fd, currentState := .nonexistent }, [], []⟩
    else none
  | .receive m =>
    if 0 < s.csm.sockFd then some ⟨s.csm.enqueueMsg m, s.received ++ [m], s.handled⟩ else none
  | .transit env => (s.csm.transit env).map fun r => s.transited r.1
  | .disconnect => some ⟨s.csm.statusReset, [], []⟩
  | .send m =>
    some { s with csm.msgLog := (iccpCsmSend s.csm.sockFd s.csm.msgLog m).1 }

def Step (s : Session) (e : Event) (s' : Session) : Prop := s.next e = some s'

theorem step_next (s : Session) (e : Event) (s' : Session) (h : s.next e = some s') :
    Step s e s' := h

/-- The part of a message that a handler reads is part of the message, and an RG_CONNECT is one
    of the configured RG. -/
def Ok (rg : UInt32) (_ : Session) : Event → Prop
  | .receive m =>
    (IsCapability m.buf → sizeofLDPHdr + sizeofLDPICCPCapabilityTLV ≤ m.len)
      ∧ (IsRgConnect m.buf → sizeofICCHdr + sizeofICCParameter ≤ m.len ∧ rgId m.buf = rg.toNat)
  | _ => True

instance (rg : UInt32) (s : Session) (e : Event) : Decidable (Ok rg s e) :=
  match e with
  | .receive _ => inferInstanceAs (Decidable (_ ∧ _))
  | .accept _ => isTrue trivial
  | .transit _ => isTrue trivial
  | .disconnect => isTrue trivial
  | .send _ => isTrue trivial

/-- A message with a whole capability TLV. -/
def HasCapability (m : Msg) : Prop :=
  IsCapability m.buf ∧ sizeofLDPHdr + sizeofLDPICCPCapabilityTLV ≤ m.len

/-- A message with a whole RG_CONNECT for an RG. -/
def Connects (rg : UInt32) (m : Msg) : Prop :=
  IsRgConnect m.buf ∧ sizeofICCHdr + sizeofICCParameter ≤ m.len ∧ rgId m.buf = rg.toNat

instance (rg : UInt32) (m : Msg) : Decidable (Connects rg m) := inferInstanceAs (Decidable (_ ∧ _))

/-- Among some messages is an RG_CONNECT for the RG, and no RG_DISCONNECT behind it. -/
def ConnectedBy (rg : UInt32) (msgs : List Msg) : Prop :=
  ∃ pre m post, msgs = pre ++ m :: post ∧ Connects rg m ∧ ∀ d ∈ post, ¬IsRgDisconnect d.buf

/-- The handshake on the connection of a session. -/
def Handshake (rg : UInt32) (s : Session) : Prop :=
  s.handled.Sublist s.received ∧ (∃ m ∈ s.handled, HasCapability m) ∧ ConnectedBy rg s.handled

end Session

/-! ## What a transition does -/

namespace Csm

/-- The states behind the exchange of the capabilities. -/
def Late (s : State) : Prop := s = .caprec ∨ s = .connecting ∨ s = .operational

theorem sendIccpMsg_eq (c : Csm) (id : UInt32) :
    ∃ log out, c.sendIccpMsg id = ({ c with msgLog := log }, out) := by
  unfold sendIccpMsg
  split
  · exact ⟨_, _, rfl⟩
  · exact ⟨_, _, rfl⟩

@[simp] theorem correspondFromMsg_currentState (c : Csm) (msg : Option Msg) :
    (c.correspondFromMsg msg).currentState = c.currentState := by
  cases msg <;> rfl

@[simp] theorem correspondFromMsg_sockFd (c : Csm) (msg : Option Msg) :
    (c.correspondFromMsg msg).sockFd = c.sockFd := by
  cases msg <;> rfl

@[simp] theorem correspondFromMsg_msgList (c : Csm) (msg : Option Msg) :
    (c.correspondFromMsg msg).msgList = c.msgList := by
  cases msg <;> rfl

/-- What a `csm` may have become in a transition outside `NONEXISTENT`, with the message
    handled and before the function for the new state is called. -/
structure Moved (c c' : Csm) (msg : Option Msg) : Prop where
  sockFd : c'.sockFd = c.sockFd
  msgList : c'.msgList = c.msgList
  iccpInfo : c'.iccpInfo = (c.correspondFromMsg msg).iccpInfo
  alive : c'.currentState ≠ .nonexistent
  late : Late c'.currentState → c'.iccpInfo.peerCapabilityFlag = true ∨ Late c.currentState
  operational : c'.currentState = .operational → c'.iccpInfo.peerRgConnectFlag = true

theorem transitState_moved {c : Csm} (msg : Option Msg) (env : TransitEnv)
    (h : c.currentState ≠ .nonexistent) : Moved c (c.transitState msg env).1 msg := by
  obtain ⟨log, out, hsend⟩ := sendIccpMsg_eq (c.correspondFromMsg msg) env.iccpMsgId
  unfold transitState
  cases hstate : c.currentState with
  | nonexistent => exact absurd hstate h
  | initialized =>
    simp only [hsend]
    split_ifs with hsent hrec
    · exact ⟨by simp, by simp, rfl, by simp, by simp [Late], by simp⟩
    · exact ⟨by simp, by simp, rfl, by simp, fun _ => .inl hrec.2, by simp⟩
    · exact ⟨by simp, by simp, rfl, by simp [hstate], by simp [Late, hstate], by simp [hstate]⟩
  | capsent =>
    simp only
    split_ifs with hrec
    · exact ⟨by simp, by simp, rfl, by simp, fun _ => .inl hrec.2, by simp⟩
    · exact ⟨by simp, by simp, rfl, by simp [hstate], by simp [Late, hstate], by simp [hstate]⟩
  | caprec =>
    have hlate : Late c.currentState := .inl hstate
    simp only [hsend]
    split_ifs with hwait hboth
    · exact ⟨by simp, by simp, rfl, by simp, fun _ => .inr hlate, by simp⟩
    · exact ⟨by simp, by simp, rfl, by simp, fun _ => .inr hlate, fun _ => hboth.1⟩
    · exact ⟨by simp, by simp, rfl, by simp [hstate], fun _ => .inr hlate, by simp [hstate]⟩
  | connecting =>
    have hlate : Late c.currentState := .inr (.inl hstate)
    simp only [hsend]
    split_ifs with hbad hboth
    · exact ⟨by simp, by simp, rfl, by simp, fun _ => .inr hlate, by simp⟩
    · exact ⟨by simp, by simp, rfl, by simp, fun _ => .inr hlate, fun _ => hboth.1⟩
    · exact ⟨by simp, by simp, rfl, by simp [hstate], fun _ => .inr hlate, by simp [hstate]⟩
  | operational =>
    have hlate : Late c.currentState := .inr (.inr hstate)
    simp only [hsend]
    split_ifs with hoff
    · exact ⟨by simp, by simp, rfl, by simp, fun _ => .inr hlate, by simp⟩
    · rw [not_or, Bool.not_eq_false, Bool.not_eq_false] at hoff
      exact ⟨by simp, by simp, rfl, by simp [hstate], fun _ => .inr hlate, fun _ => hoff.2⟩

/-- The functions for the states set no flag of the peer that was not set for another reason. -/
structure Entered (c c' : Csm) : Prop where
  sockFd : c'.sockFd = c.sockFd
  msgList : c'.msgList = c.msgList
  currentState : c'.currentState = c.currentState
  iccRgId : c'.iccpInfo.iccRgId = c.iccpInfo.iccRgId
  peerCapability : c'.iccpInfo.peerCapabilityFlag = true →
    c.iccpInfo.peerCapabilityFlag = true ∨ Late c.currentState
  peerRgConnect : c'.iccpInfo.peerRgConnectFlag = true →
    c.iccpInfo.peerRgConnectFlag = true ∨ c.currentState = .operational
  kept : c.iccpInfo.peerRgConnectFlag = true → c'.iccpInfo.peerRgConnectFlag = true

theorem entered_refl (c : Csm) : Entered c c := ⟨rfl, rfl, rfl, rfl, .inl, .inl, id⟩

theorem entered_of_enterState {c c' : Csm} (h : c.enterState = some c') : Entered c c' := by
  unfold enterState at h
  cases hstate : c.currentState with
  | nonexistent => simp [hstate] at h
  | initialized =>
    simp only [hstate, Option.some.injEq] at h
    subst h
    exact ⟨rfl, rfl, hstate.symm, rfl, .inl, .inl, id⟩
  | capsent =>
    simp only [hstate, Option.some.injEq] at h
    subst h
    exact entered_refl c
  | caprec =>
    simp only [hstate, Option.some.injEq] at h
    subst h
    exact ⟨rfl, rfl, hstate.symm, rfl, fun _ => .inr (.inl hstate), .inl, id⟩
  | connecting =>
    simp only [hstate, Option.some.injEq] at h
    subst h
    exact ⟨rfl, rfl, hstate.symm, rfl, .inl, .inl, id⟩
  | operational =>
    simp only [hstate, Option.some.injEq] at h
    subst h
    exact ⟨rfl, rfl, hstate.symm, rfl, .inl, fun _ => .inr hstate, fun _ => rfl⟩

/-- A transition is a move and then, perhaps, the function for the new state. -/
theorem transit_cases {c c' : Csm} {env : TransitEnv} {out : Option Msg}
    (h : c.transit env = some (c', out)) :
    (c.currentState = .nonexistent ∨ 0 < c.sockFd) ∧
      Entered ({ c with msgList := c.msgList.tail }.transitState c.msgList.head? env).1 c' := by
  unfold transit at h
  split at h
  · cases h
  · next hopen =>
    rw [not_and_or, not_not, not_le] at hopen
    refine ⟨hopen, ?_⟩
    simp only at h
    split at h
    · obtain ⟨c'', hc'', heq⟩ := Option.map_eq_some_iff.1 h
      obtain ⟨rfl, -⟩ := Prod.mk.inj heq
      exact entered_of_enterState hc''
    · obtain ⟨rfl, -⟩ := Prod.mk.inj (Option.some.inj h)
      exact entered_refl _

/-- In `NONEXISTENT` the message is dropped, and a connection may be made. -/
theorem transitState_nonexistent {c : Csm} (msg : Option Msg) (env : TransitEnv)
    (h : c.currentState = .nonexistent) :
    ∃ fd, (0 < c.sockFd → fd = c.sockFd) ∧
      c.transitState msg env =
        ({ c with
            sockFd := fd
            currentState := if 0 < fd ∧ env.configOk then .initialized else .nonexistent },
          none) := by
  have hsession : ∃ fd, (0 < c.sockFd → fd = c.sockFd) ∧
      c.prepareSession env = { c with sockFd := fd } := by
    unfold prepareSession
    split_ifs with hopen
    · exact ⟨_, fun _ => rfl, rfl⟩
    · split
      · exact ⟨_, fun _ => rfl, rfl⟩
      · exact ⟨_, fun hpos => absurd hpos hopen, rfl⟩
  obtain ⟨fd, hkeep, hfd⟩ := hsession
  refine ⟨fd, hkeep, ?_⟩
  rw [transitState, h]
  simp only [hfd]
  split_ifs
  · rfl
  · rw [← h]

end Csm

/-! ## Runs -/

namespace Session

/-- A message that an RG_CONNECT or a capability is taken from is a whole one. -/
def Sound (rg : UInt32) (m : Msg) : Prop :=
  (IsCapability m.buf → HasCapability m) ∧ (IsRgConnect m.buf → Connects rg m)

/-- What holds in every state of a run. -/
structure Reached (rg : UInt32) (s : Session) : Prop where
  iccRgId : s.csm.iccpInfo.iccRgId = rg
  sound : ∀ m ∈ s.csm.msgList, Sound rg m
  order : (s.handled ++ s.csm.msgList).Sublist s.received
  closed : s.csm.sockFd ≤ 0 → s.csm.currentState = .nonexistent ∧ s.csm.msgList = []
  nonexistent : s.csm.currentState = .nonexistent →
    s.csm.iccpInfo.peerCapabilityFlag = false ∧ s.csm.iccpInfo.peerRgConnectFlag = false
  capability : s.csm.iccpInfo.peerCapabilityFlag = true ∨ Late s.csm.currentState →
    ∃ m ∈ s.handled, HasCapability m
  connected : s.csm.iccpInfo.peerRgConnectFlag = true → ConnectedBy rg s.handled
  operational : s.csm.currentState = .operational → s.csm.iccpInfo.peerRgConnectFlag = true

theorem not_late_nonexistent : ¬Late .nonexistent := by
  unfold Late
  decide

/-- A `csm` without a message and without a flag has only to be in the right state. -/
theorem reached_fresh {rg : UInt32} {c : Csm} (hrg : c.iccpInfo.iccRgId = rg)
    (hlist : c.msgList = []) (hstate : c.currentState = .nonexistent)
    (hcap : c.iccpInfo.peerCapabilityFlag = false) (hconn : c.iccpInfo.peerRgConnectFlag = false) :
    Reached rg ⟨c, [], []⟩ where
  iccRgId := hrg
  sound := by simp [hlist]
  order := by simp [hlist]
  closed := fun _ => ⟨hstate, hlist⟩
  nonexistent := fun _ => ⟨hcap, hconn⟩
  capability := by
    rintro (h | h)
    · exact absurd (hcap.symm.trans h) Bool.false_ne_true
    · exact absurd (hstate ▸ h) not_late_nonexistent
  connected := fun h => absurd (hconn.symm.trans h) Bool.false_ne_true
  operational := fun h => by
    rw [hstate] at h
    cases h

theorem reached_start (rg : UInt32) (name : List UInt8) : Reached rg (start rg name) :=
  reached_fresh rfl rfl rfl rfl rfl

theorem reached_disconnect {rg : UInt32} {s : Session} (h : Reached rg s) :
    Reached rg ⟨s.csm.statusReset, [], []⟩ :=
  reached_fresh h.iccRgId rfl rfl rfl rfl

theorem reached_accept {rg : UInt32} {s : Session} {fd : Nat} (h : Reached rg s)
    (hfd : s.csm.sockFd ≤ 0) :
    Reached rg ⟨{ s.csm with sockFd := fd, currentState := .nonexistent }, [], []⟩ := by
  obtain ⟨hstate, hlist⟩ := h.closed hfd
  obtain ⟨hcap, hconn⟩ := h.nonexistent hstate
  exact reached_fresh h.iccRgId hlist rfl hcap hconn

theorem reached_receive {rg : UInt32} {s : Session} {m : Msg} (h : Reached rg s)
    (hfd : 0 < s.csm.sockFd) (hsound : Sound rg m) :
    Reached rg ⟨s.csm.enqueueMsg m, s.received ++ [m], s.handled⟩ := by
  unfold enqueueMsg
  split
  · exact
      { iccRgId := h.iccRgId
        sound := by
          intro m' hm'
          rcases List.mem_append.1 hm' with hm' | hm'
          · exact h.sound m' hm'
          · rw [List.mem_singleton.1 hm']
            exact hsound
        order := by
          rw [← List.append_assoc]
          exact h.order.append_right [m]
        closed := fun hle => absurd hfd (not_lt.2 hle)
        nonexistent := h.nonexistent
        capability := h.capability
        connected := h.connected
        operational := h.operational }
  · exact
      { iccRgId := h.iccRgId
        sound := h.sound
        order := h.order.trans (List.sublist_append_left _ _)
        closed := h.closed
        nonexistent := h.nonexistent
        capability := h.capability
        connected := h.connected
        operational := h.operational }

/-- One more message, handled while the list before was one of a connected peer or not. -/
theorem connectedBy_append {rg : UInt32} {msgs : List Msg} {m : Msg} {i : IccpInfo}
    (hsound : Sound rg m) (h : i.peerRgConnectFlag = true → ConnectedBy rg msgs)
    (hflag : (i.correspondFromMsg m.buf).peerRgConnectFlag = true) :
    ConnectedBy rg (msgs ++ [m]) := by
  rcases (i.correspond_peerRgConnect m.buf).1 hflag with hconn | ⟨hbefore, hdisc⟩
  · exact ⟨msgs, m, [], rfl, hsound.2 hconn, by simp⟩
  · obtain ⟨pre, m', post, rfl, hm', hpost⟩ := h hbefore
    refine ⟨pre, m', post ++ [m], by simp, hm', ?_⟩
    intro d hd
    rcases List.mem_append.1 hd with hd | hd
    · exact hpost d hd
    · rw [List.mem_singleton.1 hd]
      exact hdisc

/-- Before the handshake: a message is dropped, and no flag of the peer is set. -/
theorem reached_transit_nonexistent {rg : UInt32} {s : Session} {env : TransitEnv} {c' : Csm}
    (h : Reached rg s) (hstate : s.csm.currentState = .nonexistent)
    (hent : Entered ({ s.csm with msgList := s.csm.msgList.tail }.transitState
      s.csm.msgList.head? env).1 c') : Reached rg (s.transited c') := by
  obtain ⟨fd, hkeep, heq⟩ :=
    transitState_nonexistent (c := { s.csm with msgList := s.csm.msgList.tail })
      s.csm.msgList.head? env hstate
  rw [heq] at hent
  obtain ⟨hcap, hconn⟩ := h.nonexistent hstate
  have hlate : ¬Late c'.currentState := by
    rw [hent.currentState]
    simp only
    split_ifs <;> simp [Late]
  have hcap' : ¬c'.iccpInfo.peerCapabilityFlag = true := by
    intro hset
    rcases hent.peerCapability hset with hset | hset
    · exact absurd (hcap.symm.trans hset) Bool.false_ne_true
    · exact hlate (hent.currentState ▸ hset)
  have hconn' : ¬c'.iccpInfo.peerRgConnectFlag = true := by
    intro hset
    rcases hent.peerRgConnect hset with hset | hset
    · exact absurd (hconn.symm.trans hset) Bool.false_ne_true
    · exact hlate (.inr (.inr (hent.currentState.trans hset)))
  have htail : c'.msgList = s.csm.msgList.tail := hent.msgList
  have hreached : ∀ received handled : List Msg,
      (handled ++ s.csm.msgList.tail).Sublist received → Reached rg ⟨c', received, handled⟩ := by
    intro received handled horder
    exact
      { iccRgId := hent.iccRgId.trans h.iccRgId
        sound := by
          rw [htail]
          exact fun m hm => h.sound m (List.mem_of_mem_tail hm)
        order := by
          rw [htail]
          exact horder
        closed := by
          intro hle
          have hfd : fd ≤ 0 := hent.sockFd.symm.trans_le hle
          have hbefore : s.csm.sockFd ≤ 0 := by
            by_contra hpos
            exact hpos (hkeep (not_le.1 hpos) ▸ hfd)
          refine ⟨hent.currentState.trans (if_neg fun hok => absurd hok.1 (not_lt.2 hfd)), ?_⟩
          rw [htail, (h.closed hbefore).2]
          rfl
        nonexistent := fun _ => ⟨Bool.eq_false_iff.2 hcap', Bool.eq_false_iff.2 hconn'⟩
        capability := fun hor => absurd hor (not_or.2 ⟨hcap', hlate⟩)
        connected := fun hset => absurd hset hconn'
        operational := fun hop => absurd (.inr (.inr hop)) hlate }
  unfold transited
  split_ifs with hfd
  · apply hreached
    rw [(h.closed hfd).2]
    exact List.Sublist.refl []
  · apply hreached
    rw [handles, if_pos hstate, List.append_nil]
    exact ((List.tail_sublist _).append_left _).trans h.order

/-- During and after the handshake: the first message of the list is handled. -/
theorem reached_transit_alive {rg : UInt32} {s : Session} {env : TransitEnv} {c' : Csm}
    (h : Reached rg s) (hstate : s.csm.currentState ≠ .nonexistent)
    (hent : Entered ({ s.csm with msgList := s.csm.msgList.tail }.transitState
      s.csm.msgList.head? env).1 c') : Reached rg (s.transited c') := by
  have hmoved := transitState_moved (c := { s.csm with msgList := s.csm.msgList.tail })
    s.csm.msgList.head? env hstate
  generalize ({ s.csm with msgList := s.csm.msgList.tail }.transitState
    s.csm.msgList.head? env).1 = c₁ at hent hmoved
  have hfd : 0 < s.csm.sockFd := by
    by_contra hpos
    exact hstate (h.closed (not_lt.1 hpos)).1
  have hhandles : s.handles ++ s.csm.msgList.tail = s.csm.msgList := by
    rw [handles, if_neg hstate]
    cases s.csm.msgList <;> rfl
  -- what the message leaves of the facts about the flags
  have hinfo : c₁.iccpInfo.iccRgId = rg
      ∧ (c₁.iccpInfo.peerCapabilityFlag = true ∨ Late s.csm.currentState →
          ∃ m ∈ s.handled ++ s.handles, HasCapability m)
      ∧ (c₁.iccpInfo.peerRgConnectFlag = true → ConnectedBy rg (s.handled ++ s.handles)) := by
    rw [hmoved.iccpInfo]
    have hmem : ∀ hor, ∃ m ∈ s.handled ++ s.handles, HasCapability m := fun hor => by
      obtain ⟨m, hm, hcap⟩ := h.capability hor
      exact ⟨m, List.mem_append_left _ hm, hcap⟩
    cases hlist : s.csm.msgList with
    | nil =>
      have hnone : s.handles = [] := by
        rw [handles, if_neg hstate, hlist]
        rfl
      refine ⟨h.iccRgId, hmem, ?_⟩
      rw [hnone, List.append_nil]
      exact h.connected
    | cons m rest =>
      have hone : s.handles = [m] := by
        rw [handles, if_neg hstate, hlist]
        rfl
      have hsound : Sound rg m := h.sound m (by rw [hlist]; exact List.mem_cons_self)
      refine ⟨(s.csm.iccpInfo.correspond_iccRgId m.buf).trans h.iccRgId, ?_, ?_⟩
      · rintro (hset | hlate)
        · rcases (s.csm.iccpInfo.correspond_peerCapability m.buf).1 hset with hset | hcap
          · exact hmem (.inl hset)
          · exact ⟨m, by rw [hone]; simp, hsound.1 hcap⟩
        · exact hmem (.inr hlate)
      · rw [hone]
        exact connectedBy_append hsound h.connected
  obtain ⟨hrg, hcap, hconn⟩ := hinfo
  have hlate : Late c'.currentState → ∃ m ∈ s.handled ++ s.handles, HasCapability m := by
    intro hl
    rw [hent.currentState] at hl
    exact hcap (hmoved.late hl)
  unfold transited
  rw [if_neg (not_le.2 hfd)]
  exact
    { iccRgId := hent.iccRgId.trans hrg
      sound := by
        rw [hent.msgList, hmoved.msgList]
        exact fun m hm => h.sound m (List.mem_of_mem_tail hm)
      order := by
        rw [hent.msgList, hmoved.msgList, List.append_assoc, hhandles]
        exact h.order
      closed := fun hle => absurd hfd (not_lt.2 (by rw [← hmoved.sockFd, ← hent.sockFd]; exact hle))
      nonexistent := fun hno => absurd (hent.currentState.symm.trans hno) hmoved.alive
      capability := by
        rintro (hset | hl)
        · rcases hent.peerCapability hset with hset | hl
          · exact hcap (.inl hset)
          · exact hlate (hent.currentState.symm ▸ hl)
        · exact hlate hl
      connected := by
        intro hset
        rcases hent.peerRgConnect hset with hset | hop
        · exact hconn hset
        · exact hconn (hmoved.operational hop)
      operational := by
        intro hop
        exact hent.kept (hmoved.operational (hent.currentState.symm.trans hop)) }

theorem reached_next {rg : UInt32} {s s' : Session} {e : Event} (h : Reached rg s)
    (hok : Ok rg s e) (hstep : Step s e s') : Reached rg s' := by
  cases e with
  | accept fd =>
    rw [Step, next] at hstep
    split at hstep
    · next hfd =>
      obtain rfl := Option.some.inj hstep
      exact reached_accept h hfd.1
    · cases hstep
  | receive m =>
    rw [Step, next] at hstep
    split at hstep
    · next hfd =>
      obtain rfl := Option.some.inj hstep
      exact reached_receive h hfd ⟨fun hc => ⟨hc, hok.1 hc⟩, fun hc => ⟨hc, hok.2 hc⟩⟩
    · cases hstep
  | transit env =>
    obtain ⟨⟨c', out⟩, htransit, rfl⟩ := Option.map_eq_some_iff.1 hstep
    obtain ⟨-, hent⟩ := transit_cases htransit
    by_cases hstate : s.csm.currentState = .nonexistent
    · exact reached_transit_nonexistent h hstate hent
    · exact reached_transit_alive h hstate hent
  | disconnect =>
    obtain rfl := Option.some.inj hstep
    exact reached_disconnect h
  | send m =>
    obtain rfl := Option.some.inj hstep
    exact
      { iccRgId := h.iccRgId
        sound := h.sound
        order := h.order
        closed := h.closed
        nonexistent := h.nonexistent
        capability := h.capability
        connected := h.connected
        operational := h.operational }

end Session

open Session

/-- In every run in which each RG_CONNECT with a sender name is one of the configured RG, the
    state is `OPERATIONAL` only after the handshake. -/
theorem operational_of_run {rg : UInt32} {name : List UInt8} {es : List Event} {s : Session}
    (hrun : Run Step (Ok rg) (start rg name) es s) (hop : s.csm.currentState = .operational) :
    Handshake rg s := by
  have h : Reached rg s :=
    hrun.invariant (fun _ _ _ h hok hstep => reached_next h hok hstep) (reached_start rg name)
  exact ⟨(List.sublist_append_left _ _).trans h.order, h.capability (.inr (.inr (.inr hop))),
    h.connected (h.operational hop)⟩

/-- A peer with an RG id that has entered `INITIALIZED`. -/
def peer (rg : UInt32) : Csm := { Csm.start rg [0x70] with iccpInfo.senderCapabilityFlag := true }

/-- A transition that makes no connection. -/
def quiet : TransitEnv := ⟨none, true, 1⟩

/-- The capability and the RG_CONNECT of a peer. -/
def capabilityOf (rg : UInt32) : Event := .receive (Msg.ofBytes ((peer rg).prepareCapabilityMsg 1))

def rgConnectOf (rg : UInt32) : Event := .receive (Msg.ofBytes ((peer rg).prepareRgConnectMsg 2))

/-- A message of a type that is not known, with an RG id. -/
def unknownOf (rg : UInt32) : Event := .receive (Msg.ofBytes ((peer rg).iccHdr 3 0x0710 0))

/-- An accepted connection, up to the state `OPERATIONAL`. -/
theorem operational_same_rg :
    ∃ s, Run Step (Ok 1) (start 1 [])
        [.accept 5, .transit quiet, capabilityOf 1, rgConnectOf 1, .transit quiet,
          .transit quiet] s ∧
      s.csm.currentState = .operational ∧ Handshake 1 s := by
  refine exists_run_imp step_next (fun s => s.csm.currentState = .operational)
    (by decide +kernel) ?_
  intro s hrun hop
  exact ⟨hop, operational_of_run hrun hop⟩

/-- The RG_CONNECT is one of RG 2.  A message of RG 1 that is not even of a known type clears the
    status, and the flag is still set. -/
theorem operational_other_rg :
    ∃ s, Run Step (fun _ _ => True) (start 1 [])
        [.accept 5, .transit quiet, capabilityOf 2, rgConnectOf 2, .transit quiet, .transit quiet,
          unknownOf 1, .transit quiet] s ∧
      s.csm.currentState = .operational ∧ ∀ m ∈ s.received, ¬Connects 1 m :=
  exists_run step_next (by decide +kernel)

end SonicBuildimage.Iccpd.Conn
