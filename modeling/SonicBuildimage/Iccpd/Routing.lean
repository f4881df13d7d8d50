/-
  Where a message from the peer goes: `iccp_csm_enqueue_msg` (iccp_csm.c),
  `app_csm_enqueue_msg` (app_csm.c) and the log of sent messages that both search.

  Model.  A message is a block of memory of which the first `len` bytes were received; the
  functions are computations that also say which places they read (`Traced`).  A type that
  the source turns into host order in place is here read in network order.  `iccp_csm_send`
  writes the id, the message type and the TLV type of what it sends to a ring of 128 slots,
  before it writes to the socket.

  Proved:
  * `logged_of_carries`: for each mLACP TLV the type in the log is the type of the message,
    although the two bytes are swapped after the flag bits were cut off.
  * `rejected_of_recent`: the search for the id of one of the last 128 messages finds that
    message, as long as the ids in the log are different.
  * `nak_routed_iff`: the rejection of such a message goes to the mLACP queue exactly if the
    rejected TLV is not behind `TLV_T_MLACP_MAC_INFO`.  The rejections of the three TLVs that
    were added behind it, the last one of them `TLV_T_MLACP_IF_UP_ACK`, go to the queue of the
    application, while the TLVs themselves go to mLACP (`nak_of_ndisc_info`).

  Not modelled: the release of messages, a `csm` or a message that is `NULL`, and the
  counters and log lines of `iccp_csm_send`.
-/
import SonicBuildimage.Lib.RingBuffer
import SonicBuildimage.Lib.Traced

namespace SonicBuildimage.Iccpd

open SonicBuildimage.Lib
open SonicBuildimage.Lib.Traced

/-! ## Codes and layout (msg_format.h) -/

/-- `TLV_T_MLACP_*` -/
inductive MlacpTlv where
  | connect
  | disconnect
  | systemConfig
  | portConfig
  | portPriority
  | portState
  | aggregatorConfig
  | aggregatorState
  | syncRequest
  | syncData
  | heartbeat
  | disconnectCause
  | orphanPort
  | portChannelInfo
  | peerlinkInfo
  | arpInfo
  | stpInfo
  | macInfo
  | warmbootFlag
  | ndiscInfo
  | ifUpAck
  deriving DecidableEq

def MlacpTlv.code : MlacpTlv → Nat
  | connect => 0x0030
  | disconnect => 0x0031
  | systemConfig => 0x0032
  | portConfig => 0x0033
  | portPriority => 0x0034
  | portState => 0x0035
  | aggregatorConfig => 0x0036
  | aggregatorState => 0x0037
  | syncRequest => 0x0038
  | syncData => 0x0039
  | heartbeat => 0x003A
  | disconnectCause => 0x003B
  | orphanPort => 0x1033
  | portChannelInfo => 0x1034
  | peerlinkInfo => 0x1035
  | arpInfo => 0x1036
  | stpInfo => 0x1037
  | macInfo => 0x1038
  | warmbootFlag => 0x1039
  | ndiscInfo => 0x103A
  | ifUpAck => 0x103B

/-- `TLV_T_MLACP_LIST_END` -/
def tlvTMlacpListEnd : Nat := 0x104a

/-- `TLV_T_NAK` -/
def tlvTNak : Nat := 0x0002

/-- `MSG_T_CAPABILITY` -/
def msgTCapability : Nat := 0x0202

/-- `MSG_T_NOTIFICATION` -/
def msgTNotification : Nat := 0x0702

/-- `MSG_T_RG_APP_DATA` -/
def msgTRgAppData : Nat := 0x0703

/-- `MAX_MSG_LOG_SIZE` -/
def maxMsgLogSize : Nat := 128

/-- `sizeof(LDPHdr)` -/
def sizeofLDPHdr : Nat := 8

/-- `sizeof(ICCHdr)` -/
def sizeofICCHdr : Nat := 16

/-- `icc_hdr->ldp_hdr.msg_type`, without the U-bit. -/
def msgType (m : Nat → UInt8) : Traced Nat := do
  let v ← be16 m 0
  pure (v % 2 ^ 15)

/-- `icc_param->type`, without the U-bit and the F-bit. -/
def paramType (m : Nat → UInt8) : Traced Nat := do
  let v ← be16 m sizeofICCHdr
  pure (v % 2 ^ 14)

/-- `ldp_hdr->msg_id` -/
def msgId (m : Nat → UInt8) : Traced Nat := be32 m 4

/-- `naktlv->rejected_msg_id` -/
def rejectedMsgId (m : Nat → UInt8) : Traced Nat := be32 m (sizeofICCHdr + 8)

/-! ## The log of sent messages -/

structure MsgTypeSet where
  msgId : Nat
  type : Nat
  tlv : Nat
  deriving DecidableEq

/-- `struct MsgLog` -/
abbrev MsgLog := RingBuffer MsgTypeSet

/-- The log after `iccp_csm_status_reset`. -/
def MsgLog.reset : MsgLog := RingBuffer.fill maxMsgLogSize ⟨0, 0, 0⟩ (by decide)

/-- `ntohs` of the low `16 - flags` bits of the two bytes, which on the sending side are still
    in network order: the flag bits are cut off from the second byte. -/
def swapped (m : Nat → UInt8) (i flags : Nat) : Nat :=
  (m i).toNat * 256 + (m (i + 1)).toNat % 2 ^ (8 - flags)

/-- What `iccp_csm_send` writes to the log. -/
def logged (buf : Nat → UInt8) : MsgTypeSet :=
  let type := swapped buf 0 1
  let param := if type = msgTCapability then sizeofLDPHdr else sizeofICCHdr
  ⟨(msgId buf).val, type, swapped buf param 2⟩

/-- A call of `iccp_csm_send`, with the result of `write`. -/
structure Send where
  buf : Nat → UInt8
  msgLen : Int
  rc : Int

/-- `MCLAG_ERROR` -/
def mclagError : Int := -1

/-- `iccp_csm_send`: the log afterwards, and what it returns. -/
def iccpCsmSend (sockFd : Int) (log : MsgLog) (s : Send) : MsgLog × Int :=
  if sockFd ≤ 0 ∨ s.msgLen ≤ 0 then (log, mclagError) else (log.push (logged s.buf), s.rc)

/-- The log after some messages. -/
def sendAll (sockFd : Int) (log : MsgLog) (sends : List Send) : MsgLog :=
  sends.foldl (fun log s => (iccpCsmSend sockFd log s).1) log

/-- The slot with an id, the first one. -/
def MsgLog.rejected (log : MsgLog) (id : Nat) : Option MsgTypeSet :=
  log.slots.find? fun e => e.msgId = id

/-! ## Routing -/

/-- The list that a message is put into. -/
inductive Queue where
  /-- `csm->msg_list` -/
  | icc
  /-- `csm->app_csm.app_msg_list` -/
  | app
  /-- `MLACP(csm).mlacp_msg_list` -/
  | mlacp
  /-- none -/
  | ignored
  deriving DecidableEq

/-- The TLV type that `app_csm_enqueue_msg` finds in the log, or -1. -/
def nakTlv (log : MsgLog) (id : Nat) : Int :=
  match log.rejected id with
  | some e => e.tlv
  | none => -1

/-- The message type that `iccp_csm_enqueue_msg` finds in the log, or -1. -/
def nakType (log : MsgLog) (id : Nat) : Int :=
  match log.rejected id with
  | some e => e.type
  | none => -1

def appCsmEnqueueMsg (log : MsgLog) (m : Nat → UInt8) : Traced Queue := do
  let param ← paramType m
  let type ← msgType m
  if type = msgTRgAppData then
    if param > MlacpTlv.connect.code ∧ param < tlvTMlacpListEnd then pure .mlacp else pure .app
  else if type = msgTNotification then do
    -- the loop reads the id again for each slot
    let id ← rejectedMsgId m
    let tlv := nakTlv log id
    if tlv > MlacpTlv.connect.code ∧ tlv ≤ MlacpTlv.macInfo.code then pure .mlacp else pure .app
  else pure .ignored

def iccpCsmEnqueueMsg (log : MsgLog) (m : Nat → UInt8) : Traced Queue := do
  let type ← msgType m
  if type = msgTRgAppData then appCsmEnqueueMsg log m
  else if type = msgTNotification then do
    let id ← rejectedMsgId m
    if nakType log id = msgTRgAppData then appCsmEnqueueMsg log m else pure .icc
  else pure .icc

/-! ## What the log holds -/

/-- A message with an mLACP TLV, as `mlacp_fill_icc_header` and the `mlacp_prepare_for_*`
    functions write it. -/
def Carries (buf : Nat → UInt8) (t : MlacpTlv) : Prop :=
  (be16 buf 0).val = msgTRgAppData ∧ (be16 buf sizeofICCHdr).val = t.code

instance (buf : Nat → UInt8) (t : MlacpTlv) : Decidable (Carries buf t) :=
  inferInstanceAs (Decidable (_ ∧ _))

/-- The second byte of a code leaves the places of the flag bits free. -/
theorem code_lo (t : MlacpTlv) : t.code % 256 < 64 := by
  cases t <;> decide

/-- Two bytes of which the second leaves the flag bits free are logged unchanged. -/
theorem swapped_eq {m : Nat → UInt8} {i flags v : Nat} (hv : (be16 m i).val = v)
    (hlo : v % 256 < 2 ^ (8 - flags)) : swapped m i flags = v := by
  rw [val_be16] at hv
  have hlt : (m (i + 1)).toNat < 256 := (m (i + 1)).toNat_lt
  have hmod : (m (i + 1)).toNat = v % 256 := by omega
  unfold swapped
  rw [Nat.mod_eq_of_lt (by omega)]
  exact hv

theorem logged_of_carries {buf : Nat → UInt8} {t : MlacpTlv} (h : Carries buf t) :
    logged buf = ⟨(msgId buf).val, msgTRgAppData, t.code⟩ := by
  have htype : swapped buf 0 1 = msgTRgAppData := swapped_eq h.1 (by decide)
  have htlv : swapped buf sizeofICCHdr 2 = t.code := swapped_eq h.2 (code_lo t)
  unfold logged
  simp only [htype, if_neg (by decide : ¬msgTRgAppData = msgTCapability), htlv]

theorem sendAll_eq {sockFd : Int} (hfd : 0 < sockFd) (log : MsgLog) {sends : List Send}
    (hlen : ∀ s ∈ sends, 0 < s.msgLen) :
    sendAll sockFd log sends = log.pushAll (sends.map fun s => logged s.buf) := by
  induction sends generalizing log with
  | nil => rfl
  | cons s sends ih =>
    have hs := hlen s List.mem_cons_self
    have hsend : (iccpCsmSend sockFd log s).1 = log.push (logged s.buf) := by
      unfold iccpCsmSend
      rw [if_neg (by omega)]
    rw [sendAll, List.foldl_cons, hsend]
    exact ih _ fun s' h' => hlen s' (List.mem_cons_of_mem s h')

/-- The id of message `k` is not used for another message in the log, and not the one of a
    slot that has never been written.  `ICCP_MSG_ID` counts up from 1, so this is so as long
    as it has not come round. -/
def Fresh (ids : List Nat) (k : Nat) : Prop :=
  ∀ id, ids[k]? = some id → (ids.length < maxMsgLogSize → id ≠ 0) ∧
    ∀ j < ids.length, ids.length ≤ j + maxMsgLogSize → ids[j]? = some id → j = k

def idsOf (sends : List Send) : List Nat := sends.map fun s => (msgId s.buf).val

/-- The log after a reset and some messages. -/
def logOf (sends : List Send) : MsgLog := MsgLog.reset.pushAll (sends.map fun s => logged s.buf)

/-- The search in the log finds the message with the id. -/
theorem rejected_of_recent {sends : List Send} {k : Nat} {s : Send} (hk : sends[k]? = some s)
    (hrecent : sends.length ≤ k + maxMsgLogSize) (hfresh : Fresh (idsOf sends) k) :
    (logOf sends).rejected (msgId s.buf).val = some (logged s.buf) := by
  have hlt : k < sends.length := (List.getElem?_eq_some_iff.1 hk).1
  have hid : (idsOf sends)[k]? = some (msgId s.buf).val := by
    rw [idsOf, List.getElem?_map, hk, Option.map_some]
  obtain ⟨hzero, hother⟩ := hfresh _ hid
  rw [idsOf, List.length_map] at hzero hother
  -- the message is in its slot, so something with the id is found
  have hslot : logged s.buf ∈ (logOf sends).slots := by
    have hget : (logOf sends).slots[k % maxMsgLogSize]? = (sends.map fun s => logged s.buf)[k]? :=
      RingBuffer.getElem?_pushAll (by rw [List.length_map]; exact hlt)
        (by rw [List.length_map]; exact hrecent)
    rw [List.getElem?_map, hk, Option.map_some] at hget
    exact List.mem_of_getElem? hget
  have hsome : ((logOf sends).rejected (msgId s.buf).val).isSome := by
    unfold MsgLog.rejected
    rw [List.find?_isSome]
    exact ⟨_, hslot, decide_eq_true rfl⟩
  obtain ⟨e, he⟩ := Option.isSome_iff_exists.1 hsome
  have heid : e.msgId = (msgId s.buf).val := by
    have := List.find?_some he
    exact of_decide_eq_true this
  rw [he]
  -- and whatever is found is the message, since no other one in the ring has the id
  rcases RingBuffer.mem_pushAll (List.mem_of_find?_eq_some he) with ⟨hfew, hd⟩ | ⟨j, hj, hget⟩
  · rw [List.length_map] at hfew
    rw [hd] at heid
    exact absurd heid.symm (hzero hfew)
  · rw [List.length_map] at hj
    rw [List.getElem?_map, Option.map_eq_some_iff] at hget
    obtain ⟨s', hs', rfl⟩ := hget
    have hjlt : j < sends.length := (List.getElem?_eq_some_iff.1 hs').1
    have hidj : (idsOf sends)[j]? = some (msgId s.buf).val := by
      rw [idsOf, List.getElem?_map, hs', Option.map_some]
      exact congrArg some heid
    rw [hother j hjlt hj hidj, hk] at hs'
    rw [Option.some.inj hs']

/-! ## Rejections -/

/-- A rejection of the message with an id. -/
structure Rejects (m : Nat → UInt8) (id : Nat) : Prop where
  type : (msgType m).val = msgTNotification
  rejected : (rejectedMsgId m).val = id

theorem enqueue_nak {log : MsgLog} {m : Nat → UInt8} {id : Nat} {e : MsgTypeSet}
    (hm : Rejects m id) (he : log.rejected id = some e) (hdata : e.type = msgTRgAppData) :
    (iccpCsmEnqueueMsg log m).val
      = if e.tlv > MlacpTlv.connect.code ∧ e.tlv ≤ MlacpTlv.macInfo.code then .mlacp
        else .app := by
  have hne : ¬msgTNotification = msgTRgAppData := by decide
  have htype : nakType log id = msgTRgAppData := by
    rw [nakType, he]
    exact congrArg Nat.cast hdata
  have htlv : nakTlv log id = e.tlv := by
    rw [nakTlv, he]
  rw [iccpCsmEnqueueMsg, val_bind, hm.type, if_neg hne, if_pos rfl, val_bind, hm.rejected,
    if_pos htype, appCsmEnqueueMsg, val_bind, val_bind, hm.type, if_neg hne, if_pos rfl,
    val_bind, hm.rejected, htlv]
  by_cases h : e.tlv > MlacpTlv.connect.code ∧ e.tlv ≤ MlacpTlv.macInfo.code
  · rw [if_pos h, if_pos (by omega)]
    rfl
  · rw [if_neg h, if_neg (by omega)]
    rfl

/-- The rejection of one of the last 128 messages goes to mLACP, and its TLV type is found in
    the log, exactly if the TLV is not behind `TLV_T_MLACP_MAC_INFO` (and is not the one that
    connects the application). -/
theorem nak_routed_iff {sockFd : Int} (hfd : 0 < sockFd) {sends : List Send}
    (hlen : ∀ s ∈ sends, 0 < s.msgLen) {k : Nat} {s : Send} (hk : sends[k]? = some s)
    (hrecent : sends.length ≤ k + maxMsgLogSize) (hfresh : Fresh (idsOf sends) k)
    {t : MlacpTlv} (ht : Carries s.buf t) {m : Nat → UInt8} (hm : Rejects m (msgId s.buf).val) :
    ((iccpCsmEnqueueMsg (sendAll sockFd MsgLog.reset sends) m).val = .mlacp ∧
        nakTlv (sendAll sockFd MsgLog.reset sends) (rejectedMsgId m).val = t.code) ↔
      t.code > MlacpTlv.connect.code ∧ t.code ≤ MlacpTlv.macInfo.code := by
  have hlog : sendAll sockFd MsgLog.reset sends = logOf sends := sendAll_eq hfd _ hlen
  have hfound := rejected_of_recent hk hrecent hfresh
  rw [logged_of_carries ht] at hfound
  have htlv : nakTlv (logOf sends) (rejectedMsgId m).val = t.code := by
    rw [hm.rejected, nakTlv, hfound]
  rw [hlog, enqueue_nak hm hfound rfl]
  constructor
  · rintro ⟨hq, -⟩
    by_contra hno
    rw [if_neg hno] at hq
    exact absurd hq (by decide)
  · intro h
    exact ⟨if_pos h, htlv⟩

/-- A message as a block of memory that is zero behind it. -/
def memOf (bs : List UInt8) : Nat → UInt8 := fun i => bs.getD i 0

/-- The start of a message with a TLV: its header and the type of its parameter. -/
def tlvMsg (id : UInt8) (t : MlacpTlv) : List UInt8 :=
  [0x07, 0x03, 0, 14, 0, 0, 0, id, 0, 5, 0, 4, 0, 0, 0, 1,
    UInt8.ofNat (t.code / 256), UInt8.ofNat (t.code % 256)]

/-- A rejection, as `app_csm_prepare_nak_msg` writes it. -/
def nakMsg (id : UInt8) : List UInt8 :=
  [0x07, 0x02, 0, 24, 0, 0, 0, 9, 0, 5, 0, 4, 0, 0, 0, 1,
    0, 2, 0, 8, 0, 1, 0, 6, 0, 0, 0, id]

/-- Two messages of which the first has the id 1 and the TLV `t`. -/
def twoSends (t : MlacpTlv) : List Send :=
  [⟨memOf (tlvMsg 1 t), 18, 18⟩, ⟨memOf (tlvMsg 2 .heartbeat), 18, 18⟩]

/-- The rejection of MAC information goes to mLACP. -/
theorem nak_of_mac_info :
    (iccpCsmEnqueueMsg (sendAll 5 MsgLog.reset (twoSends .macInfo)) (memOf (nakMsg 1))).val
        = .mlacp ∧
      nakTlv (sendAll 5 MsgLog.reset (twoSends .macInfo))
        (rejectedMsgId (memOf (nakMsg 1))).val = MlacpTlv.macInfo.code := by
  have hfresh : Fresh (idsOf (twoSends .macInfo)) 0 := by
    intro id hid
    obtain rfl : 1 = id := Option.some.inj hid
    refine ⟨fun _ => by decide, ?_⟩
    decide
  have hmsgId : (msgId (memOf (tlvMsg 1 .macInfo))).val = 1 := by decide
  refine (nak_routed_iff (by decide) ?_ rfl (by decide) hfresh (t := .macInfo) (by decide)
    ?_).2 (by decide)
  · intro s hs
    rcases List.mem_pair.1 hs with rfl | rfl
    · decide
    · decide
  · rw [hmsgId]
    exact ⟨by decide, by decide⟩

/-- The rejection of ND information does not, although ND information itself does. -/
theorem nak_of_ndisc_info :
    (iccpCsmEnqueueMsg (sendAll 5 MsgLog.reset (twoSends .ndiscInfo)) (memOf (nakMsg 1))).val
        = .app ∧
      (iccpCsmEnqueueMsg MsgLog.reset (memOf (tlvMsg 1 .ndiscInfo))).val = .mlacp := by
  decide +kernel

end SonicBuildimage.Iccpd
