/-
  The handshake of two ICCP peers: two connection state machines (`Csm`) with a channel in each
  direction.

  Model.  The client connects in one of its transitions, the server accepts, and a message that
  one of them sends is delivered to the other one in the order of sending.  A socket that has
  been opened since the last transition of its side is marked (`fresh`): in `scheduler_loop` a
  socket is read only when `epoll_wait` reports it, which is after the round that opened it,
  and every round ends with a transition.

  An abstract machine (`move`) says what the handshake is for: each side sends its capability
  and then its RG_CONNECT, and takes those of the other one.  A `csm` with the messages of such
  a peer does the moves of this machine (`transit_move`), and what a side has sent is what the
  other one has taken and what is still on the way (`Conserved`).

  Proved: `not_stuck_of_run`.  Two peers with the same RG id never come to a point at which
  nothing is on the way, neither can go on, and one of them is not operational.  If a message
  were delivered before the first transition on the new socket, it would be dropped and the
  other side would wait for ever (`stuck_fresh`).  A side is operational only when the other one
  has sent both messages (`operational_agrees`).

  Not modelled: the heartbeats, which go to another queue.
-/
import SonicBuildimage.Iccpd.Csm

namespace SonicBuildimage.Iccpd.Conn

open SonicBuildimage.Lib
open SonicBuildimage.Lib.Traced

/-! ## The abstract machine -/

/-- The messages of the handshake. -/
inductive Kind where
  | capability
  | rgConnect
  deriving DecidableEq

/-- A move of one side with the message it takes, if there is one: the next state, and what it
    sends. -/
def move : State → Option Kind → State × Option Kind
  | .nonexistent, _ => (.initialized, none)
  | .initialized, none => (.capsent, some .capability)
  | .initialized, some _ => (.caprec, some .capability)
  | .capsent, none => (.capsent, none)
  | .capsent, some _ => (.caprec, none)
  | .caprec, none => (.connecting, some .rgConnect)
  | .caprec, some _ => (.operational, some .rgConnect)
  | .connecting, none => (.connecting, none)
  | .connecting, some _ => (.operational, none)
  | .operational, _ => (.operational, none)

/-- What a side has sent when it is in a state. -/
def sent : State → List Kind
  | .nonexistent => []
  | .initialized => []
  | .capsent => [.capability]
  | .caprec => [.capability]
  | .connecting => [.capability, .rgConnect]
  | .operational => [.capability, .rgConnect]

/-- What a side has taken when it is in a state. -/
def taken : State → List Kind
  | .nonexistent => []
  | .initialized => []
  | .capsent => []
  | .caprec => [.capability]
  | .connecting => [.capability]
  | .operational => [.capability, .rgConnect]

/-- The message, if there is one, is the next one that a side in this state has to take. -/
def Expected (s : State) (msg : Option Kind) : Prop :=
  s ≠ .nonexistent ∧ taken s ++ msg.toList <+: [.capability, .rgConnect]

instance (s : State) (msg : Option Kind) : Decidable (Expected s msg) :=
  inferInstanceAs (Decidable (_ ∧ _))

theorem sent_move (s : State) (msg : Option Kind) :
    sent (move s msg).1 = sent s ++ (move s msg).2.toList := by
  cases s <;> cases msg <;> rfl

theorem taken_move {s : State} {msg : Option Kind} (h : Expected s msg) :
    taken (move s msg).1 = taken s ++ msg.toList := by
  rcases msg with _ | _ | _ <;> cases s <;> first | rfl | exact absurd h (by decide)

/-- No side sends anything else than the two messages. -/
theorem sent_le (s : State) : sent s <+: [.capability, .rgConnect] := by
  cases s <;> decide

/-! ## Messages of the handshake -/

/-- A message of a kind, from a peer with an RG id. -/
def IsKind (rg : UInt32) : Kind → Msg → Prop
  | .capability, m => IsCapability m.buf
  | .rgConnect, m => IsRgConnect m.buf ∧ rgId m.buf = rg.toNat

theorem val_be16Bytes {m : Nat → UInt8} {i v : Nat} (hhi : m i = UInt8.ofNat (v / 2 ^ 8))
    (hlo : m (i + 1) = UInt8.ofNat v) : (be16 m i).val = v % 2 ^ 16 := by
  rw [val_be16, hhi, hlo, UInt8.toNat_ofNat', UInt8.toNat_ofNat']
  omega

/-- The capability message is one for the peer. -/
theorem isKind_capability {rg : UInt32} {c : Csm} (id : UInt32)
    (h : c.iccpInfo.senderCapabilityFlag = true) :
    IsKind rg .capability (Msg.ofBytes (c.prepareCapabilityMsg id)) := by
  have htype : (be16 (Msg.ofBytes (c.prepareCapabilityMsg id)).buf 0).val
      = msgTCapability % 2 ^ 16 :=
    val_be16Bytes rfl rfl
  have hparam : (be16 (Msg.ofBytes (c.prepareCapabilityMsg id)).buf sizeofLDPHdr).val
      = (2 ^ 15 + tlvTIccpCapability) % 2 ^ 16 :=
    val_be16Bytes rfl rfl
  have hlen : (be16 (Msg.ofBytes (c.prepareCapabilityMsg id)).buf (sizeofLDPHdr + 2)).val
      = tlvLIccpCapability % 2 ^ 16 :=
    val_be16Bytes rfl rfl
  have hsbit : (be16 (Msg.ofBytes (c.prepareCapabilityMsg id)).buf (sizeofLDPHdr + 4)).val
      = (if c.iccpInfo.senderCapabilityFlag then 2 ^ 15 else 0) % 2 ^ 16 :=
    val_be16Bytes rfl rfl
  refine ⟨?_, ?_, hlen, ?_, rfl, rfl⟩
  · rw [msgType, val_bind, htype]
    rfl
  · rw [param, hparam]
    rfl
  · rw [hsbit, if_pos h]
    rfl

/-- The RG_CONNECT message is one for a peer with the same RG id. -/
theorem isKind_rgConnect {rg : UInt32} {c : Csm} (id : UInt32) (h : c.iccpInfo.iccRgId = rg) :
    IsKind rg .rgConnect (Msg.ofBytes (c.prepareRgConnectMsg id)) := by
  have htype : (be16 (Msg.ofBytes (c.prepareRgConnectMsg id)).buf 0).val
      = msgTRgConnect % 2 ^ 16 :=
    val_be16Bytes rfl rfl
  have hparam : (be16 (Msg.ofBytes (c.prepareRgConnectMsg id)).buf sizeofICCHdr).val
      = tlvTIccSenderName % 2 ^ 16 :=
    val_be16Bytes rfl rfl
  have hhi : (be16 (Msg.ofBytes (c.prepareRgConnectMsg id)).buf (sizeofLDPHdr + 4)).val
      = c.iccpInfo.iccRgId.toNat / 2 ^ 16 % 2 ^ 16 :=
    val_be16Bytes rfl rfl
  have hlo : (be16 (Msg.ofBytes (c.prepareRgConnectMsg id)).buf (sizeofLDPHdr + 4 + 2)).val
      = c.iccpInfo.iccRgId.toNat % 2 ^ 16 :=
    val_be16Bytes rfl rfl
  refine ⟨⟨?_, ?_⟩, ?_⟩
  · rw [msgType, val_bind, htype]
    rfl
  · rw [Csm.SenderNameTlv, param, hparam]
    rfl
  · have hlt : c.iccpInfo.iccRgId.toNat < 2 ^ 32 := c.iccpInfo.iccRgId.toNat_lt
    rw [rgId, be32, val_bind, val_bind, val_pure, hhi, hlo, ← h]
    omega

/-- What the capability of the peer changes. -/
theorem correspond_capability {m : Nat → UInt8} (i : IccpInfo) (h : IsCapability m) :
    i.correspondFromMsg m = { i with peerCapabilityFlag := true } := by
  unfold IccpInfo.correspondFromMsg IccpInfo.checkIdFromMsg IccpInfo.correspondFromCapabilityMsg
  simp only [h.1, if_true, h.2]

/-- What the RG_CONNECT of a peer with the same RG id changes. -/
theorem correspond_rgConnect {m : Nat → UInt8} {i : IccpInfo} (h : IsRgConnect m)
    (hrg : rgId m = i.iccRgId.toNat) (hstatus : i.statusCode = 0) :
    i.correspondFromMsg m = { i with peerRgConnectFlag := true } := by
  have hne : msgTRgConnect ≠ msgTCapability := by decide
  have hzero : (0 : Nat) ≠ statusCodeUIccpRg := by decide
  unfold IccpInfo.correspondFromMsg IccpInfo.checkIdFromMsg IccpInfo.correspondFromRgConnectMsg
  simp only [h.1, if_neg hne, if_true, hrg, hstatus, if_neg hzero, h.2]

/-! ## The state machine makes the moves -/

/-- The flags of the peer say what has been taken, and the RG ids were the same. -/
structure Took (rg : UInt32) (msgs : List Kind) (i : IccpInfo) : Prop where
  iccRgId : i.iccRgId = rg
  statusCode : i.statusCode = 0
  peerCapability : i.peerCapabilityFlag = decide (Kind.capability ∈ msgs)
  peerRgConnect : i.peerRgConnectFlag = decide (Kind.rgConnect ∈ msgs)

/-- A `csm` in a handshake. -/
structure Shape (rg : UInt32) (c : Csm) : Prop where
  took : Took rg (taken c.currentState) c.iccpInfo
  sockFd : c.currentState ≠ .nonexistent → 0 < c.sockFd
  senderCapability : c.currentState = .initialized ∨ c.currentState = .capsent →
    c.iccpInfo.senderCapabilityFlag = true
  senderRgConnect : c.currentState = .operational → c.iccpInfo.senderRgConnectFlag = true

theorem shape_start (rg : UInt32) (name : List UInt8) : Shape rg (Csm.start rg name) :=
  ⟨⟨rfl, rfl, rfl, rfl⟩, fun h => absurd rfl h, by simp [Csm.start, Csm.statusReset],
    by simp [Csm.start, Csm.statusReset]⟩

/-- A message, or none, of the kind given. -/
def IsMsg (rg : UInt32) : Option Kind → Option Msg → Prop := Option.Rel (IsKind rg)

/-- Handling a message of the handshake adds it to what was taken, and keeps the flags of the
    sender. -/
theorem took_correspond {rg : UInt32} {msgs : List Kind} {c : Csm} {k : Option Kind}
    {msg : Option Msg} (h : Took rg msgs c.iccpInfo) (hmsg : IsMsg rg k msg) :
    Took rg (msgs ++ k.toList) (c.correspondFromMsg msg).iccpInfo
      ∧ (c.correspondFromMsg msg).iccpInfo.senderCapabilityFlag
          = c.iccpInfo.senderCapabilityFlag
      ∧ (c.correspondFromMsg msg).iccpInfo.senderRgConnectFlag
          = c.iccpInfo.senderRgConnectFlag := by
  cases hmsg with
  | none =>
    rw [Option.toList_none, List.append_nil]
    exact ⟨h, rfl, rfl⟩
  | @some k m hkind =>
    rw [Csm.correspondFromMsg, Option.toList_some]
    cases k with
    | capability =>
      rw [correspond_capability _ hkind]
      exact ⟨⟨h.iccRgId, h.statusCode, by simp, by simp [h.peerRgConnect]⟩, rfl, rfl⟩
    | rgConnect =>
      have hrg : rgId m.buf = c.iccpInfo.iccRgId.toNat := by
        rw [h.iccRgId]
        exact hkind.2
      rw [correspond_rgConnect hkind.1 hrg h.statusCode]
      exact ⟨⟨h.iccRgId, h.statusCode, by simp [h.peerCapability], by simp⟩, rfl, rfl⟩

/-- A message that is sent on an open socket. -/
theorem sendIccpMsg_some {c : Csm} {id : UInt32} {bytes : List UInt8}
    (h : c.prepareIccpMsg id = some bytes) (hfd : 0 < c.sockFd) :
    ∃ log, c.sendIccpMsg id = ({ c with msgLog := log }, some (Msg.ofBytes bytes)) := by
  rw [Csm.sendIccpMsg, h]
  simp only [if_neg (not_le.2 hfd)]
  exact ⟨_, rfl⟩

theorem sendIccpMsg_none {c : Csm} {id : UInt32} (h : c.prepareIccpMsg id = none) :
    c.sendIccpMsg id = (c, none) := by
  rw [Csm.sendIccpMsg, h]

/-- The first switch of a transition makes the move. -/
theorem transitState_move {rg : UInt32} {c : Csm} {k : Option Kind} {msg : Option Msg}
    (env : TransitEnv) (h : Shape rg c) (hmsg : IsMsg rg k msg) (hexp : Expected c.currentState k) :
    (c.transitState msg env).1.currentState = (move c.currentState k).1
      ∧ IsMsg rg (move c.currentState k).2 (c.transitState msg env).2 := by
  obtain ⟨htook, hcap, hconn⟩ := took_correspond h.took hmsg
  have hfd : 0 < (c.correspondFromMsg msg).sockFd := by
    rw [Csm.correspondFromMsg_sockFd]
    exact h.sockFd hexp.1
  have hstate' := Csm.correspondFromMsg_currentState c msg
  generalize hd : c.correspondFromMsg msg = d at htook hcap hconn hfd hstate'
  unfold Csm.transitState
  cases hstate : c.currentState with
  | nonexistent => exact absurd hstate hexp.1
  | initialized =>
    have hsender : d.iccpInfo.senderCapabilityFlag = true :=
      hcap.trans (h.senderCapability (.inl hstate))
    have hprep : d.prepareIccpMsg env.iccpMsgId = some (d.prepareCapabilityMsg env.iccpMsgId) := by
      rw [Csm.prepareIccpMsg, hstate', hstate]
    obtain ⟨log, hsend⟩ := sendIccpMsg_some hprep hfd
    have hkind : IsKind rg .capability _ := isKind_capability env.iccpMsgId hsender
    have hout := Option.Rel.some hkind
    simp only [hd, hsend, hsender, htook.peerCapability, hstate]
    rcases k with _ | _ | _
    · exact ⟨rfl, hout⟩
    · exact ⟨rfl, hout⟩
    · exact absurd hexp (by rw [hstate]; decide)
  | capsent =>
    have hsender : d.iccpInfo.senderCapabilityFlag = true :=
      hcap.trans (h.senderCapability (.inr hstate))
    simp only [hd, hsender, htook.peerCapability, hstate]
    rcases k with _ | _ | _
    · exact ⟨hstate'.trans hstate, Option.Rel.none⟩
    · exact ⟨rfl, Option.Rel.none⟩
    · exact absurd hexp (by rw [hstate]; decide)
  | caprec =>
    have hprep : d.prepareIccpMsg env.iccpMsgId = some (d.prepareRgConnectMsg env.iccpMsgId) := by
      rw [Csm.prepareIccpMsg, hstate', hstate]
      simp only [htook.statusCode, lt_irrefl, if_false]
    obtain ⟨log, hsend⟩ := sendIccpMsg_some hprep hfd
    have hout := Option.Rel.some (isKind_rgConnect env.iccpMsgId htook.iccRgId)
    simp only [hd, hsend, htook.statusCode, htook.peerRgConnect, hstate]
    rcases k with _ | _ | _
    · exact ⟨rfl, hout⟩
    · exact absurd hexp (by rw [hstate]; decide)
    · exact ⟨rfl, hout⟩
  | connecting =>
    have hprep : d.prepareIccpMsg env.iccpMsgId = none := by
      rw [Csm.prepareIccpMsg, hstate', hstate]
      simp only [htook.statusCode, lt_irrefl, if_false]
    simp only [hd, sendIccpMsg_none hprep, htook.statusCode, htook.peerRgConnect, hstate]
    rcases k with _ | _ | _
    · exact ⟨hstate'.trans hstate, Option.Rel.none⟩
    · exact absurd hexp (by rw [hstate]; decide)
    · exact ⟨rfl, Option.Rel.none⟩
  | operational =>
    have hsender : d.iccpInfo.senderRgConnectFlag = true :=
      hconn.trans (h.senderRgConnect hstate)
    simp only [hd, hsender, htook.peerRgConnect, hstate]
    rcases k with _ | _ | _
    · exact ⟨hstate'.trans hstate, Option.Rel.none⟩
    · exact absurd hexp (by rw [hstate]; decide)
    · exact absurd hexp (by rw [hstate]; decide)

/-- The function for the new state sets the flags of the sender, and those of the peer only to
    what they are. -/
theorem enterState_shape {rg : UInt32} {c : Csm} (htook : Took rg (taken c.currentState) c.iccpInfo)
    (hfd : 0 < c.sockFd) (halive : c.currentState ≠ .nonexistent)
    (hsender : c.currentState = .capsent → c.iccpInfo.senderCapabilityFlag = true) :
    ∃ c', c.enterState = some c' ∧ Shape rg c' := by
  unfold Csm.enterState
  cases hstate : c.currentState with
  | nonexistent => exact absurd hstate halive
  | initialized =>
    rw [hstate] at htook
    exact ⟨_, rfl, ⟨htook.1, htook.2, htook.3, htook.4⟩, fun _ => hfd, fun _ => rfl, by simp⟩
  | capsent =>
    refine ⟨_, rfl, htook, fun _ => hfd, fun _ => hsender hstate, ?_⟩
    rw [hstate]
    simp
  | caprec =>
    rw [hstate] at htook
    exact ⟨_, rfl, ⟨htook.1, htook.2, rfl, htook.4⟩, fun _ => hfd, by simp, by simp⟩
  | connecting =>
    rw [hstate] at htook
    exact ⟨_, rfl, ⟨htook.1, htook.2, htook.3, htook.4⟩, fun _ => hfd, by simp, by simp⟩
  | operational =>
    rw [hstate] at htook
    exact ⟨_, rfl, ⟨htook.1, htook.2, htook.3, rfl⟩, fun _ => hfd, by simp, fun _ => rfl⟩

theorem move_capsent {s : State} {k : Option Kind} (h : (move s k).1 = .capsent) :
    s = .initialized ∨ s = .capsent := by
  rcases k with _ | _ | _ <;> cases s <;> simp [move] at h ⊢

/-- A transition of a side that has left `NONEXISTENT` is a move. -/
theorem transit_move {rg : UInt32} {c : Csm} {k : Option Kind} (env : TransitEnv)
    (h : Shape rg c) (hmsg : IsMsg rg k c.msgList.head?) (hexp : Expected c.currentState k) :
    ∃ c' out, c.transit env = some (c', out) ∧ Shape rg c'
      ∧ c'.currentState = (move c.currentState k).1 ∧ c'.msgList = c.msgList.tail
      ∧ c'.sockFd = c.sockFd ∧ IsMsg rg (move c.currentState k).2 out := by
  have hfd := h.sockFd hexp.1
  have hshape : Shape rg { c with msgList := c.msgList.tail } :=
    ⟨h.took, h.sockFd, h.senderCapability, h.senderRgConnect⟩
  obtain ⟨hstate, hout⟩ := transitState_move env hshape hmsg hexp
  have hmoved := Csm.transitState_moved (c := { c with msgList := c.msgList.tail })
    c.msgList.head? env hexp.1
  obtain ⟨htook, hcap, hconn⟩ :=
    took_correspond (c := { c with msgList := c.msgList.tail }) h.took hmsg
  unfold Csm.transit
  rw [if_neg (fun hclosed => absurd hfd (not_lt.2 hclosed.2))]
  simp only
  generalize { c with msgList := c.msgList.tail }.transitState c.msgList.head? env = r at *
  obtain ⟨c₁, out⟩ := r
  simp only at hstate hout hmoved
  rw [← hmoved.iccpInfo] at htook hcap hconn
  rw [← taken_move hexp, ← hstate] at htook
  have hsender : c₁.currentState = .capsent → c₁.iccpInfo.senderCapabilityFlag = true := by
    intro hcapsent
    exact hcap.trans (h.senderCapability (move_capsent (hstate.symm.trans hcapsent)))
  split
  · obtain ⟨c', hc', hshape'⟩ :=
      enterState_shape htook (hmoved.sockFd ▸ hfd) hmoved.alive hsender
    have hent := Csm.entered_of_enterState hc'
    rw [hc']
    exact ⟨c', out, rfl, hshape', hent.currentState.trans hstate,
      hent.msgList.trans hmoved.msgList, hent.sockFd.trans hmoved.sockFd, hout⟩
  · next hsame =>
    -- the state is the same, and no message has changed a flag
    have hsame' : c₁.currentState = c.currentState := by
      by_contra hne
      exact hsame (.inl hne)
    refine ⟨c₁, out, rfl, ⟨htook, fun _ => hmoved.sockFd ▸ hfd, ?_, ?_⟩, hstate,
      hmoved.msgList, hmoved.sockFd, hout⟩
    · rw [hsame']
      exact fun hor => hcap.trans (h.senderCapability hor)
    · rw [hsame']
      exact fun hop => hconn.trans (h.senderRgConnect hop)

/-- The first transition on an open socket enters `INITIALIZED`; without one, nothing happens
    unless a connection is made. -/
theorem transit_nonexistent {rg : UInt32} {c c' : Csm} {connect : Option Nat} {id : UInt32}
    {out : Option Msg} (h : Shape rg c) (hstate : c.currentState = .nonexistent)
    (htransit : c.transit ⟨connect, true, id⟩ = some (c', out)) :
    out = none ∧ Shape rg c' ∧ c'.msgList = c.msgList.tail
      ∧ (0 < c.sockFd → c'.sockFd = c.sockFd)
      ∧ (c'.currentState = .initialized ∨ c'.currentState = .nonexistent ∧ c'.sockFd ≤ 0) := by
  have htook := h.took
  rw [hstate] at htook
  obtain ⟨fd, hkeep, heq⟩ :=
    Csm.transitState_nonexistent (c := { c with msgList := c.msgList.tail })
      c.msgList.head? ⟨connect, true, id⟩ hstate
  rw [Csm.transit, if_neg (fun hclosed => hclosed.1 hstate)] at htransit
  simp only [heq, and_true] at htransit
  by_cases hfd : 0 < fd
  · simp only [if_pos hfd, hstate] at htransit
    rw [if_pos (.inl (by decide)), Csm.enterState] at htransit
    obtain ⟨rfl, rfl⟩ := Prod.mk.inj (Option.some.inj htransit)
    exact ⟨rfl, ⟨⟨htook.1, htook.2, htook.3, htook.4⟩, fun _ => hfd, fun _ => rfl, by simp⟩, rfl,
      hkeep, .inl rfl⟩
  · simp only [if_neg hfd, hstate] at htransit
    rw [if_neg (by simp)] at htransit
    obtain ⟨rfl, rfl⟩ := Prod.mk.inj (Option.some.inj htransit)
    exact ⟨rfl, ⟨⟨htook.1, htook.2, htook.3, htook.4⟩, fun hne => absurd rfl hne, by simp, by simp⟩,
      rfl, hkeep, .inr ⟨rfl, not_lt.1 hfd⟩⟩

/-- A message of the handshake goes to `msg_list`. -/
theorem enqueueMsg_kind {rg : UInt32} {k : Kind} {m : Msg} (c : Csm) (h : IsKind rg k m) :
    c.enqueueMsg m = { c with msgList := c.msgList ++ [m] } := by
  have htype : (msgType m.buf).val ≠ msgTRgAppData ∧ (msgType m.buf).val ≠ msgTNotification := by
    cases k with
    | capability =>
      rw [h.1]
      decide
    | rgConnect =>
      rw [h.1.1]
      decide
  have hicc : (iccpCsmEnqueueMsg c.msgLog m.buf).val = .icc := by
    rw [iccpCsmEnqueueMsg, val_bind, if_neg htype.1, if_neg htype.2, val_pure]
  rw [Csm.enqueueMsg, if_pos hicc]

/-! ## Two peers -/

/-- The client is the side with the lower address. -/
inductive Side where
  | client
  | server
  deriving DecidableEq

def Side.other : Side → Side
  | client => server
  | server => client

@[simp] theorem Side.other_other (p : Side) : p.other.other = p := by
  cases p <;> rfl

@[simp] theorem Side.other_ne (p : Side) : p.other ≠ p := by
  cases p <;> decide

theorem Side.eq_or (p q : Side) : q = p ∨ q = p.other := by
  cases p <;> cases q <;> simp [Side.other]

structure Net where
  peer : Side → Csm
  /-- the messages on the way to a side -/
  chan : Side → List Msg
  /-- the socket was opened since the last transition of the side -/
  fresh : Side → Bool

inductive NetEvent where
  /-- `scheduler_server_accept` of the server -/
  | accept (fd : Nat)
  /-- `iccp_csm_transit` of a side, with the result of its attempt to connect -/
  | transit (p : Side) (connect : Option Nat) (id : UInt32)
  /-- a side reads a message from its socket -/
  | deliver (p : Side)

namespace Net

/-- Two new `csm`s with the same RG id. -/
def start (rg : UInt32) (name : Side → List UInt8) : Net :=
  ⟨fun p => Csm.start rg (name p), fun _ => [], fun _ => false⟩

/-- A side after a transition, and what it sent. -/
def transited (n : Net) (p : Side) (c : Csm) (out : Option Msg) : Net :=
  ⟨Function.update n.peer p c,
    Function.update n.chan p.other (n.chan p.other ++ out.toList),
    Function.update n.fresh p false⟩

def next (n : Net) : NetEvent → Option Net
  | .accept fd =>
    if (n.peer .server).sockFd ≤ 0 ∧ 0 < (n.peer .client).sockFd ∧ 0 < fd then
      some
        { n with
          peer := Function.update n.peer .server
            { n.peer .server with sockFd := fd, currentState := .nonexistent }
          fresh := Function.update n.fresh .server true }
    else none
  | .transit p connect id =>
    -- only the client connects; the configurations are complete
    if p = .server ∧ connect.isSome then none
    else ((n.peer p).transit ⟨connect, true, id⟩).map fun r => n.transited p r.1 r.2
  | .deliver p =>
    match n.chan p with
    | [] => none
    | m :: rest =>
      if 0 < (n.peer p).sockFd then
        some
          { n with
            peer := Function.update n.peer p ((n.peer p).enqueueMsg m)
            chan := Function.update n.chan p rest }
      else none

def Step (n : Net) (e : NetEvent) (n' : Net) : Prop := n.next e = some n'

theorem step_next (n : Net) (e : NetEvent) (n' : Net) (h : n.next e = some n') : Step n e n' := h

/-- A socket is read in a later round than the one that opened it. -/
def Ok (n : Net) : NetEvent → Prop
  | .deliver p => n.fresh p = false
  | _ => True

instance (n : Net) (e : NetEvent) : Decidable (n.Ok e) :=
  match e with
  | .deliver _ => inferInstanceAs (Decidable (_ = _))
  | .accept _ => isTrue trivial
  | .transit _ _ _ => isTrue trivial

/-- A transition of this side changes nothing and sends nothing. -/
def Quiet (c : Csm) : Prop :=
  ∀ connect id, ∃ c', c.transit ⟨connect, true, id⟩ = some (c', none)
    ∧ c'.currentState = c.currentState ∧ c'.iccpInfo = c.iccpInfo

/-- Both sockets are open, nothing is on the way or to be handled, neither side can go on, and
    one of them is not operational. -/
def Stuck (n : Net) : Prop :=
  (∀ p, 0 < (n.peer p).sockFd) ∧ (∀ p, n.chan p = []) ∧ (∀ p, (n.peer p).msgList = [])
    ∧ (∀ p, Quiet (n.peer p)) ∧ ∃ p, (n.peer p).currentState ≠ .operational

/-! ## What is on the way -/

/-- What `d` has sent is what `c` has taken, and what is still on the way. -/
def Conserved (rg : UInt32) (c d : Csm) (chan : List Msg) : Prop :=
  ∃ rest, sent d.currentState = taken c.currentState ++ rest
    ∧ List.Forall₂ (IsKind rg) rest (c.msgList ++ chan)

/-- What holds of a side in every state of a run. -/
structure Good (rg : UInt32) (n : Net) (p : Side) : Prop where
  shape : Shape rg (n.peer p)
  conserved : Conserved rg (n.peer p) (n.peer p.other) (n.chan p)
  unread : (n.peer p).currentState = .nonexistent → (n.peer p).msgList = []
  entered : n.fresh p = false → 0 < (n.peer p).sockFd → (n.peer p).currentState ≠ .nonexistent

theorem good_start (rg : UInt32) (name : Side → List UInt8) (p : Side) :
    Good rg (start rg name) p where
  shape := shape_start rg (name p)
  conserved := ⟨[], rfl, .nil⟩
  unread := fun _ => rfl
  entered := fun _ hfd => absurd hfd (by simp [start, Csm.start, Csm.statusReset])

/-- The first message of the list, if there is one, is the next one of the handshake. -/
theorem expected_of_conserved {rg : UInt32} {c d : Csm} {chan : List Msg}
    (h : Conserved rg c d chan) (halive : c.currentState ≠ .nonexistent) :
    ∃ k, IsMsg rg k c.msgList.head? ∧ Expected c.currentState k
      ∧ ∃ rest, sent d.currentState = taken c.currentState ++ k.toList ++ rest
        ∧ List.Forall₂ (IsKind rg) rest (c.msgList.tail ++ chan) := by
  obtain ⟨rest, hsent, hrest⟩ := h
  have hle := sent_le d.currentState
  rw [hsent] at hle
  cases hlist : c.msgList with
  | nil =>
    rw [hlist] at hrest
    refine ⟨none, Option.Rel.none, ⟨halive, ?_⟩, rest, ?_, hrest⟩
    · rw [Option.toList_none, List.append_nil]
      exact (List.prefix_append _ _).trans hle
    · rw [Option.toList_none, List.append_nil]
      exact hsent
  | cons m tl =>
    rw [hlist, List.cons_append] at hrest
    cases hrest with
    | @cons k _ rest _ hkind hrest =>
      rw [List.append_cons] at hle hsent
      exact ⟨some k, Option.Rel.some hkind, ⟨halive, (List.prefix_append _ _).trans hle⟩, rest,
        hsent, hrest⟩

/-- A transition of one side, for both ends of its connection. -/
theorem transit_conserved {rg : UInt32} {c d c' : Csm} {chan : List Msg} {connect : Option Nat}
    {id : UInt32} {out : Option Msg} (hshape : Shape rg c) (hcons : Conserved rg c d chan)
    (hunread : c.currentState = .nonexistent → c.msgList = [])
    (htransit : c.transit ⟨connect, true, id⟩ = some (c', out)) :
    Shape rg c' ∧ Conserved rg c' d chan
      ∧ (∃ k, sent c'.currentState = sent c.currentState ++ k.toList ∧ IsMsg rg k out)
      ∧ (c'.currentState = .nonexistent → c'.msgList = [])
      ∧ (0 < c'.sockFd → c'.currentState ≠ .nonexistent) := by
  by_cases hstate : c.currentState = .nonexistent
  · obtain ⟨rfl, hshape', hlist, -, hnew⟩ := transit_nonexistent hshape hstate htransit
    have hnil : c'.msgList = [] := by
      rw [hlist, hunread hstate]
      rfl
    -- neither state has sent or taken anything
    have hnone : sent c'.currentState = [] ∧ taken c'.currentState = [] := by
      rcases hnew with hnew | ⟨hnew, -⟩ <;> rw [hnew] <;> exact ⟨rfl, rfl⟩
    refine ⟨hshape', ?_, ⟨none, ?_, Option.Rel.none⟩, fun _ => hnil, ?_⟩
    · obtain ⟨rest, hsent, hrest⟩ := hcons
      rw [hstate] at hsent
      rw [hunread hstate] at hrest
      refine ⟨rest, ?_, ?_⟩
      · rw [hnone.2]
        exact hsent
      · rw [hnil]
        exact hrest
    · rw [hnone.1, hstate]
      rfl
    · intro hfd hno
      rcases hnew with hnew | ⟨-, hclosed⟩
      · rw [hnew] at hno
        cases hno
      · exact absurd hfd (not_lt.2 hclosed)
  · obtain ⟨k, hmsg, hexp, rest, hsent, hrest⟩ := expected_of_conserved hcons hstate
    obtain ⟨c'', out', htransit', hshape', hnew, hlist, -, hout⟩ :=
      transit_move ⟨connect, true, id⟩ hshape hmsg hexp
    obtain ⟨rfl, rfl⟩ := Prod.mk.inj (Option.some.inj (htransit.symm.trans htransit'))
    have halive : c'.currentState ≠ .nonexistent := by
      rw [hnew]
      generalize c.currentState = s at hstate
      rcases k with _ | _ | _ <;> cases s <;> simp [move] at hstate ⊢
    refine ⟨hshape', ⟨rest, ?_, ?_⟩, ⟨_, ?_, hout⟩, fun hno => absurd hno halive, fun _ => halive⟩
    · rw [hnew, taken_move hexp]
      exact hsent
    · rw [hlist]
      exact hrest
    · rw [hnew]
      exact sent_move _ _

theorem forall₂_isMsg {rg : UInt32} {k : Option Kind} {out : Option Msg} (h : IsMsg rg k out) :
    List.Forall₂ (IsKind rg) k.toList out.toList := by
  cases h with
  | none => exact .nil
  | some h => exact .cons h .nil

theorem good_transit {rg : UInt32} {n : Net} {p : Side} {c' : Csm} {connect : Option Nat}
    {id : UInt32} {out : Option Msg} (h : ∀ q, Good rg n q)
    (htransit : (n.peer p).transit ⟨connect, true, id⟩ = some (c', out)) (q : Side) :
    Good rg (n.transited p c' out) q := by
  obtain ⟨hshape, hcons, ⟨k, hsent, hout⟩, hunread, hentered⟩ :=
    transit_conserved (h p).shape (h p).conserved (h p).unread htransit
  rcases p.eq_or q with rfl | rfl
  · constructor
    · simpa [transited] using hshape
    · simpa [transited, q.other_ne.symm] using hcons
    · simpa [transited] using hunread
    · simpa [transited] using hentered
  · -- the other side has what was sent on its way
    have hother := h p.other
    obtain ⟨rest, hsent', hrest⟩ := hother.conserved
    rw [Side.other_other] at hsent'
    constructor
    · simpa [transited] using hother.shape
    · refine ⟨rest ++ k.toList, ?_, ?_⟩
      · simp only [transited, Side.other_other, Function.update_self, ne_eq, Side.other_ne,
          not_false_eq_true, Function.update_of_ne]
        rw [hsent, hsent', List.append_assoc]
      · simp only [transited, Function.update_self, ne_eq, Side.other_ne, not_false_eq_true,
          Function.update_of_ne, ← List.append_assoc]
        exact List.rel_append hrest (forall₂_isMsg hout)
    · simpa [transited] using hother.unread
    · simpa [transited] using hother.entered

theorem good_accept {rg : UInt32} {n : Net} {fd : Nat} (h : ∀ q, Good rg n q)
    (hclosed : (n.peer .server).sockFd ≤ 0) (q : Side) :
    Good rg
      { n with
        peer := Function.update n.peer .server
          { n.peer .server with sockFd := fd, currentState := .nonexistent }
        fresh := Function.update n.fresh .server true } q := by
  have hserver := h .server
  have hstate : (n.peer .server).currentState = .nonexistent := by
    by_contra hne
    exact absurd (hserver.shape.sockFd hne) (not_lt.2 hclosed)
  cases q with
  | client =>
    obtain ⟨rest, hsent, hrest⟩ := (h .client).conserved
    rw [Side.other, hstate] at hsent
    exact ⟨(h .client).shape, ⟨rest, hsent, hrest⟩, (h .client).unread, (h .client).entered⟩
  | server =>
    have htook := hserver.shape.took
    obtain ⟨rest, hsent, hrest⟩ := hserver.conserved
    rw [hstate] at htook hsent
    exact ⟨⟨htook, fun hne => absurd rfl hne, by simp, by simp⟩, ⟨rest, hsent, hrest⟩,
      fun _ => hserver.unread hstate, by simp⟩

theorem good_deliver {rg : UInt32} {n : Net} {p : Side} {m : Msg} {rest : List Msg}
    (h : ∀ q, Good rg n q) (hchan : n.chan p = m :: rest) (hfd : 0 < (n.peer p).sockFd)
    (hfresh : n.fresh p = false) (q : Side) :
    Good rg
      { n with
        peer := Function.update n.peer p ((n.peer p).enqueueMsg m)
        chan := Function.update n.chan p rest } q := by
  have hp := h p
  have halive := hp.entered hfresh hfd
  obtain ⟨kinds, hsent, hkinds⟩ := hp.conserved
  -- the message is one of the handshake, since it is on the way
  obtain ⟨k, hk⟩ : ∃ k, IsKind rg k m := by
    have hmem : m ∈ (n.peer p).msgList ++ n.chan p := by simp [hchan]
    obtain ⟨i, hi, rfl⟩ := List.mem_iff_getElem.1 hmem
    exact ⟨_, (List.forall₂_iff_get.1 hkinds).2 i (by rw [hkinds.length_eq]; exact hi) hi⟩
  rw [enqueueMsg_kind _ hk]
  rcases p.eq_or q with rfl | rfl
  · constructor
    · simpa using ⟨hp.shape.took, hp.shape.sockFd, hp.shape.senderCapability,
        hp.shape.senderRgConnect⟩
    · refine ⟨kinds, by simpa [q.other_ne] using hsent, ?_⟩
      rw [hchan, List.append_cons] at hkinds
      simpa using hkinds
    · simp [halive]
    · simpa using fun _ _ => halive
  · have hother := h p.other
    constructor
    · simpa using hother.shape
    · obtain ⟨kinds', hsent', hkinds'⟩ := hother.conserved
      rw [Side.other_other] at hsent'
      exact ⟨kinds', by simpa using hsent', by simpa using hkinds'⟩
    · simpa using hother.unread
    · simpa using hother.entered

theorem good_next {rg : UInt32} {n n' : Net} {e : NetEvent} (h : ∀ q, Good rg n q) (hok : n.Ok e)
    (hstep : Step n e n') : ∀ q, Good rg n' q := by
  cases e with
  | accept fd =>
    rw [Step, next] at hstep
    split at hstep
    · next hcond =>
      obtain rfl := Option.some.inj hstep
      exact good_accept h hcond.1
    · cases hstep
  | transit p connect id =>
    rw [Step, next] at hstep
    split at hstep
    · cases hstep
    · obtain ⟨⟨c', out⟩, htransit, rfl⟩ := Option.map_eq_some_iff.1 hstep
      exact good_transit h htransit
  | deliver p =>
    rw [Step, next] at hstep
    split at hstep
    · cases hstep
    · next m rest hchan =>
      split at hstep
      · next hfd =>
        obtain rfl := Option.some.inj hstep
        exact good_deliver h hchan hfd hok
      · cases hstep

/-- A side that cannot go on without a message waits for one, or is operational. -/
theorem waits_of_quiet {rg : UInt32} {c : Csm} (hshape : Shape rg c) (hfd : 0 < c.sockFd)
    (hlist : c.msgList = []) (hquiet : Quiet c) :
    c.currentState = .capsent ∨ c.currentState = .connecting ∨ c.currentState = .operational := by
  obtain ⟨c', htransit, hsame, -⟩ := hquiet none 0
  by_cases hstate : c.currentState = .nonexistent
  · obtain ⟨-, -, -, hkeep, hnew⟩ := transit_nonexistent hshape hstate htransit
    rw [hkeep hfd, hsame, hstate] at hnew
    rcases hnew with hnew | ⟨-, hclosed⟩
    · cases hnew
    · exact absurd hfd (not_lt.2 hclosed)
  · have hexp : Expected c.currentState none :=
      ⟨hstate, by generalize c.currentState = s; cases s <;> decide⟩
    have hmsg : IsMsg rg none c.msgList.head? := by
      rw [hlist]
      exact Option.Rel.none
    obtain ⟨c'', out, htransit', -, hnew, -, -, -⟩ := transit_move ⟨none, true, 0⟩ hshape hmsg hexp
    obtain ⟨rfl, rfl⟩ := Prod.mk.inj (Option.some.inj (htransit.symm.trans htransit'))
    rw [hsame] at hnew
    generalize c.currentState = s at hnew hstate
    cases s <;> simp [move] at hnew hstate ⊢

theorem not_stuck_of_good {rg : UInt32} {n : Net} (h : ∀ q, Good rg n q) : ¬n.Stuck := by
  rintro ⟨hopen, hchan, hlist, hquiet, p, hp⟩
  -- nothing is on the way, so what one side has sent the other one has taken
  have heq : ∀ q : Side, sent (n.peer q.other).currentState = taken (n.peer q).currentState := by
    intro q
    obtain ⟨rest, hsent, hrest⟩ := (h q).conserved
    rw [hchan, hlist] at hrest
    cases hrest
    rw [hsent, List.append_nil]
  have hwaits := fun q => waits_of_quiet (h q).shape (hopen q) (hlist q) (hquiet q)
  have hone := heq p
  have htwo := heq p.other
  rw [Side.other_other] at htwo
  rcases hwaits p with hs | hs | hs
  · rw [hs] at hone
    rcases hwaits p.other with hs' | hs' | hs' <;> rw [hs'] at hone <;>
      exact absurd hone (by decide)
  · rw [hs] at hone htwo
    rcases hwaits p.other with hs' | hs' | hs' <;> rw [hs'] at hone htwo <;>
      first | exact absurd hone (by decide) | exact absurd htwo (by decide)
  · exact hp hs

end Net

open Net

/-- Two peers with the same RG id do not get stuck in the handshake, whatever the order of their
    transitions and deliveries. -/
theorem not_stuck_of_run {rg : UInt32} {name : Side → List UInt8} {es : List NetEvent} {n : Net}
    (hrun : Run Net.Step Net.Ok (Net.start rg name) es n) : ¬n.Stuck := by
  have h : ∀ q, Good rg n q :=
    hrun.invariant (P := fun n => ∀ q, Good rg n q)
      (fun _ _ _ h hok hstep => good_next h hok hstep) (good_start rg name)
  exact not_stuck_of_good h

/-- The client, up to its capability. -/
def clientFirst : List NetEvent := [.transit .client (some 5) 1, .transit .client none 1]

/-- Both sides become operational. -/
theorem not_stuck_operational :
    ∃ n, Run Net.Step Net.Ok (Net.start 1 fun _ => [0x70])
        (clientFirst ++
          [.accept 6, .transit .server none 1, .deliver .server, .transit .server none 2,
            .transit .server none 3, .deliver .client, .deliver .client, .transit .client none 2,
            .transit .client none 3, .deliver .server, .transit .server none 4]) n ∧
      (n.peer .client).currentState = .operational ∧ (n.peer .server).currentState = .operational ∧
        ¬n.Stuck := by
  refine exists_run_imp step_next (fun n => (n.peer .client).currentState = .operational ∧
    (n.peer .server).currentState = .operational) (by decide +kernel) ?_
  rintro n hrun ⟨hclient, hserver⟩
  exact ⟨hclient, hserver, not_stuck_of_run hrun⟩

/-- A side that is operational has taken the two messages of the other one, each of them once, and
    nothing more is on the way to it. -/
theorem operational_agrees {rg : UInt32} {name : Side → List UInt8} {es : List NetEvent} {n : Net}
    (hrun : Run Net.Step Net.Ok (Net.start rg name) es n) {p : Side}
    (hop : (n.peer p).currentState = .operational) :
    ((n.peer p.other).currentState = .connecting ∨ (n.peer p.other).currentState = .operational) ∧
      (n.peer p).msgList = [] ∧ n.chan p = [] := by
  have hgood := hrun.invariant (P := fun n => ∀ q, Good rg n q)
    (fun _ _ _ h hok hstep => good_next h hok hstep) (good_start rg name)
  obtain ⟨rest, hsent, hrest⟩ := (hgood p).conserved
  rw [hop] at hsent
  generalize (n.peer p.other).currentState = s at hsent
  -- only these two have sent what an operational side has taken, and they have sent no more
  obtain ⟨rfl, hstate⟩ : rest = [] ∧ (s = .connecting ∨ s = .operational) := by
    cases s <;> simp_all [sent, taken]
  exact ⟨hstate, List.append_eq_nil_iff.1 (List.forall₂_nil_left_iff.1 hrest)⟩

theorem server_first :
    ∃ n, Run Net.Step Net.Ok (Net.start 1 fun _ => [0x70])
        (clientFirst ++
          [.accept 6, .transit .server none 1, .deliver .server, .transit .server none 2,
            .deliver .client, .transit .client none 2, .transit .client none 3, .deliver .server,
            .transit .server none 3]) n ∧
      (n.peer .client).currentState = .connecting ∧ n.chan .server = [] := by
  refine exists_run_imp step_next (fun n => (n.peer .client).currentState = .connecting ∧
    (n.peer .server).currentState = .operational) (by decide +kernel) ?_
  rintro n hrun ⟨hclient, hserver⟩
  exact ⟨hclient, (operational_agrees hrun hserver).2.2⟩

/-- A side that waits for the capability or, without a wrong RG id, for the RG_CONNECT. -/
def Waits (c : Csm) : Prop :=
  0 < c.sockFd ∧ c.msgList.length = 0 ∧
    (c.currentState = .capsent ∧ c.iccpInfo.peerCapabilityFlag = false ∨
      c.currentState = .connecting ∧ c.iccpInfo.statusCode = 0 ∧
        c.iccpInfo.peerRgConnectFlag = false)

instance (c : Csm) : Decidable (Waits c) := inferInstanceAs (Decidable (_ ∧ _))

theorem quiet_of_waits {c : Csm} (h : Waits c) : Quiet c := by
  obtain ⟨hfd, hlist, hstate⟩ := h
  have hnil := List.eq_nil_of_length_eq_zero hlist
  intro connect id
  rw [Csm.transit, if_neg (fun hclosed => absurd hfd (not_lt.2 hclosed.2))]
  rcases hstate with ⟨hstate, hflag⟩ | ⟨hstate, hstatus, hflag⟩
  · simp [Csm.transitState, Csm.correspondFromMsg, hnil, hstate, hflag]
  · simp [Csm.transitState, Csm.correspondFromMsg, Csm.sendIccpMsg, Csm.prepareIccpMsg, hnil,
      hstate, hstatus, hflag]

/-- The capability of the client is delivered before the first transition of the server on the
    new socket, which drops it.  The server waits for it for ever. -/
theorem stuck_fresh :
    ∃ n, Run Net.Step (fun _ _ => True) (Net.start 1 fun _ => [0x70])
        (clientFirst ++
          [.accept 6, .deliver .server, .transit .server none 1, .transit .server none 2,
            .deliver .client, .transit .client none 2, .transit .client none 3, .deliver .server,
            .transit .server none 3]) n ∧ n.Stuck := by
  refine exists_run_imp step_next (fun n => (Waits (n.peer .client) ∧ Waits (n.peer .server)) ∧
    ((n.chan .client).length = 0 ∧ (n.chan .server).length = 0) ∧
      (n.peer .server).currentState ≠ .operational) (by decide +kernel) ?_
  rintro n - ⟨hwaits, hchan, hstate⟩
  have hall : ∀ q, Waits (n.peer q) := fun q => by
    cases q with
    | client => exact hwaits.1
    | server => exact hwaits.2
  refine ⟨fun q => (hall q).1, fun q => ?_,
    fun q => List.eq_nil_of_length_eq_zero (hall q).2.1, fun q => quiet_of_waits (hall q),
    .server, hstate⟩
  cases q with
  | client => exact List.eq_nil_of_length_eq_zero hchan.1
  | server => exact List.eq_nil_of_length_eq_zero hchan.2

end SonicBuildimage.Iccpd.Conn
