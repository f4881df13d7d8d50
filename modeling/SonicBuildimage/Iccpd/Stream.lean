/-
  The stream to the peer: `iccp_csm_send` of iccpd (iccp_csm.c) on a socket that may take less
  than it is given.

  Model.  `write` takes the first `rc` bytes of a message, or none.  `iccp_csm_send` logs a
  result that is not the whole message and returns it; no caller does anything about it but
  writing to the log or trying the same update again later, so a send is an event of its own.
  The session may be disconnected at any time, and a new connection begins a new stream.

  Proved: `stream_of_run`.  In every run in which `write` takes the whole message or nothing, the
  bytes on the connection are whole messages, one after the other, and the receiver
  (`scheduler_csm_read_callback`) takes exactly these messages from them.  After a short write
  it takes the middle of a message for a header (`stream_misread`).

  Not modelled: what is in the messages, and the counters and log lines of `iccp_csm_send`.
-/
import SonicBuildimage.Iccpd.Framing
import SonicBuildimage.Iccpd.Routing
import SonicBuildimage.Lib.Run

namespace SonicBuildimage.Iccpd.Stream

open SonicBuildimage.Lib
open SonicBuildimage.Iccpd.Framing

/-! ## The sender -/

/-- The message that is handed to `iccp_csm_send`. -/
def message (s : Send) : List UInt8 := (List.range s.msgLen.toNat).map s.buf

structure Link where
  sockFd : Int
  log : MsgLog
  /-- the messages handed to `iccp_csm_send` on this connection -/
  given : List (List UInt8)
  /-- the bytes that were put on this connection -/
  wire : List UInt8

inductive LinkEvent where
  | send (s : Send)
  /-- `scheduler_session_disconnect_handler` -/
  | disconnect
  | connect (fd : Int)

namespace Link

def start : Link := ⟨-1, MsgLog.reset, [], []⟩

/-- `write` puts the first `rc` bytes on the socket, if it is called. -/
def send (l : Link) (s : Send) : Link :=
  let (log, _) := iccpCsmSend l.sockFd l.log s
  if l.sockFd ≤ 0 ∨ s.msgLen ≤ 0 then { l with log := log }
  else
    { l with
      log := log
      given := l.given ++ [message s]
      wire := l.wire ++ (message s).take s.rc.toNat }

/-- The next state; a connection is made only if there is none. -/
def next (l : Link) : LinkEvent → Option Link
  | .send s => some (l.send s)
  | .disconnect => some { l with sockFd := -1, log := MsgLog.reset }
  | .connect fd => if l.sockFd ≤ 0 ∧ 0 < fd then some ⟨fd, l.log, [], []⟩ else none

def Step (l : Link) (e : LinkEvent) (l' : Link) : Prop := l.next e = some l'

theorem step_next (l : Link) (e : LinkEvent) (l' : Link) (h : l.next e = some l') : Step l e l' := h

/-- `write` takes the whole message or nothing. -/
def Ok (_ : Link) : LinkEvent → Prop
  | .send s => s.rc ≤ 0 ∨ s.rc = s.msgLen
  | _ => True

instance (l : Link) (e : LinkEvent) : Decidable (l.Ok e) :=
  match e with
  | .send _ => inferInstanceAs (Decidable (_ ∨ _))
  | .disconnect => isTrue trivial
  | .connect _ => isTrue trivial

/-- The stream consists of some of the messages, each of them whole. -/
def Whole (l : Link) (msgs : List (List UInt8)) : Prop :=
  msgs.Sublist l.given ∧ l.wire = msgs.flatten

/-- Whatever the receiver takes from the stream are these messages. -/
def ReadAs (l : Link) (msgs : List (List UInt8)) : Prop :=
  ∀ {k : Nat} {csm csm' : Csm} {buf : Mem UInt8} {sock sock' : Sock}, sock.stream = l.wire →
    passes k csm buf sock = some (csm', sock') → csm'.queue = csm.queue ++ msgs.take k

end Link

/-! ## Framing -/

theorem length_of_wellFramed {msg msg' rest rest' : List UInt8} (h : WellFramed msg)
    (h' : WellFramed msg') (heq : msg ++ rest = msg' ++ rest') : msg.length = msg'.length := by
  obtain ⟨hfield, hlen⟩ := h
  obtain ⟨hfield', hlen'⟩ := h'
  unfold ldpHdrSize at hlen hlen'
  unfold msgLIncludUBitMsgTLFields at hfield hfield'
  have hsame : lengthField msg = lengthField msg' := by
    rw [← @lengthField_append msg rest (by omega), heq, lengthField_append (by omega)]
  rw [hfield, hfield'] at hsame
  have := Option.some.inj hsame
  omega

/-- A stream of messages can be cut into messages in one way only. -/
theorem framed_unique {msgs msgs' : List (List UInt8)} {rest : List UInt8}
    (h : ∀ msg ∈ msgs, WellFramed msg) (h' : ∀ msg ∈ msgs', WellFramed msg)
    (heq : msgs.flatten = msgs'.flatten ++ rest) : msgs' = msgs.take msgs'.length := by
  induction msgs' generalizing msgs with
  | nil => rfl
  | cons msg' msgs' ih =>
    have hmsg' := h' msg' List.mem_cons_self
    rw [List.flatten_cons, List.append_assoc] at heq
    cases msgs with
    | nil =>
      have hnil : msg' = [] := (List.append_eq_nil_iff.1 heq.symm).1
      have hlen := hmsg'.2
      rw [hnil] at hlen
      exact absurd hlen (by decide)
    | cons msg msgs =>
      rw [List.flatten_cons] at heq
      have hlen := length_of_wellFramed (h msg List.mem_cons_self) hmsg' heq
      obtain ⟨rfl, hrest⟩ := List.append_inj heq hlen
      rw [List.length_cons, List.take_succ_cons]
      exact congrArg _ (ih (fun m hm => h m (List.mem_cons_of_mem _ hm))
        (fun m hm => h' m (List.mem_cons_of_mem _ hm)) hrest)

theorem readAs_of_whole {l : Link} {msgs : List (List UInt8)} (h : l.Whole msgs)
    (hframed : ∀ msg ∈ msgs, WellFramed msg) : l.ReadAs msgs := by
  intro k csm csm' buf sock sock' hstream hpasses
  obtain ⟨taken, hk, hqueue, htaken, hall⟩ := passes_framed hpasses
  rw [hqueue, ← hk]
  rw [hstream, h.2] at htaken
  exact congrArg _ (framed_unique hframed hall htaken)

/-! ## Runs -/

theorem length_message {s : Send} : (message s).length = s.msgLen.toNat := by
  unfold message
  rw [List.length_map, List.length_range]

theorem whole_next {l l' : Link} {e : LinkEvent} (hok : l.Ok e) (hstep : Link.Step l e l')
    (h : ∃ msgs, l.Whole msgs) : ∃ msgs, l'.Whole msgs := by
  cases e with
  | disconnect =>
    obtain rfl := Option.some.inj hstep
    exact h
  | connect fd =>
    rw [Link.Step, Link.next] at hstep
    split at hstep
    · obtain rfl := Option.some.inj hstep
      exact ⟨[], List.Sublist.refl _, rfl⟩
    · cases hstep
  | send s =>
    obtain rfl := Option.some.inj hstep
    obtain ⟨msgs, hsub, hwire⟩ := h
    unfold Link.send
    by_cases hcall : l.sockFd ≤ 0 ∨ s.msgLen ≤ 0
    · simp only [if_pos hcall]
      exact ⟨msgs, hsub, hwire⟩
    · simp only [if_neg hcall]
      rcases hok with hnone | hall
      · -- nothing is written: the message is left out
        refine ⟨msgs, hsub.trans (List.sublist_append_left _ _), ?_⟩
        have hzero : s.rc.toNat = 0 := by omega
        simp [hzero, hwire]
      · refine ⟨msgs ++ [message s], hsub.append (List.Sublist.refl _), ?_⟩
        have htake : (message s).take s.rc.toNat = message s :=
          List.take_of_length_le (by rw [length_message, hall])
        simp [htake, hwire]

/-- In every run in which `write` takes the whole message or nothing, the stream consists of
    whole messages, and if each is as long as it says, the receiver takes exactly these. -/
theorem stream_of_run {es : List LinkEvent} {l : Link}
    (hrun : Run Link.Step Link.Ok Link.start es l) :
    ∃ msgs, l.Whole msgs ∧ ((∀ msg ∈ msgs, WellFramed msg) → l.ReadAs msgs) := by
  have hstart : ∃ msgs, Link.start.Whole msgs := ⟨[], List.Sublist.refl _, rfl⟩
  obtain ⟨msgs, hwhole⟩ := hrun.invariant (P := fun l => ∃ msgs, l.Whole msgs)
    (fun _ _ _ h hok hstep => whole_next hok hstep h) hstart
  exact ⟨msgs, hwhole, readAs_of_whole hwhole⟩

/-- A send of a message with a result of `write`. -/
def sendOf (msg : List UInt8) (rc : Int) : LinkEvent :=
  .send ⟨fun i => msg.getD i 0, msg.length, rc⟩

/-- Two messages of 12 bytes. -/
def first : List UInt8 := [0x07, 0x00, 0, 8, 0, 0, 0, 1, 1, 1, 1, 1]

def second : List UInt8 := [0x07, 0x00, 0, 8, 0, 0, 0, 2, 2, 2, 2, 2]

/-- A `write` fails, and the message is sent again. -/
theorem stream_retried :
    ∃ l, Run Link.Step Link.Ok Link.start
        [.connect 5, sendOf first (-1), sendOf second 12, sendOf first 12] l ∧
      l.wire = second ++ first ∧ ∃ msgs, l.Whole msgs := by
  refine exists_run_imp Link.step_next (fun l => l.wire = second ++ first) (by decide +kernel) ?_
  intro l hrun hwire
  obtain ⟨msgs, hwhole, -⟩ := stream_of_run hrun
  exact ⟨hwire, msgs, hwhole⟩

/-- The socket takes 8 bytes of the first message and then the second one.  The receiver waits
    for 4 more bytes of the first message, takes them from the header of the second one, and
    goes on behind them. -/
theorem stream_misread :
    ∃ l, Run Link.Step (fun _ _ => True) Link.start
        [.connect 5, sendOf first 8, sendOf second 12] l ∧
      (∀ msg ∈ l.given, WellFramed msg) ∧ (∀ msgs, ¬l.Whole msgs) ∧
        ∃ csm sock,
          passes 1 opened ⟨fun _ => 0, 0⟩ ⟨l.wire, [.data 7, .data 3]⟩ = some (csm, sock) ∧
          csm.queue = [first.take 8 ++ second.take 4] ∧ sock.stream = second.drop 4 := by
  obtain ⟨l, hrun, hframed, hnot, hread⟩ : ∃ l, Run Link.Step (fun _ _ => True) Link.start
      [.connect 5, sendOf first 8, sendOf second 12] l ∧
        (∀ msg ∈ l.given, WellFramed msg) ∧
        (∀ msgs ∈ l.given.sublists, l.wire ≠ msgs.flatten) ∧
          (passes 1 opened ⟨fun _ => 0, 0⟩ ⟨l.wire, [.data 7, .data 3]⟩).map
              (fun r => (r.1.queue, r.2.stream)) =
            some ([first.take 8 ++ second.take 4], second.drop 4) :=
    exists_run Link.step_next (by decide +kernel)
  refine ⟨l, hrun, hframed, fun msgs h => hnot msgs (List.mem_sublists.2 h.1) h.2, ?_⟩
  obtain ⟨⟨csm, sock⟩, hpasses, hboth⟩ := Option.map_eq_some_iff.1 hread
  exact ⟨csm, sock, hpasses, congrArg Prod.fst hboth, congrArg Prod.snd hboth⟩

end SonicBuildimage.Iccpd.Stream
