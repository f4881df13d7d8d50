/-
  Messages from the peer: `scheduler_csm_read_callback` of iccpd (scheduler.c).

  Model.  The peer sends a stream of bytes.  `recv` answers each call with some of the next
  bytes, with the end of the connection, with "try again" or with an error; the answers are
  given as a list (`Ans`), so that every way in which the stream can be cut is one list.
  After the last answer the connection has ended.  A pass reads the 8 bytes of the LDP header
  and then the rest of the message into `g_csm_buf`, as long as the length field says.

  Proved:
  * `pass_framed`: a pass that returns 1 takes the next `msg_len + 4` bytes of the stream,
    hands exactly these over as one message and leaves the stream behind them.
  * `passes_framed`: so do passes one after the other.
  * `frame_ok_iff`: the buffer is not written beyond its end, whatever is sent, exactly for
    the lengths up to 65532.  The header is 8 bytes long and the length field counts all of
    it but 4 bytes, so a message can have 65539 bytes; `frame_65535_overflows` is one.

  Not modelled: what `iccp_csm_enqueue_msg` does with a message (the byte order of its type
  field, which list it goes to), the sleeping between attempts, the counters of retries, and
  what a disconnect does besides closing the socket.
-/
import SonicBuildimage.Lib.Memory
import Mathlib.Tactic.Common

namespace SonicBuildimage.Iccpd.Framing

open SonicBuildimage.Lib

/-! ## The socket -/

/-- `CSM_BUFFER_SIZE` -/
def csmBufferSize : Nat := 65536

/-- `sizeof(LDPHdr)` -/
def ldpHdrSize : Nat := 8

/-- `MSG_L_INCLUD_U_BIT_MSG_T_L_FIELDS` -/
def msgLIncludUBitMsgTLFields : Nat := 4

/-- `RECV_RETRY_MAX` -/
def recvRetryMax : Nat := 10

/-- What the next call of `recv` meets. -/
inductive Ans where
  /-- at most `n + 1` bytes are there -/
  | data (n : Nat)
  | closed
  /-- `EAGAIN` or `EWOULDBLOCK` -/
  | again
  | error
  deriving DecidableEq

structure Sock where
  stream : List UInt8
  answers : List Ans

/-- What `recv` gives. -/
inductive Recv where
  | data (bs : List UInt8)
  | zero
  | again
  | error

/-- `recv` of at most `len` bytes. -/
def recv (stream : List UInt8) (len : Nat) : Ans → Recv
  | .data n => if stream = [] then .zero else .data (stream.take (min (n + 1) len))
  | .closed => .zero
  | .again => .again
  | .error => .error

/-- Why a session is given up: the counter that is incremented. -/
inductive Fault where
  | hdrReadSockErr
  | hdrReadSockZeroLen
  | invalidPeerMsg
  | rxRetryFail
  | tlvReadSockErr
  | tlvReadSockZeroLen
  deriving DecidableEq

/-- How a loop ends. -/
inductive Loop where
  | done (buf : Mem UInt8) (sock : Sock)
  | fault (f : Fault) (buf : Mem UInt8) (sock : Sock)

def Loop.buf : Loop → Mem UInt8
  | .done buf _ => buf
  | .fault _ buf _ => buf

/-! ## The loops -/

/-- The loop over the header; here `recv` waits, and "try again" is an error. -/
def headerLoop (buf : Mem UInt8) (recvLen : Nat) (stream : List UInt8) : List Ans → Loop
  | [] =>
    if recvLen = ldpHdrSize then .done buf ⟨stream, []⟩
    else .fault .hdrReadSockZeroLen buf ⟨stream, []⟩
  | a :: answers =>
    if recvLen = ldpHdrSize then .done buf ⟨stream, a :: answers⟩
    else
      match recv stream (ldpHdrSize - recvLen) a with
      | .data bs =>
        headerLoop (buf.write recvLen bs) (recvLen + bs.length) (stream.drop bs.length) answers
      | .zero => .fault .hdrReadSockZeroLen buf ⟨stream, answers⟩
      | .again => .fault .hdrReadSockErr buf ⟨stream, answers⟩
      | .error => .fault .hdrReadSockErr buf ⟨stream, answers⟩

/-- The loop over the data: `pos` bytes are there and `dataLen` are missing. -/
def dataLoop (buf : Mem UInt8) (pos dataLen numRetry : Nat) (stream : List UInt8) :
    List Ans → Loop
  | [] =>
    if dataLen = 0 then .done buf ⟨stream, []⟩ else .fault .tlvReadSockZeroLen buf ⟨stream, []⟩
  | a :: answers =>
    if dataLen = 0 then .done buf ⟨stream, a :: answers⟩
    else
      match recv stream dataLen a with
      | .data bs =>
        dataLoop (buf.write (ldpHdrSize + pos) bs) (pos + bs.length) (dataLen - bs.length) numRetry
          (stream.drop bs.length) answers
      | .zero => .fault .tlvReadSockZeroLen buf ⟨stream, answers⟩
      | .again =>
        if numRetry + 1 > recvRetryMax then .fault .rxRetryFail buf ⟨stream, answers⟩
        else dataLoop buf pos dataLen (numRetry + 1) stream answers
      | .error => .fault .tlvReadSockErr buf ⟨stream, answers⟩

/-! ## A pass -/

structure Csm where
  sockFd : Int
  /-- the messages that `iccp_csm_enqueue_msg` has got -/
  queue : List (List UInt8)
  iccMsgInCount : Nat
  iMsgInCount : Nat

/-- The state after a pass, and what it returns (`none` for `MCLAG_ERROR`). -/
structure Pass where
  csm : Csm
  buf : Mem UInt8
  sock : Sock
  fault : Option Fault
  ret : Option Nat

/-- `scheduler_session_disconnect_handler` -/
def sessionDisconnect (csm : Csm) : Csm := { csm with sockFd := -1 }

/-- `ntohs(ldp_hdr->msg_len)` -/
def msgLen (buf : Mem UInt8) : Nat := (buf.cell 2).toNat * 256 + (buf.cell 3).toNat

def recvErr (csm : Csm) (f : Fault) (buf : Mem UInt8) (sock : Sock) : Pass :=
  ⟨sessionDisconnect csm, buf, sock, some f, none⟩

/-- `iccp_csm_init_msg` and `iccp_csm_enqueue_msg`; `malloc` tells whether there is memory for
    the message. -/
def enqueue (csm : Csm) (malloc : Bool) (buf : Mem UInt8) (sock : Sock) : Pass :=
  let csm :=
    if malloc then
      { csm with
        queue := csm.queue ++ [buf.read (msgLen buf + msgLIncludUBitMsgTLFields)]
        iccMsgInCount := csm.iccMsgInCount + 1 }
    else { csm with iMsgInCount := csm.iMsgInCount + 1 }
  ⟨csm, buf, sock, none, some 1⟩

/-- The part of a pass after the header. -/
def readData (csm : Csm) (malloc : Bool) (buf : Mem UInt8) (sock : Sock) : Pass :=
  if msgLen buf ≥ msgLIncludUBitMsgTLFields then
    match dataLoop buf 0 (msgLen buf - msgLIncludUBitMsgTLFields) 0 sock.stream sock.answers with
    | .done buf sock => enqueue csm malloc buf sock
    | .fault f buf sock => recvErr csm f buf sock
  else recvErr csm .invalidPeerMsg buf sock

def schedulerCsmReadCallback (csm : Csm) (malloc : Bool) (buf : Mem UInt8) (sock : Sock) : Pass :=
  if csm.sockFd ≤ 0 then ⟨csm, { buf with top := 0 }, sock, none, none⟩
  else
    match headerLoop (buf.fill csmBufferSize 0) 0 sock.stream sock.answers with
    | .done buf sock => readData csm malloc buf sock
    | .fault f buf sock => recvErr csm f buf sock

/-! ## What the loops read -/

/-- The bytes that `recv` gives are the next ones, at least one and not too many. -/
theorem recv_data {stream bs : List UInt8} {len : Nat} {a : Ans} (hlen : 0 < len)
    (h : recv stream len a = .data bs) :
    bs ++ stream.drop bs.length = stream ∧ 0 < bs.length ∧ bs.length ≤ len := by
  cases a with
  | data n =>
    rw [recv] at h
    split at h
    · exact absurd h (by simp)
    · next hne =>
      have hpos : 0 < stream.length := List.length_pos_iff.2 hne
      obtain rfl := Recv.data.inj h
      have hk : 0 < min (n + 1) len ∧ min (n + 1) len ≤ len := by omega
      generalize min (n + 1) len = k at hk
      rw [List.length_take]
      refine ⟨?_, by omega, by omega⟩
      by_cases hle : k ≤ stream.length
      · rw [Nat.min_eq_left hle, List.take_append_drop]
      · have hle' : stream.length ≤ k := by omega
        rw [Nat.min_eq_right hle', List.drop_length, List.append_nil,
          List.take_of_length_le hle']
  | closed => exact absurd h (by simp [recv])
  | again => exact absurd h (by simp [recv])
  | error => exact absurd h (by simp [recv])

theorem headerLoop_done {buf buf' : Mem UInt8} {recvLen : Nat} {stream : List UInt8}
    {answers : List Ans} {sock : Sock} (hr : recvLen ≤ ldpHdrSize)
    (h : headerLoop buf recvLen stream answers = .done buf' sock) :
    ∃ bs, stream = bs ++ sock.stream ∧ bs.length = ldpHdrSize - recvLen ∧
      buf'.read ldpHdrSize = buf.read recvLen ++ bs := by
  induction answers generalizing buf recvLen stream with
  | nil =>
    rw [headerLoop] at h
    split at h
    · next heq =>
      cases h
      exact ⟨[], rfl, by simp [heq], by rw [heq, List.append_nil]⟩
    · exact absurd h (by simp)
  | cons a answers ih =>
    rw [headerLoop] at h
    split at h
    · next heq =>
      cases h
      exact ⟨[], rfl, by simp [heq], by rw [heq, List.append_nil]⟩
    · next hne =>
      split at h
      · next bs hrecv =>
        obtain ⟨hstream, hpos, hle⟩ := recv_data (by omega) hrecv
        obtain ⟨bs', hrest, hlen, hread⟩ := ih (by omega) h
        refine ⟨bs ++ bs', ?_, ?_, ?_⟩
        · rw [List.append_assoc, ← hrest, hstream]
        · rw [List.length_append]
          omega
        · rw [hread, Mem.read_write, List.append_assoc]
      · exact absurd h (by simp)
      · exact absurd h (by simp)
      · exact absurd h (by simp)

/-- The header is read into the first 8 bytes of the buffer. -/
theorem headerLoop_top {buf : Mem UInt8} {recvLen : Nat} {stream : List UInt8}
    {answers : List Ans} (hr : recvLen ≤ ldpHdrSize) (htop : ldpHdrSize ≤ buf.top) :
    (headerLoop buf recvLen stream answers).buf.top = buf.top := by
  induction answers generalizing buf recvLen stream with
  | nil =>
    rw [headerLoop]
    split
    · rfl
    · rfl
  | cons a answers ih =>
    rw [headerLoop]
    split
    · rfl
    · split
      · next bs hrecv =>
        obtain ⟨-, -, hle⟩ := recv_data (by omega) hrecv
        rw [ih (by omega) (by rw [Mem.top_write]; omega), Mem.top_write]
        omega
      · rfl
      · rfl
      · rfl

theorem dataLoop_done {buf buf' : Mem UInt8} {pos dataLen numRetry : Nat} {stream : List UInt8}
    {answers : List Ans} {sock : Sock} (htop : ldpHdrSize + pos ≤ buf.top)
    (h : dataLoop buf pos dataLen numRetry stream answers = .done buf' sock) :
    ∃ bs, stream = bs ++ sock.stream ∧ bs.length = dataLen ∧
      Mem.Filled buf buf' (ldpHdrSize + pos) bs := by
  induction answers generalizing buf pos dataLen numRetry stream with
  | nil =>
    rw [dataLoop] at h
    split at h
    · next heq =>
      cases h
      exact ⟨[], rfl, heq.symm, Mem.filled_nil htop⟩
    · exact absurd h (by simp)
  | cons a answers ih =>
    rw [dataLoop] at h
    split at h
    · next heq =>
      cases h
      exact ⟨[], rfl, heq.symm, Mem.filled_nil htop⟩
    · next hne =>
      split at h
      · next bs hrecv =>
        obtain ⟨hstream, hpos, hle⟩ := recv_data (by omega) hrecv
        obtain ⟨bs', hrest, hlen, hfilled⟩ := ih (by rw [Mem.top_write]; omega) h
        rw [← Nat.add_assoc] at hfilled
        refine ⟨bs ++ bs', ?_, ?_, Mem.filled_append hfilled⟩
        · rw [List.append_assoc, ← hrest, hstream]
        · rw [List.length_append]
          omega
      · exact absurd h (by simp)
      · split at h
        · exact absurd h (by simp)
        · exact ih htop h
      · exact absurd h (by simp)

/-! ## What a pass does -/

/-- The length field of the next message of a stream. -/
def lengthField : List UInt8 → Option Nat
  | _ :: _ :: a :: b :: _ => some (a.toNat * 256 + b.toNat)
  | _ => none

theorem msgLen_of_read {buf : Mem UInt8} {bs rest : List UInt8} {n : Nat} (hn : 4 ≤ n)
    (h : buf.read n = bs) : lengthField (bs ++ rest) = some (msgLen buf) := by
  have htake := Mem.take_read buf hn
  have hfour : buf.read 4 = [buf.cell 0, buf.cell 1, buf.cell 2, buf.cell 3] := rfl
  rw [h, hfour] at htake
  have hbs : bs = [buf.cell 0, buf.cell 1, buf.cell 2, buf.cell 3] ++ bs.drop 4 := by
    rw [← htake, List.take_append_drop]
  rw [hbs]
  rfl

section Pass

variable {csm : Csm} {malloc : Bool} {buf : Mem UInt8} {sock : Sock}

/-- A pass that returns 1: the header, then the data, each read to its end. -/
theorem pass_returned {n : Nat}
    (h : (schedulerCsmReadCallback csm malloc buf sock).ret = some n) :
    ∃ buf₁ sock₁ buf₂ sock₂,
      headerLoop (buf.fill csmBufferSize 0) 0 sock.stream sock.answers = .done buf₁ sock₁ ∧
      msgLIncludUBitMsgTLFields ≤ msgLen buf₁ ∧
      dataLoop buf₁ 0 (msgLen buf₁ - msgLIncludUBitMsgTLFields) 0 sock₁.stream sock₁.answers =
        .done buf₂ sock₂ ∧
      schedulerCsmReadCallback csm malloc buf sock = enqueue csm malloc buf₂ sock₂ := by
  unfold schedulerCsmReadCallback at h ⊢
  split at h
  · exact absurd h (by simp)
  · next hfd =>
    rw [if_neg hfd]
    split at h
    · next buf₁ sock₁ hheader =>
      unfold readData at h
      split at h
      · next hlen =>
        split at h
        · next buf₂ sock₂ hdata =>
          refine ⟨buf₁, sock₁, buf₂, sock₂, hheader, hlen, hdata, ?_⟩
          unfold readData
          rw [if_pos hlen, hdata]
        · exact absurd h (by simp [recvErr])
      · exact absurd h (by simp [recvErr])
    · exact absurd h (by simp [recvErr])

/-- A pass that returns 1 takes the next `msg_len + 4` bytes of the stream, hands them over as
    one message if there is memory for it, and has written as many bytes. -/
theorem pass_framed {n : Nat} (h : (schedulerCsmReadCallback csm malloc buf sock).ret = some n) :
    ∃ msg len, lengthField sock.stream = some len ∧ msgLIncludUBitMsgTLFields ≤ len ∧
      msg.length = len + msgLIncludUBitMsgTLFields ∧
      sock.stream = msg ++ (schedulerCsmReadCallback csm malloc buf sock).sock.stream ∧
      (schedulerCsmReadCallback csm malloc buf sock).csm.queue =
        (if malloc then csm.queue ++ [msg] else csm.queue) ∧
      (schedulerCsmReadCallback csm malloc buf sock).buf.top =
        max csmBufferSize (len + msgLIncludUBitMsgTLFields) := by
  obtain ⟨buf₁, sock₁, buf₂, sock₂, hheader, hlen, hdata, hpass⟩ := pass_returned h
  obtain ⟨hdr, hstream, hhdr, hread⟩ := headerLoop_done (Nat.zero_le _) hheader
  have htop : buf₁.top = csmBufferSize := by
    have hkeep : (headerLoop (buf.fill csmBufferSize 0) 0 sock.stream sock.answers).buf.top =
        csmBufferSize := headerLoop_top (Nat.zero_le _) (show 8 ≤ 65536 by decide)
    rwa [hheader] at hkeep
  obtain ⟨bs, hrest, hbs, hread', htop'⟩ := dataLoop_done (by rw [htop]; decide) hdata
  rw [hbs] at hread' htop'
  have hread₁ : buf₁.read 8 = hdr := hread
  have hsum : ldpHdrSize + 0 + (msgLen buf₁ - msgLIncludUBitMsgTLFields) =
      msgLen buf₁ + msgLIncludUBitMsgTLFields := by
    unfold ldpHdrSize msgLIncludUBitMsgTLFields at *
    omega
  rw [hsum] at hread' htop'
  have hread₂ : buf₂.read (msgLen buf₁ + msgLIncludUBitMsgTLFields) = hdr ++ bs := by
    rw [hread', ← hread₁]
    rfl
  have hfield : lengthField sock.stream = some (msgLen buf₁) := by
    rw [hstream]
    exact msgLen_of_read (by decide) hread₁
  have hsame : msgLen buf₂ = msgLen buf₁ := by
    have hfield₂ : lengthField ((hdr ++ bs) ++ sock₂.stream) = some (msgLen buf₂) :=
      msgLen_of_read (Nat.le_add_left _ _) hread₂
    rw [List.append_assoc, ← hrest, ← hstream, hfield] at hfield₂
    exact (Option.some.inj hfield₂).symm
  refine ⟨hdr ++ bs, msgLen buf₁, hfield, hlen, ?_, ?_, ?_, ?_⟩
  · rw [← hread₂, Mem.length_read]
  · rw [hpass, List.append_assoc]
    change _ = hdr ++ (bs ++ sock₂.stream)
    rw [← hrest, hstream]
  · rw [hpass]
    unfold enqueue
    rw [hsame, hread₂]
    cases malloc with
    | true => rfl
    | false => rfl
  · rw [hpass]
    change buf₂.top = _
    rw [htop', htop]

/-- A pass on an open socket that does not return 1 closes it. -/
theorem pass_gave_up (hfd : ¬ csm.sockFd ≤ 0)
    (h : (schedulerCsmReadCallback csm malloc buf sock).ret = none) :
    (schedulerCsmReadCallback csm malloc buf sock).csm.sockFd = -1 := by
  unfold schedulerCsmReadCallback at h ⊢
  rw [if_neg hfd] at h ⊢
  split at h
  · next buf₁ sock₁ hheader =>
    unfold readData at h ⊢
    split at h
    · next hlen =>
      rw [if_pos hlen]
      split at h
      · exact absurd h (by simp [enqueue])
      · rfl
    · next hlen =>
      rw [if_neg hlen]
      rfl
  · rfl

end Pass

/-! ## Passes one after the other -/

/-- `k` passes, as long as they return 1. -/
def passes : Nat → Csm → Mem UInt8 → Sock → Option (Csm × Sock)
  | 0, csm, _, sock => some (csm, sock)
  | k + 1, csm, buf, sock =>
    let p := schedulerCsmReadCallback csm true buf sock
    if p.ret.isSome then passes k p.csm p.buf p.sock else none

/-- A message is as long as its length field says. -/
def WellFramed (msg : List UInt8) : Prop :=
  lengthField msg = some (msg.length - msgLIncludUBitMsgTLFields) ∧ ldpHdrSize ≤ msg.length

instance (msg : List UInt8) : Decidable (WellFramed msg) := inferInstanceAs (Decidable (_ ∧ _))

theorem lengthField_append {msg rest : List UInt8} (h : 4 ≤ msg.length) :
    lengthField (msg ++ rest) = lengthField msg := by
  match msg, h with
  | _ :: _ :: _ :: _ :: _, _ => rfl

/-- Passes that all return 1 cut the stream into messages, each as long as it says. -/
theorem passes_framed {k : Nat} {csm csm' : Csm} {buf : Mem UInt8} {sock sock' : Sock}
    (h : passes k csm buf sock = some (csm', sock')) :
    ∃ msgs, msgs.length = k ∧ csm'.queue = csm.queue ++ msgs ∧
      sock.stream = msgs.flatten ++ sock'.stream ∧ ∀ msg ∈ msgs, WellFramed msg := by
  induction k generalizing csm buf sock with
  | zero =>
    cases h
    exact ⟨[], rfl, by simp, rfl, fun _ hm => absurd hm List.not_mem_nil⟩
  | succ k ih =>
    rw [passes] at h
    split at h
    · next hret =>
      obtain ⟨n, hn⟩ := Option.isSome_iff_exists.1 hret
      obtain ⟨msg, len, hfield, hlen, hmsg, hstream, hqueue, -⟩ := pass_framed hn
      obtain ⟨msgs, hk, hqueue', hstream', hall⟩ := ih h
      refine ⟨msg :: msgs, by rw [List.length_cons, hk], ?_, ?_, ?_⟩
      · rw [hqueue', hqueue]
        simp
      · rw [List.flatten_cons, List.append_assoc, ← hstream']
        exact hstream
      · have hmsg' : WellFramed msg := by
          unfold msgLIncludUBitMsgTLFields at hlen hmsg
          refine ⟨?_, ?_⟩
          · rw [hstream, lengthField_append (by omega)] at hfield
            rw [hfield, hmsg]
            simp [msgLIncludUBitMsgTLFields]
          · unfold ldpHdrSize
            omega
        exact List.forall_mem_cons.2 ⟨hmsg', hall⟩
    · exact absurd h (by simp)

/-! ## The end of the buffer -/

/-- What is asked of a pass: if it returns 1 and there is memory, it takes the next
    `msg_len + 4` bytes of the stream as one message; and it gives the session up or does not
    write beyond the buffer. -/
structure FrameOk (csm : Csm) (malloc : Bool) (buf : Mem UInt8) (sock : Sock) (p : Pass) :
    Prop where
  framed : p.ret.isSome → ∃ msg len, lengthField sock.stream = some len ∧
    msg.length = len + msgLIncludUBitMsgTLFields ∧ sock.stream = msg ++ p.sock.stream ∧
    p.csm.queue = if malloc then csm.queue ++ [msg] else csm.queue
  bounded : (p.ret = none ∧ p.csm.sockFd = -1) ∨ p.buf.top ≤ csmBufferSize

/-- A message that arrives in two pieces, the header and the data. -/
def twoPieces (hdr bs : List UInt8) : Sock := ⟨hdr ++ bs, [.data 7, .data bs.length]⟩

theorem pass_twoPieces {csm : Csm} (hfd : 0 < csm.sockFd) (malloc : Bool) (buf : Mem UInt8)
    {hdr bs : List UInt8} {len : Nat} (hhdr : hdr.length = ldpHdrSize)
    (hfield : lengthField (hdr ++ bs) = some len)
    (hlen : bs.length + msgLIncludUBitMsgTLFields = len) (hbs : 0 < bs.length) :
    (schedulerCsmReadCallback csm malloc buf (twoPieces hdr bs)).ret = some 1 := by
  unfold ldpHdrSize at hhdr
  have hhdr' : hdr ≠ [] := fun h => by rw [h] at hhdr; exact absurd hhdr (by decide)
  have hrecv : recv (hdr ++ bs) 8 (.data 7) = .data hdr := by
    have hne : ¬ hdr ++ bs = [] := fun h => hhdr' (List.append_eq_nil_iff.1 h).1
    rw [recv, if_neg hne, show min (7 + 1) 8 = hdr.length from hhdr.symm, List.take_left]
  have hheader : headerLoop (buf.fill csmBufferSize 0) 0 (hdr ++ bs)
      [.data 7, .data bs.length] =
      .done ((buf.fill csmBufferSize 0).write 0 hdr) ⟨bs, [.data bs.length]⟩ := by
    rw [headerLoop, if_neg (by decide)]
    simp only [ldpHdrSize, Nat.sub_zero, hrecv, hhdr, Nat.zero_add]
    rw [headerLoop, if_pos (show 8 = ldpHdrSize from rfl), ← hhdr, List.drop_left]
  have hmsgLen : msgLen ((buf.fill csmBufferSize 0).write 0 hdr) = len := by
    have hread := Mem.read_write (buf.fill csmBufferSize 0) 0 hdr
    have hfield' : lengthField (hdr ++ bs) =
        some (msgLen ((buf.fill csmBufferSize 0).write 0 hdr)) :=
      msgLen_of_read (n := 0 + hdr.length) (by omega) hread
    exact (Option.some.inj (hfield.symm.trans hfield')).symm
  have hdata : ∀ buf₁ : Mem UInt8, dataLoop buf₁ 0 bs.length 0 bs [.data bs.length] =
      .done (buf₁.write ldpHdrSize bs) ⟨[], []⟩ := by
    intro buf₁
    have hrecv' : recv bs bs.length (.data bs.length) = .data bs := by
      rw [recv, if_neg (List.length_pos_iff.1 hbs), Nat.min_eq_right (Nat.le_succ _),
        List.take_length]
    rw [dataLoop, if_neg (by omega), hrecv']
    simp only [Nat.sub_self, List.drop_length, Nat.add_zero]
    rw [dataLoop, if_pos rfl]
  unfold schedulerCsmReadCallback twoPieces
  rw [if_neg (by omega), hheader]
  dsimp only
  unfold readData
  rw [hmsgLen, if_pos (by omega)]
  have hsub : len - msgLIncludUBitMsgTLFields = bs.length := by omega
  rw [hsub, hdata]
  rfl

/-- The bytes of a message of a length, with nothing but zeros besides. -/
def zeroHdr (len : Nat) : List UInt8 :=
  [0, 0, UInt8.ofNat (len / 256), UInt8.ofNat (len % 256), 0, 0, 0, 0]

theorem lengthField_zeroHdr {len : Nat} (h : len < 65536) (rest : List UInt8) :
    lengthField (zeroHdr len ++ rest) = some len := by
  have hhi : (UInt8.ofNat (len / 256)).toNat = len / 256 :=
    UInt8.toNat_ofNat_of_lt' (show len / 256 < 256 by omega)
  have hlo : (UInt8.ofNat (len % 256)).toNat = len % 256 :=
    UInt8.toNat_ofNat_of_lt' (show len % 256 < 256 by omega)
  change some ((UInt8.ofNat (len / 256)).toNat * 256 + (UInt8.ofNat (len % 256)).toNat) = _
  rw [hhi, hlo]
  exact congrArg some (by omega)

/-- A message of zeros. -/
def zeroMessage (len : Nat) : Sock := twoPieces (zeroHdr len) (List.replicate (len - 4) 0)

/-- An open session that has got nothing yet. -/
def opened : Csm := ⟨1, [], 0, 0⟩

/-- A longer message is accepted and written behind the end of the buffer. -/
theorem pass_zeroMessage {len : Nat} (hlong : 65532 < len) (hlen : len < 65536)
    (buf : Mem UInt8) :
    (schedulerCsmReadCallback opened true buf (zeroMessage len)).ret = some 1 ∧
      (schedulerCsmReadCallback opened true buf (zeroMessage len)).buf.top = len + 4 := by
  unfold zeroMessage
  have hbs : (List.replicate (len - 4) (0 : UInt8)).length = len - 4 := List.length_replicate
  have hfield := lengthField_zeroHdr hlen (List.replicate (len - 4) 0)
  have hret := pass_twoPieces (show 0 < opened.sockFd by decide) true buf rfl hfield
    (by rw [hbs]; unfold msgLIncludUBitMsgTLFields; omega) (by omega)
  obtain ⟨msg, len', hfield', -, -, -, -, htop⟩ := pass_framed hret
  obtain rfl : len = len' := Option.some.inj (hfield.symm.trans hfield')
  refine ⟨hret, ?_⟩
  rw [htop]
  unfold csmBufferSize msgLIncludUBitMsgTLFields
  omega

/-- A frame is taken as it is, and the buffer is not written beyond its end, exactly if the
    length field is at most 65532. -/
theorem frame_ok_iff {len : Nat} (hlen : len < 65536) :
    (∀ csm malloc buf sock, lengthField sock.stream = some len →
      FrameOk csm malloc buf sock (schedulerCsmReadCallback csm malloc buf sock)) ↔
      len ≤ 65532 := by
  constructor
  · intro hall
    by_contra hlong
    obtain ⟨hret, htop⟩ := pass_zeroMessage (by omega) hlen ⟨fun _ => 0, 0⟩
    have hfield : lengthField (zeroMessage len).stream = some len := lengthField_zeroHdr hlen _
    rcases (hall opened true ⟨fun _ => 0, 0⟩ (zeroMessage len) hfield).bounded with hnone | hle
    · exact absurd (hret.symm.trans hnone.1) (by simp)
    · rw [htop, csmBufferSize] at hle
      omega
  · intro hle csm malloc buf sock hfield
    refine ⟨fun hret => ?_, ?_⟩
    · obtain ⟨n, hn⟩ := Option.isSome_iff_exists.1 hret
      obtain ⟨msg, len', hfield', -, hmsg, hstream, hqueue, -⟩ := pass_framed hn
      exact ⟨msg, len', hfield', hmsg, hstream, hqueue⟩
    · cases hret : (schedulerCsmReadCallback csm malloc buf sock).ret with
      | some n =>
        obtain ⟨msg, len', hfield', -, -, -, -, htop⟩ := pass_framed hret
        obtain rfl : len = len' := Option.some.inj (hfield.symm.trans hfield')
        rw [htop]
        unfold csmBufferSize msgLIncludUBitMsgTLFields
        exact Or.inr (by omega)
      | none =>
        by_cases hfd : csm.sockFd ≤ 0
        · right
          unfold schedulerCsmReadCallback
          rw [if_pos hfd]
          exact Nat.zero_le _
        · exact Or.inl ⟨rfl, pass_gave_up hfd hret⟩

/-- The peer's longest message that fits. -/
theorem frame_65532_fits :
    65532 < 65536 ∧ ∀ csm malloc buf sock, lengthField sock.stream = some 65532 →
      FrameOk csm malloc buf sock (schedulerCsmReadCallback csm malloc buf sock) :=
  ⟨by decide, (frame_ok_iff (by decide)).2 (by decide)⟩

/-- A message with the length field 65535 is accepted, and its last three bytes are written
    behind the end of the buffer. -/
theorem frame_65535_overflows :
    (schedulerCsmReadCallback opened true ⟨fun _ => 0, 0⟩ (zeroMessage 65535)).ret = some 1 ∧
      (schedulerCsmReadCallback opened true ⟨fun _ => 0, 0⟩ (zeroMessage 65535)).buf.top =
        csmBufferSize + 3 :=
  pass_zeroMessage (by decide) (by decide) _

end SonicBuildimage.Iccpd.Framing
