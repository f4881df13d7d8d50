/-
  Messages from mclagsyncd: `iccp_mclagsyncd_msg_handler` of iccpd (mlacp_link_handler.c).

  Model.  A call of the handler reads one chunk of the stream into `g_iccp_mlagsyncd_recv_buf`
  and hands the messages in it over, one after the other.  Where the chunk ends inside a header
  or inside a message, the rest is read behind it.  The socket is that of `Framing`; every call
  has its own answers.  The length field is in host byte order, low byte first.

  Proved:
  * `handler_finished`: the loop over the messages ends, whatever is received.
  * `handler_exact`: a call hands over the next messages of the stream as they were sent and
    leaves the stream at the beginning of a message, if its first `recv` gives bytes, and these
    bytes do not end inside a header and leave room for the rest of the last message.
  * `dispatched_of_run`: so do calls one after the other.
  A call that does not meet the condition can hand over other bytes: `num_bytes_rxed` starts
  at -1 after a first `recv` without bytes, and it is not increased when the rest of a header
  has been read (`dispatched_otherwise`).

  Not modelled: what the handlers of the messages do, and the counters.
-/
import SonicBuildimage.Iccpd.Framing
import SonicBuildimage.Lib.Run

namespace SonicBuildimage.Iccpd.Syncd

open SonicBuildimage.Lib SonicBuildimage.Iccpd.Framing

/-! ## Reading from the socket -/

/-- `MCLAG_MAX_MSG_LEN` -/
def mclagMaxMsgLen : Nat := 4096

/-- `ICCP_MLAGSYNCD_RECV_MSG_BUFFER_SIZE` -/
def recvMsgBufferSize : Nat := mclagMaxMsgLen * 256

/-- `sizeof(struct IccpSyncdHDr)` -/
def syncdHdrSize : Nat := 4

/-- `SYNCD_RECV_RETRY_MAX` -/
def syncdRecvRetryMax : Nat := 5

/-- Why a call returns `MCLAG_ERROR`: the counter that is incremented, if there is one. -/
inductive SyncdFault where
  | rxReadSockZero
  | rxRetryFail
  | hdrReadSockErr
  | hdrReadSockZeroLen
  | tlvReadSockErr
  | tlvReadSockZeroLen
  /-- "msg length zero!!!!!" -/
  | zeroLength
  /-- the bound of the model on the loop has been reached -/
  | unfinished
  deriving DecidableEq

/-- The first chunk: its bytes, and what `num_bytes_rxed` is after it. -/
structure Chunk where
  bytes : List UInt8
  numBytesRxed : Nat
  sock : Sock

/-- The most that is read at once: there must be space for what remains of the last message. -/
def chunkSize : Nat := recvMsgBufferSize - mclagMaxMsgLen

/-- The attempts after a first one without bytes. -/
def retryChunk (stream : List UInt8) : Nat → List Ans → Except SyncdFault Chunk
  | _, [] => .error .hdrReadSockZeroLen
  | numRetry, a :: answers =>
    match recv stream chunkSize a with
    | .data bs =>
      -- `num_bytes_rxed += recv_len`, from -1
      .ok ⟨bs, bs.length - 1, ⟨stream.drop bs.length, answers⟩⟩
    | .zero => .error .hdrReadSockZeroLen
    | .again =>
      if numRetry + 1 > syncdRecvRetryMax then .error .rxRetryFail
      else retryChunk stream (numRetry + 1) answers
    | .error => .error .hdrReadSockErr

def readChunk (stream : List UInt8) : List Ans → Except SyncdFault Chunk
  | [] => .error .rxReadSockZero
  | a :: answers =>
    match recv stream chunkSize a with
    | .data bs => .ok ⟨bs, bs.length, ⟨stream.drop bs.length, answers⟩⟩
    | .zero => .error .rxReadSockZero
    | .again => retryChunk stream 0 answers
    | .error => retryChunk stream 0 answers

/-- What a call has done so far. -/
structure Rx where
  buf : Mem UInt8
  numRetry : Nat
  sock : Sock

/-- Read the `pendingLen` bytes that are missing into the buffer, from `off` on. -/
def topUp (zeroLen sockErr : SyncdFault) (buf : Mem UInt8) (off pendingLen numRetry : Nat)
    (stream : List UInt8) : List Ans → Except SyncdFault Rx
  | [] => if pendingLen = 0 then .ok ⟨buf, numRetry, ⟨stream, []⟩⟩ else .error zeroLen
  | a :: answers =>
    if pendingLen = 0 then .ok ⟨buf, numRetry, ⟨stream, a :: answers⟩⟩
    else
      match recv stream pendingLen a with
      | .data bs =>
        topUp zeroLen sockErr (buf.write off bs) (off + bs.length) (pendingLen - bs.length)
          numRetry (stream.drop bs.length) answers
      | .zero => .error zeroLen
      | .again =>
        if numRetry + 1 > syncdRecvRetryMax then .error .rxRetryFail
        else topUp zeroLen sockErr buf off pendingLen (numRetry + 1) stream answers
      | .error => .error sockErr

/-! ## The messages -/

inductive SyncdHandler where
  | fdb
  | mclagDomainCfg
  | mclagIfaceCfg
  | mclagUniqueIpCfg
  | vlanMbrUpdate
  deriving DecidableEq

/-- Who gets a message of a type (`MCLAG_SYNCD_MSG_TYPE_…`). -/
def handlerOf (type : UInt8) : Option SyncdHandler :=
  if type = 1 then some .fdb
  else if type = 2 then some .mclagDomainCfg
  else if type = 3 then some .mclagIfaceCfg
  else if type = 5 then some .mclagUniqueIpCfg
  else if type = 4 then some .vlanMbrUpdate
  else none

/-- `msg_hdr->ver`, `msg_hdr->type` and `msg_hdr->len` of the header at `pos` -/
def ver (buf : Mem UInt8) (pos : Nat) : UInt8 := buf.cell pos

def type (buf : Mem UInt8) (pos : Nat) : UInt8 := buf.cell (pos + 1)

def len (buf : Mem UInt8) (pos : Nat) : Nat :=
  (buf.cell (pos + 2)).toNat + 256 * (buf.cell (pos + 3)).toNat

/-- A call of a handler, with the bytes of the message it is given. -/
abbrev Dispatch := SyncdHandler × List UInt8

/-- The handler of the message at `pos` is called; there is none for an unknown type. -/
def dispatch (buf : Mem UInt8) (pos : Nat) : List Dispatch :=
  match handlerOf (type buf pos) with
  | some h => [(h, (buf.read (pos + len buf pos)).drop pos)]
  | none => []

def topUpHeader (numBytesRxed pos : Nat) (rx : Rx) : Except SyncdFault Rx :=
  if numBytesRxed - pos < syncdHdrSize then
    topUp .hdrReadSockZeroLen .hdrReadSockErr rx.buf numBytesRxed
      (syncdHdrSize - (numBytesRxed - pos)) rx.numRetry rx.sock.stream rx.sock.answers
  else .ok rx

def topUpMsg (numBytesRxed pos : Nat) (rx : Rx) : Except SyncdFault Rx :=
  if pos + len rx.buf pos > numBytesRxed then
    topUp .tlvReadSockZeroLen .tlvReadSockErr rx.buf numBytesRxed
      (pos + len rx.buf pos - numBytesRxed) rx.numRetry rx.sock.stream rx.sock.answers
  else .ok rx

/-- The loop over the messages, with a bound on its iterations.  `num_bytes_rxed` is not changed
    in it, and `msg_hdr` points into the buffer: what it reads is what is there at that time. -/
def msgLoop (numBytesRxed : Nat) :
    Nat → Nat → Rx → List Dispatch → Except SyncdFault (Rx × List Dispatch)
  | 0, _, _, _ => .error .unfinished
  | bound + 1, pos, rx, log =>
    if pos < numBytesRxed then
      match topUpHeader numBytesRxed pos rx with
      | .error f => .error f
      | .ok rx =>
        if len rx.buf pos = 0 then .error .zeroLength
        else if ver rx.buf pos ≠ 1 then
          msgLoop numBytesRxed bound (pos + len rx.buf pos) rx log
        else
          match topUpMsg numBytesRxed pos rx with
          | .error f => .error f
          | .ok rx =>
            msgLoop numBytesRxed bound (pos + len rx.buf pos) rx (log ++ dispatch rx.buf pos)
    else .ok (rx, log)

/-- A call that returns 0: how far the buffer was written, what was handed over and what is
    left of the stream. -/
structure Handled where
  top : Nat
  log : List Dispatch
  stream : List UInt8
  deriving DecidableEq

def mclagsyncdMsgHandler (stream : List UInt8) (answers : List Ans) : Except SyncdFault Handled :=
  match readChunk stream answers with
  | .error f => .error f
  | .ok c =>
    let buf := ((⟨fun _ => 0, 0⟩ : Mem UInt8).fill recvMsgBufferSize 0).write 0 c.bytes
    match msgLoop c.numBytesRxed (c.sock.answers.length + c.numBytesRxed + 1) 0 ⟨buf, 0, c.sock⟩ []
      with
    | .error f => .error f
    | .ok (rx, log) => .ok ⟨rx.buf.top, log, rx.sock.stream⟩

/-! ## The loop ends -/

section Ends

variable {zeroLen sockErr f : SyncdFault} {buf : Mem UInt8} {off pendingLen numRetry : Nat}
  {stream : List UInt8} {answers : List Ans} {numBytesRxed pos : Nat} {rx rx' : Rx}

theorem topUp_fault
    (h : topUp zeroLen sockErr buf off pendingLen numRetry stream answers = .error f) :
    f = zeroLen ∨ f = sockErr ∨ f = .rxRetryFail := by
  induction answers generalizing buf off pendingLen numRetry stream with
  | nil =>
    rw [topUp] at h
    split at h
    · cases h
    · cases h
      exact Or.inl rfl
  | cons a answers ih =>
    rw [topUp] at h
    split at h
    · cases h
    · split at h
      · exact ih h
      · cases h
        exact Or.inl rfl
      · split at h
        · cases h
          exact Or.inr (Or.inr rfl)
        · exact ih h
      · cases h
        exact Or.inr (Or.inl rfl)

/-- Bytes that are missing cost an answer. -/
theorem topUp_answers
    (h : topUp zeroLen sockErr buf off pendingLen numRetry stream answers = .ok rx) :
    rx.sock.answers.length ≤ answers.length ∧
      (0 < pendingLen → rx.sock.answers.length < answers.length) := by
  induction answers generalizing buf off pendingLen numRetry stream with
  | nil =>
    rw [topUp] at h
    split at h
    · cases h
      exact ⟨Nat.le_refl _, fun hp => by omega⟩
    · cases h
  | cons a answers ih =>
    rw [topUp] at h
    split at h
    · cases h
      exact ⟨Nat.le_refl _, fun hp => by omega⟩
    · rw [List.length_cons]
      split at h
      · have hle := (ih h).1
        exact ⟨by omega, fun _ => by omega⟩
      · cases h
      · split at h
        · cases h
        · have hle := (ih h).1
          exact ⟨by omega, fun _ => by omega⟩
      · cases h

theorem topUpHeader_answers (h : topUpHeader numBytesRxed pos rx = .ok rx') :
    rx'.sock.answers.length ≤ rx.sock.answers.length := by
  unfold topUpHeader at h
  split at h
  · exact (topUp_answers h).1
  · cases h
    exact Nat.le_refl _

/-- After the rest of a message has been read its length field can be another one, but then
    there is an answer less. -/
theorem topUpMsg_answers (h : topUpMsg numBytesRxed pos rx = .ok rx') :
    rx' = rx ∨ rx'.sock.answers.length < rx.sock.answers.length := by
  unfold topUpMsg at h
  split at h
  · exact Or.inr ((topUp_answers h).2 (by omega))
  · cases h
    exact Or.inl rfl

theorem msgLoop_finished {bound : Nat} {log : List Dispatch}
    (hbound : rx.sock.answers.length + (numBytesRxed - pos) < bound) :
    msgLoop numBytesRxed bound pos rx log ≠ .error .unfinished := by
  induction bound generalizing pos rx log with
  | zero => omega
  | succ bound ih =>
    rw [msgLoop]
    split
    · next hpos =>
      split
      · next f hf =>
        unfold topUpHeader at hf
        split at hf
        · rcases topUp_fault hf with rfl | rfl | rfl <;> simp
        · cases hf
      · next rx₁ hhdr =>
        have hle := topUpHeader_answers hhdr
        split
        · simp
        · next hlen =>
          split
          · exact ih (by omega)
          · split
            · next f hf =>
              unfold topUpMsg at hf
              split at hf
              · rcases topUp_fault hf with rfl | rfl | rfl <;> simp
              · cases hf
            · next rx₂ hmsg =>
              rcases topUpMsg_answers hmsg with rfl | hlt
              · exact ih (by omega)
              · exact ih (by omega)
    · simp

theorem retryChunk_fault (h : retryChunk stream numRetry answers = .error f) :
    f ≠ .unfinished := by
  induction answers generalizing numRetry with
  | nil =>
    cases h
    simp
  | cons a answers ih =>
    rw [retryChunk] at h
    split at h
    · cases h
    · cases h
      simp
    · split at h
      · cases h
        simp
      · exact ih h
    · cases h
      simp

end Ends

/-- The length field of a message. -/
def lenField : List UInt8 → Nat
  | _ :: _ :: lo :: hi :: _ => lo.toNat + 256 * hi.toNat
  | _ => 0

/-- A message of version 1, as long as its length field says. -/
def Version1 (msg : List UInt8) : Prop :=
  msg[0]? = some 1 ∧ lenField msg = msg.length ∧ syncdHdrSize ≤ msg.length

instance (msg : List UInt8) : Decidable (Version1 msg) := inferInstanceAs (Decidable (_ ∧ _))

/-- What is to be called for a message; nothing for an unknown type. -/
def expected (msg : List UInt8) : Option Dispatch :=
  (msg[1]?.bind handlerOf).map fun h => (h, msg)

theorem topUp_done {zeroLen sockErr : SyncdFault} {buf : Mem UInt8}
    {off pendingLen numRetry : Nat} {stream : List UInt8} {answers : List Ans} {rx : Rx}
    (htop : off ≤ buf.top)
    (h : topUp zeroLen sockErr buf off pendingLen numRetry stream answers = .ok rx) :
    ∃ bs, stream = bs ++ rx.sock.stream ∧ bs.length = pendingLen ∧
      Mem.Filled buf rx.buf off bs := by
  induction answers generalizing buf off pendingLen numRetry stream with
  | nil =>
    rw [topUp] at h
    split at h
    · next heq =>
      cases h
      exact ⟨[], rfl, heq.symm, Mem.filled_nil htop⟩
    · cases h
  | cons a answers ih =>
    rw [topUp] at h
    split at h
    · next heq =>
      cases h
      exact ⟨[], rfl, heq.symm, Mem.filled_nil htop⟩
    · next hne =>
      split at h
      · next bs hrecv =>
        obtain ⟨hstream, hpos, hle⟩ := recv_data (by omega) hrecv
        obtain ⟨bs', hrest, hlen, hfilled⟩ := ih (by rw [Mem.top_write]; omega) h
        refine ⟨bs ++ bs', ?_, ?_, Mem.filled_append hfilled⟩
        · rw [List.append_assoc, ← hrest, hstream]
        · rw [List.length_append]
          omega
      · cases h
      · split at h
        · cases h
        · exact ih htop h
      · cases h

/-! ## A message in the buffer -/

section Message

variable {buf : Mem UInt8} {n pos : Nat} {msg rest : List UInt8}

/-- The bytes of a message are where it begins, as far as they have been read. -/
theorem cell_of_message (hread : (buf.read n).drop pos ++ rest = msg) {i : Nat}
    (hi : pos + i < n) : msg[i]? = some (buf.cell (pos + i)) := by
  rw [← hread, List.getElem?_append_left (by rw [List.length_drop, Mem.length_read]; omega),
    List.getElem?_drop, Mem.cell_read hi]

theorem lenField_of_getElem? {a b : UInt8} (h₂ : msg[2]? = some a) (h₃ : msg[3]? = some b) :
    lenField msg = a.toNat + 256 * b.toNat := by
  match msg, h₂, h₃ with
  | _ :: _ :: _ :: _ :: _, h₂, h₃ =>
    obtain rfl := Option.some.inj h₂
    obtain rfl := Option.some.inj h₃
    rfl

/-- A header that has been read to its end. -/
theorem header_of_message (hread : (buf.read n).drop pos ++ rest = msg)
    (hhdr : pos + syncdHdrSize ≤ n) :
    msg[0]? = some (ver buf pos) ∧ msg[1]? = some (type buf pos) ∧
      lenField msg = len buf pos := by
  unfold syncdHdrSize at hhdr
  exact ⟨cell_of_message hread (i := 0) (by omega), cell_of_message hread (i := 1) (by omega),
    lenField_of_getElem? (cell_of_message hread (by omega)) (cell_of_message hread (by omega))⟩

theorem lenField_append {m : List UInt8} (h : syncdHdrSize ≤ m.length) (rest : List UInt8) :
    lenField (m ++ rest) = lenField m := by
  match m, h with
  | _ :: _ :: _ :: _ :: _, _ => rfl

/-- A message that has been read to its end is handed over as it is. -/
theorem dispatch_of_message (hmsg : Version1 msg)
    (hread : (buf.read n).drop pos = msg ++ rest) (hend : pos + msg.length ≤ n) :
    dispatch buf pos = (expected msg).toList := by
  obtain ⟨-, hlen, hhdr⟩ := hmsg
  have hwhole : (buf.read (pos + msg.length)).drop pos = msg := by
    rw [← Mem.take_read buf hend, List.drop_take, hread, Nat.add_sub_cancel_left, List.take_left]
  have hnil : (buf.read (pos + msg.length)).drop pos ++ [] = msg := by
    rw [List.append_nil, hwhole]
  obtain ⟨-, htype, hfield⟩ := header_of_message hnil (by omega)
  unfold dispatch expected
  rw [← hfield, hlen, hwhole, htype, Option.bind_some]
  cases handlerOf (type buf pos) with
  | none => rfl
  | some h => rfl

end Message

/-! ## Where a chunk ends -/

/-- Where the message begins in which the first `n` bytes of a stream end. -/
def lastStart : Nat → Nat → List UInt8 → Nat
  | 0, _, _ => 0
  | bound + 1, n, stream =>
    if n ≤ lenField stream then 0
    else lenField stream + lastStart bound (n - lenField stream) (stream.drop (lenField stream))

/-- The header is complete of the message in which the first `n` bytes end, and the buffer is
    long enough for this message if it begins where these bytes begin. -/
def EndsWell (bound off n : Nat) (stream : List UInt8) : Prop :=
  lastStart bound n stream + syncdHdrSize ≤ n ∧
    off + lastStart bound n stream + lenField (stream.drop (lastStart bound n stream)) ≤
      recvMsgBufferSize

instance (bound off n : Nat) (stream : List UInt8) : Decidable (EndsWell bound off n stream) :=
  inferInstanceAs (Decidable (_ ∧ _))

section EndsWell

variable {bound off n : Nat} {m rest : List UInt8}

/-- The bytes end in the first message. -/
theorem EndsWell.first (hm : Version1 m) (h : EndsWell bound off n (m ++ rest))
    (hn : n ≤ m.length) : syncdHdrSize ≤ n ∧ off + m.length ≤ recvMsgBufferSize := by
  have hstart : lastStart bound n (m ++ rest) = 0 := by
    cases bound with
    | zero => rfl
    | succ bound =>
      rw [lastStart, lenField_append hm.2.2, hm.2.1, if_pos hn]
  unfold EndsWell at h
  rw [hstart, List.drop_zero, lenField_append hm.2.2, hm.2.1] at h
  omega

/-- The bytes end behind the first message. -/
theorem EndsWell.behind (hm : Version1 m) (h : EndsWell (bound + 1) off n (m ++ rest))
    (hn : m.length < n) : EndsWell bound (off + m.length) (n - m.length) rest := by
  have hstart : lastStart (bound + 1) n (m ++ rest) =
      m.length + lastStart bound (n - m.length) rest := by
    rw [lastStart, lenField_append hm.2.2, hm.2.1, if_neg (by omega), List.drop_left]
  unfold EndsWell at h ⊢
  rw [hstart, List.drop_append, List.drop_of_length_le (Nat.le_add_right _ _), List.nil_append,
    Nat.add_sub_cancel_left] at h
  omega

end EndsWell

/-! ## The messages of a chunk -/

/-- What the loop does with messages `msgs` that begin at `pos`: it hands over the first ones of
    them and leaves the stream at the beginning of the next. -/
def Exact (msgs : List (List UInt8)) (log : List Dispatch) (r : Rx × List Dispatch) : Prop :=
  ∃ k, r.2 = log ++ (msgs.take k).filterMap expected ∧ r.1.sock.stream = (msgs.drop k).flatten ∧
    r.1.buf.top ≤ recvMsgBufferSize

theorem Exact.cons {m : List UInt8} {msgs : List (List UInt8)} {log : List Dispatch}
    {r : Rx × List Dispatch} (h : Exact msgs (log ++ (expected m).toList) r) :
    Exact (m :: msgs) log r := by
  obtain ⟨k, hlog, hstream, htop⟩ := h
  refine ⟨k + 1, ?_, hstream, htop⟩
  rw [hlog, List.take_succ_cons, List.filterMap_cons, List.append_assoc]
  cases expected m with
  | none => rfl
  | some d => rfl

/-- What the buffer holds when the loop is at `pos`: the bytes `c` of the chunk, of which the
    message `m` begins at `pos`. -/
structure AtMessage (c : List UInt8) (pos : Nat) (rx : Rx) (m rest : List UInt8) : Prop where
  version1 : Version1 m
  read : rx.buf.read c.length = c
  inside : pos < c.length
  split : c.drop pos ++ rx.sock.stream = m ++ rest
  header : pos + syncdHdrSize ≤ c.length
  room : c.length ≤ pos + m.length → pos + m.length ≤ recvMsgBufferSize
  top : rx.buf.top = recvMsgBufferSize
  chunk : c.length ≤ recvMsgBufferSize

section AtMessage

variable {c : List UInt8} {pos : Nat} {rx rx' : Rx} {m rest : List UInt8}

theorem AtMessage.fields (h : AtMessage c pos rx m rest) :
    ver rx.buf pos = 1 ∧ len rx.buf pos = m.length := by
  have hread : (rx.buf.read c.length).drop pos ++ rx.sock.stream = m ++ rest := by
    rw [h.read, h.split]
  obtain ⟨hver, -, hlen⟩ := header_of_message hread h.header
  obtain ⟨hver', hlen', hhdr⟩ := h.version1
  rw [lenField_append hhdr, hlen'] at hlen
  unfold syncdHdrSize at hhdr
  rw [List.getElem?_append_left (by omega), hver'] at hver
  exact ⟨(Option.some.inj hver).symm, hlen.symm⟩

/-- The first message is in the buffer as a whole. -/
theorem AtMessage.whole (h : AtMessage c pos rx m rest) (hle : pos + m.length ≤ c.length) :
    dispatch rx.buf pos = (expected m).toList ∧
      c.drop (pos + m.length) ++ rx.sock.stream = rest := by
  have hdrop : (c.drop pos).length = c.length - pos := List.length_drop
  have htake : (c.drop pos).take m.length = m := by
    have htake' := congrArg (List.take m.length) h.split
    rwa [List.take_append_of_le_length (by omega), List.take_left] at htake'
  have hsplit : c.drop pos = m ++ c.drop (pos + m.length) := by
    rw [← List.drop_drop]
    conv_lhs => rw [← List.take_append_drop m.length (c.drop pos), htake]
  refine ⟨dispatch_of_message h.version1 (by rw [h.read]; exact hsplit) hle, ?_⟩
  have hrest := h.split
  rw [hsplit, List.append_assoc] at hrest
  exact List.append_cancel_left hrest

/-- The rest of the first message is read behind the chunk. -/
theorem AtMessage.topUp_rest (h : AtMessage c pos rx m rest) (hlt : c.length < pos + m.length)
    (hmsg : topUp .tlvReadSockZeroLen .tlvReadSockErr rx.buf c.length (pos + m.length - c.length)
      rx.numRetry rx.sock.stream rx.sock.answers = .ok rx') :
    dispatch rx'.buf pos = (expected m).toList ∧ len rx'.buf pos = m.length ∧
      rx'.sock.stream = rest ∧ rx'.buf.top = recvMsgBufferSize := by
  obtain ⟨bs, hstream, hbs, hread, htop⟩ := topUp_done (by rw [h.top]; exact h.chunk) hmsg
  rw [hbs] at hread htop
  have hsum : c.length + (pos + m.length - c.length) = pos + m.length := by omega
  rw [hsum] at hread htop
  rw [h.read] at hread
  have hpos := h.inside
  -- the chunk from `pos` on and what has been read are the message
  have hsplit : (c.drop pos ++ bs) ++ rx'.sock.stream = m ++ rest := by
    rw [List.append_assoc, ← hstream, h.split]
  obtain ⟨hm, hrest⟩ := List.append_inj hsplit (by
    rw [List.length_append, List.length_drop, hbs]
    omega)
  have hwhole : (rx'.buf.read (pos + m.length)).drop pos = m ++ [] := by
    rw [hread, List.drop_append_of_le_length hpos.le, hm, List.append_nil]
  have hhdr := h.version1.2.2
  have hnil : (rx'.buf.read (pos + m.length)).drop pos ++ [] = m := by
    rw [hwhole, List.append_nil, List.append_nil]
  obtain ⟨-, -, hlen⟩ := header_of_message hnil (by omega)
  refine ⟨dispatch_of_message h.version1 hwhole (Nat.le_refl _), ?_, hrest, ?_⟩
  · rw [← hlen, h.version1.2.1]
  · have hroom := h.room (by omega)
    rw [htop, h.top]
    omega

/-- An iteration at a message whose header is there. -/
theorem AtMessage.step (hat : AtMessage c pos rx m rest) {bound : Nat} {log : List Dispatch}
    {r : Rx × List Dispatch} (h : msgLoop c.length bound pos rx log = .ok r) :
    ∃ bound' rx', topUpMsg c.length pos rx = .ok rx' ∧
      msgLoop c.length bound' (pos + len rx'.buf pos) rx' (log ++ dispatch rx'.buf pos) =
        .ok r := by
  obtain ⟨hver, hlen⟩ := hat.fields
  have hheader : topUpHeader c.length pos rx = .ok rx := by
    have hhdr := hat.header
    unfold topUpHeader
    rw [if_neg (by omega)]
  have hne : len rx.buf pos ≠ 0 := by
    have hhdr := hat.version1.2.2
    unfold syncdHdrSize at hhdr
    omega
  cases bound with
  | zero => cases h
  | succ bound =>
    rw [msgLoop, if_pos hat.inside, hheader] at h
    dsimp only at h
    rw [if_neg hne, if_neg (by rw [hver]; simp)] at h
    split at h
    · cases h
    · next rx' hmsg =>
      exact ⟨bound, rx', hmsg, h⟩

end AtMessage

/-- The loop ends behind the chunk. -/
theorem msgLoop_end {numBytesRxed bound pos : Nat} {rx : Rx} {log : List Dispatch}
    {r : Rx × List Dispatch} (hpos : numBytesRxed ≤ pos)
    (h : msgLoop numBytesRxed bound pos rx log = .ok r) : r = (rx, log) := by
  cases bound with
  | zero => cases h
  | succ bound =>
    rw [msgLoop, if_neg (by omega)] at h
    exact (Except.ok.inj h).symm

/-- Behind the chunk the stream is at the beginning of the next message. -/
theorem exact_of_end {c : List UInt8} {msgs : List (List UInt8)} {bound pos : Nat} {rx : Rx}
    {log : List Dispatch} {r : Rx × List Dispatch} (htop : rx.buf.top = recvMsgBufferSize)
    (hsplit : c.drop pos ++ rx.sock.stream = msgs.flatten) (hpos : c.length ≤ pos)
    (h : msgLoop c.length bound pos rx log = .ok r) : Exact msgs log r := by
  obtain rfl := msgLoop_end hpos h
  rw [List.drop_of_length_le hpos] at hsplit
  exact ⟨0, by simp, hsplit, htop.le⟩

/-- The loop over the messages of a chunk `c` that ends well. -/
theorem msgLoop_exact {c : List UInt8} {msgs : List (List UInt8)}
    (hmsgs : ∀ m ∈ msgs, Version1 m) (hchunk : c.length ≤ recvMsgBufferSize)
    {bound pos cuts : Nat} {rx : Rx} {log : List Dispatch} {r : Rx × List Dispatch}
    (hread : rx.buf.read c.length = c) (htop : rx.buf.top = recvMsgBufferSize)
    (hsplit : c.drop pos ++ rx.sock.stream = msgs.flatten) (hpos : pos ≤ c.length)
    (hcuts : c.length ≤ pos + cuts)
    (hends : pos < c.length → EndsWell cuts pos (c.length - pos) msgs.flatten)
    (h : msgLoop c.length bound pos rx log = .ok r) : Exact msgs log r := by
  induction msgs generalizing bound pos cuts rx log with
  | nil =>
    refine exact_of_end htop hsplit ?_ h
    have hnil : c.drop pos = [] := (List.append_eq_nil_iff.1 hsplit).1
    exact List.drop_eq_nil_iff.1 hnil
  | cons m msgs ih =>
    by_cases hlt : pos < c.length
    · have hm := hmsgs m List.mem_cons_self
      rw [List.flatten_cons] at hsplit hends
      have hhdr : syncdHdrSize ≤ c.length - pos := by
        by_cases hle : c.length - pos ≤ m.length
        · exact ((hends hlt).first hm hle).1
        · have := hm.2.2
          omega
      have hat : AtMessage c pos rx m msgs.flatten :=
        ⟨hm, hread, hlt, hsplit, by omega,
          fun hle => ((hends hlt).first hm (by omega)).2, htop, hchunk⟩
      obtain ⟨bound', rx', hmsg, h⟩ := hat.step h
      unfold topUpMsg at hmsg
      rw [hat.fields.2] at hmsg
      refine Exact.cons ?_
      split at hmsg
      · next hgt =>
        -- the rest of the last message is read, and the loop ends
        obtain ⟨hdispatch, hlen, hstream, htop'⟩ := hat.topUp_rest hgt hmsg
        rw [hdispatch, hlen] at h
        obtain rfl := msgLoop_end (by omega) h
        exact ⟨0, by simp, hstream, htop'.le⟩
      · next hle =>
        obtain rfl := Except.ok.inj hmsg
        obtain ⟨hdispatch, hsplit'⟩ := hat.whole (by omega)
        rw [hdispatch, hat.fields.2] at h
        obtain ⟨cuts, rfl⟩ : ∃ k, cuts = k + 1 := ⟨cuts - 1, by omega⟩
        have hpos' := hm.2.2
        unfold syncdHdrSize at hpos'
        refine ih (fun m' hm' => hmsgs m' (List.mem_cons_of_mem m hm')) hread htop hsplit'
          (by omega) (show c.length ≤ pos + m.length + cuts by omega) (fun hlt' => ?_) h
        rw [← Nat.sub_sub]
        exact (hends hlt).behind hm (by omega)
    · exact exact_of_end htop hsplit (by omega) h

/-! ## The handler -/

/-- What is asked of a call: its first `recv` gives bytes, the last header in them is complete,
    and the message it begins fits the buffer.  A connection that is found closed is all right,
    the call returns an error then. -/
def Received (stream : List UInt8) : List Ans → Prop
  | .data n :: _ =>
    let chunk := min (min (n + 1) chunkSize) stream.length
    stream ≠ [] → EndsWell chunk 0 chunk stream
  | .closed :: _ => True
  | .again :: _ => False
  | .error :: _ => False
  | [] => True

instance (stream : List UInt8) (answers : List Ans) : Decidable (Received stream answers) :=
  match answers with
  | .data _ :: _ => inferInstanceAs (Decidable (_ → _))
  | .closed :: _ => isTrue trivial
  | .again :: _ => isFalse id
  | .error :: _ => isFalse id
  | [] => isTrue trivial

/-- A chunk that is read at once is counted as it is. -/
theorem readChunk_received {stream : List UInt8} {answers : List Ans} {c : Chunk}
    (hok : Received stream answers) (h : readChunk stream answers = .ok c) :
    c.numBytesRxed = c.bytes.length ∧ c.bytes ++ c.sock.stream = stream ∧
      c.bytes.length ≤ recvMsgBufferSize ∧ EndsWell c.bytes.length 0 c.bytes.length stream := by
  match answers, hok, h with
  | .data n :: answers, hok, h =>
    by_cases hne : stream = []
    · rw [readChunk, recv, if_pos hne] at h
      cases h
    · have hrecv : recv stream chunkSize (.data n) =
          .data (stream.take (min (n + 1) chunkSize)) := by
        rw [recv, if_neg hne]
      rw [readChunk, hrecv] at h
      obtain ⟨hstream, -, hle⟩ := recv_data (by decide) hrecv
      have hends := hok hne
      obtain rfl := Except.ok.inj h
      dsimp only
      rw [← List.length_take] at hends
      exact ⟨rfl, hstream, Nat.le_trans hle (by decide), hends⟩
  | .closed :: answers, _, h => cases h

/-- A call hands over the next messages of the stream and leaves it at the beginning of the one
    behind them. -/
theorem handler_exact {msgs : List (List UInt8)} (hmsgs : ∀ m ∈ msgs, Version1 m)
    {answers : List Ans} {r : Handled} (hok : Received msgs.flatten answers)
    (h : mclagsyncdMsgHandler msgs.flatten answers = .ok r) :
    ∃ k, r.log = (msgs.take k).filterMap expected ∧ r.stream = (msgs.drop k).flatten ∧
      r.top ≤ recvMsgBufferSize := by
  unfold mclagsyncdMsgHandler at h
  split at h
  · cases h
  · next c hc =>
    obtain ⟨hnum, hstream, hsize, hends⟩ := readChunk_received hok hc
    dsimp only at h
    split at h
    · cases h
    · next rx log hloop =>
      cases h
      rw [hnum] at hloop
      have hread := Mem.read_write
        ((⟨fun _ => 0, 0⟩ : Mem UInt8).fill recvMsgBufferSize 0) 0 c.bytes
      rw [Nat.zero_add] at hread
      have hexact : Exact msgs [] (rx, log) :=
        msgLoop_exact hmsgs hsize hread (by rw [Mem.top_write, Mem.top_fill]; omega)
          (by rw [List.drop_zero]; exact hstream) (Nat.zero_le _) (Nat.le_add_left _ _)
          (fun _ => hends) hloop
      exact hexact

/-! ## Calls one after the other -/

/-- What the calls so far have done together. -/
structure Session where
  stream : List UInt8
  log : List Dispatch
  top : Nat
  deriving DecidableEq

/-- A call that returns 0. -/
def Session.next (s : Session) (answers : List Ans) : Option Session :=
  match mclagsyncdMsgHandler s.stream answers with
  | .ok r => some ⟨r.stream, s.log ++ r.log, max s.top r.top⟩
  | .error _ => none

def Session.Step (s : Session) (answers : List Ans) (s' : Session) : Prop :=
  s.next answers = some s'

def Session.Ok (s : Session) (answers : List Ans) : Prop := Received s.stream answers

instance (s : Session) (answers : List Ans) : Decidable (s.Ok answers) :=
  inferInstanceAs (Decidable (Received _ _))

/-- mclagsyncd sends these messages. -/
def Session.sent (msgs : List (List UInt8)) : Session := ⟨msgs.flatten, [], 0⟩

/-- Of the messages `msgs` the first ones have been handed over, as they were sent and in order,
    and the others are still to be read. -/
def Session.InStep (msgs : List (List UInt8)) (s : Session) : Prop :=
  ∃ k, s.log = (msgs.take k).filterMap expected ∧ s.stream = (msgs.drop k).flatten ∧
    s.top ≤ recvMsgBufferSize

theorem Session.inStep_next {msgs : List (List UInt8)} (hmsgs : ∀ m ∈ msgs, Version1 m)
    {s s' : Session} {answers : List Ans} (h : s.InStep msgs) (hok : s.Ok answers)
    (hstep : Session.Step s answers s') : s'.InStep msgs := by
  obtain ⟨k, hlog, hstream, htop⟩ := h
  unfold Session.Ok at hok
  unfold Session.Step Session.next at hstep
  rw [hstream] at hok hstep
  split at hstep
  · next r hr =>
    obtain ⟨j, hlog', hstream', htop'⟩ :=
      handler_exact (fun m hm => hmsgs m (List.mem_of_mem_drop hm)) hok hr
    obtain rfl := Option.some.inj hstep
    refine ⟨k + j, ?_, ?_, ?_⟩
    · rw [hlog, hlog', List.take_add, List.filterMap_append]
    · rw [hstream', List.drop_drop]
    · exact Nat.max_le.2 ⟨htop, htop'⟩
  · cases hstep

/-- In every run of calls that return 0 and meet the condition, exactly the messages of the
    stream are handed over, each once, complete and in order. -/
theorem dispatched_of_run {msgs : List (List UInt8)} (hmsgs : ∀ m ∈ msgs, Version1 m)
    {calls : List (List Ans)} {s : Session}
    (hrun : Run Session.Step Session.Ok (Session.sent msgs) calls s) : s.InStep msgs :=
  hrun.invariant (P := Session.InStep msgs)
    (fun _ _ _ h hok hstep => Session.inStep_next hmsgs h hok hstep)
    ⟨0, by simp [Session.sent], rfl, Nat.zero_le _⟩

/-- An FDB message with one record: a MAC address, its VLAN, a port, type and operation. -/
def fdbMsg (mac : UInt8) : List UInt8 :=
  [1, 1, 40, 0] ++ [40, 0, 0, 0, 0, mac] ++ [0, 0] ++ [10, 0, 0, 0] ++
    ("PortChannel1".toList.map fun c => c.toNat.toUInt8) ++ List.replicate 8 0 ++ [1, 0] ++ [1, 0]

/-- Three messages, of which the second arrives in two pieces. -/
theorem dispatched_three :
    ∃ s, Run Session.Step Session.Ok (Session.sent [fdbMsg 1, fdbMsg 2, fdbMsg 3])
        [[.data 49, .again, .data 29], [.data 99]] s ∧
      s.log.length = 3 ∧ s.InStep [fdbMsg 1, fdbMsg 2, fdbMsg 3] := by
  refine exists_run_imp (fun _ _ _ h => h) (fun s => s.log.length = 3) (by decide +kernel) ?_
  intro s hrun hlog
  exact ⟨hlog, dispatched_of_run (by decide +kernel) hrun⟩

/-- Only what was sent is handed over. -/
theorem Session.InStep.mem {msgs : List (List UInt8)} {s : Session} (h : s.InStep msgs) :
    ∀ d ∈ s.log, d.2 ∈ msgs := by
  obtain ⟨k, hlog, -, -⟩ := h
  intro d hd
  rw [hlog, List.mem_filterMap] at hd
  obtain ⟨m, hm, hexp⟩ := hd
  obtain ⟨h, -, rfl⟩ := Option.map_eq_some_iff.1 hexp
  exact List.mem_of_mem_take hm

/-- Version 1 messages of which other bytes are handed over, by a call that returns 0: the first
    chunk ends inside the header of the second message, or the first `recv` has to be tried
    again. -/
theorem dispatched_otherwise :
    (∀ m ∈ [fdbMsg 1, fdbMsg 2, fdbMsg 3], Version1 m) ∧
      ∀ answers ∈ [[Ans.data 41, .data 1, .data 37], [Ans.again, .data 39, .data 0]],
        ∃ s, (Session.sent [fdbMsg 1, fdbMsg 2, fdbMsg 3]).next answers = some s ∧
          ¬s.InStep [fdbMsg 1, fdbMsg 2, fdbMsg 3] := by
  have hother : ∀ answers ∈ [[Ans.data 41, .data 1, .data 37], [Ans.again, .data 39, .data 0]],
      ∃ s ∈ (Session.sent [fdbMsg 1, fdbMsg 2, fdbMsg 3]).next answers,
        ¬∀ d ∈ s.log, d.2 ∈ [fdbMsg 1, fdbMsg 2, fdbMsg 3] := by decide +kernel
  refine ⟨by decide +kernel, fun answers ha => ?_⟩
  obtain ⟨s, hs, hne⟩ := hother answers ha
  exact ⟨s, hs, fun h => hne h.mem⟩

end SonicBuildimage.Iccpd.Syncd
