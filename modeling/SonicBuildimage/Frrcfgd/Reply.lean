/-
  Replies of the FRR daemons: `BgpdClientMgr.__get_reply` of frrcfgd
  (`frrcfgd/frrcfgd.py`).

  Model (read this before the theorems).
  * `Recv` is what one `sock.recv(16384)` gives: bytes, or `socket.timeout`.  After the peer has
    closed the socket every `recv` gives no bytes.
  * `getReply` is the loop, on the list of what the calls give.  It ends with the result, with an
    exception, or is still reading when the list is at its end; what it has not read is returned.
  * `msgBuf` is the text in `msg_buf`.  A daemon sends the text of the reply and a trailer of
    three zero bytes and the return code.

  Every `recv` result is decoded on its own, so a result that ends inside of a character raises
  `UnicodeDecodeError`.  And a socket that was closed before the trailer is read for ever: no bytes
  are less than four, the text read so far is looked at again, and the loop goes on
  (`reply_not_returned`).

  Proved: `getReply_exact_iff`.  However a reply is split, the loop returns the return code and the
  text and reads nothing that comes after exactly if every `recv` result ends between two
  characters; and it says for which streams the loop ends when the peer closes the socket.
-/
import SonicBuildimage.Lib.Utf8

namespace SonicBuildimage.Frrcfgd.Reply

open SonicBuildimage.Lib.Utf8

/-! ## The loop -/

inductive Recv where
  | data (rdMsg : List UInt8)
  | timeout

/-- Where `__get_reply` is after a call of `recv`. -/
inductive Status where
  | reading (msgBuf : List Char)
  | returned (retCode : Option UInt8) (replyMsg : Option (List Char))
  | raised
deriving DecidableEq

/-- `xs[-4:]` -/
def lastFour {α : Type} (xs : List α) : List α := xs.drop (xs.length - 4)

/-- The test of `msg_tail`, which has four bytes or more. -/
def checkTail (msgBuf : List Char) (msgTail : List UInt8) : Status :=
  match msgTail with
  | b₀ :: b₁ :: b₂ :: b₃ :: _ =>
    if b₀ = 0 ∧ b₁ = 0 ∧ b₂ = 0 then
      .returned (some b₃) (some (msgBuf.take (msgBuf.length - 4)))
    else .reading msgBuf
  | _ => .reading msgBuf

/-- The body of the loop. -/
def readChunk (msgBuf : List Char) : Recv → Status
  | .timeout => .returned none none
  | .data rdMsg =>
    match decode rdMsg with
    | none => .raised
    | some text =>
      let msgBuf := msgBuf ++ text
      if rdMsg.length < 4 then
        if msgBuf.length < 4 then .reading msgBuf
        else checkTail msgBuf (encode (lastFour msgBuf))
      else checkTail msgBuf (lastFour rdMsg)

/-- `__get_reply`, with what it has not read. -/
def getReply (msgBuf : List Char) : List Recv → Status × List Recv
  | [] => (.reading msgBuf, [])
  | r :: rs =>
    match readChunk msgBuf r with
    | .reading msgBuf => getReply msgBuf rs
    | status => (status, rs)

/-- The loop has ended. -/
def Status.Ended : Status → Prop
  | .reading _ => False
  | _ => True

/-! ## Tails -/

section Tails

variable {α : Type}

theorem lastFour_append {xs ys : List α} (h : 4 ≤ ys.length) :
    lastFour (xs ++ ys) = lastFour ys := by
  unfold lastFour
  have hlen : (xs ++ ys).length - 4 = xs.length + (ys.length - 4) := by
    rw [List.length_append]
    omega
  rw [hlen, List.drop_length_add_append]

theorem lastFour_trailer (xs : List α) (a b c d : α) :
    lastFour (xs ++ [a, b, c, d]) = [a, b, c, d] :=
  lastFour_append (Nat.le_refl 4)

/-- Before the trailer is complete, the last four elements do not start with `z`. -/
theorem lastFour_early {z c : α} {body p q : List α} (hz : z ∉ body)
    (hsplit : p ++ q = body ++ [z, z, z, c]) (hq : q ≠ []) (hp : 4 ≤ p.length) :
    ∃ x t, lastFour p = x :: t ∧ x ≠ z := by
  have hlen := congrArg List.length hsplit
  have hqlen := List.length_pos_iff.2 hq
  simp only [List.length_append, List.length_cons, List.length_nil] at hlen
  have hstart : p.length - 4 < p.length := by omega
  have hbody : p.length - 4 < body.length := by omega
  refine ⟨p[p.length - 4], p.drop (p.length - 4 + 1), List.drop_eq_getElem_cons hstart, ?_⟩
  have hget : p[p.length - 4]? = body[p.length - 4]? := calc
    p[p.length - 4]? = (p ++ q)[p.length - 4]? := (List.getElem?_append_left hstart).symm
    _ = (body ++ [z, z, z, c])[p.length - 4]? := by rw [hsplit]
    _ = body[p.length - 4]? := List.getElem?_append_left hbody
  rw [List.getElem?_eq_getElem hstart, List.getElem?_eq_getElem hbody] at hget
  intro hx
  exact hz (hx ▸ Option.some.inj hget ▸ List.getElem_mem hbody)

end Tails

/-! ## One call of `recv` -/

theorem checkTail_of_ne {msgBuf : List Char} {x : UInt8} {t : List UInt8} (hx : x ≠ 0) :
    checkTail msgBuf (x :: t) = .reading msgBuf := by
  match t with
  | [] | [_] | [_, _] => rfl
  | _ :: _ :: _ :: _ => exact if_neg fun h => hx h.1

/-- The text of a reply with its trailer. -/
def withTrailer (reply : List Char) (rc : Char) : List Char :=
  reply ++ ['\x00', '\x00', '\x00', rc]

theorem encode_trailer {rc : Char} (hrc : rc.toNat < 128) :
    encode ['\x00', '\x00', '\x00', rc] = [0, 0, 0, UInt8.ofNat rc.toNat] := by
  rw [encode_cons, encode_cons, encode_cons, encode_cons, utf8EncodeChar_ascii hrc]
  rfl

variable {reply : List Char} {rc : Char}

theorem zero_not_mem_encode (hnul : '\x00' ∉ reply) : (0 : UInt8) ∉ encode reply :=
  fun h => hnul (zero_mem_encode h)

/-- A part of the reply, before its end. -/
theorem readChunk_early (hnul : '\x00' ∉ reply) (hrc : rc.toNat < 128) {buf cs later : List Char}
    (hsplit : buf ++ cs ++ later = withTrailer reply rc) (hlater : later ≠ []) :
    readChunk buf (.data (encode cs)) = .reading (buf ++ cs) := by
  unfold readChunk
  simp only [decode_encode]
  by_cases hshort : (encode cs).length < 4
  · rw [if_pos hshort]
    by_cases hbuf : (buf ++ cs).length < 4
    · rw [if_pos hbuf]
    · rw [if_neg hbuf]
      obtain ⟨x, t, hlast, hx⟩ := lastFour_early hnul hsplit hlater (Nat.not_lt.1 hbuf)
      rw [hlast, encode_cons]
      -- the first of the four characters is not NUL, so neither is its first byte
      cases hbytes : String.utf8EncodeChar x with
      | nil => exact absurd hbytes String.utf8EncodeChar_ne_nil
      | cons b bs =>
        have hmem : b ∈ String.utf8EncodeChar x := hbytes ▸ List.mem_cons_self
        exact checkTail_of_ne (ne_zero_of_mem_utf8EncodeChar hx hmem)
  · rw [if_neg hshort]
    have hbytes : encode buf ++ encode cs ++ encode later =
        encode reply ++ [0, 0, 0, UInt8.ofNat rc.toNat] := by
      rw [← encode_append, ← encode_append, hsplit, withTrailer, encode_append, encode_trailer hrc]
    have hlen : 4 ≤ (encode buf ++ encode cs).length := by
      rw [List.length_append]
      omega
    obtain ⟨x, t, hlast, hx⟩ := lastFour_early (zero_not_mem_encode hnul) hbytes
      (encode_ne_nil hlater) hlen
    rw [lastFour_append (Nat.not_lt.1 hshort)] at hlast
    rw [hlast]
    exact checkTail_of_ne hx

/-- The last part. -/
theorem readChunk_last (hrc : rc.toNat < 128) {buf cs : List Char}
    (hsplit : buf ++ cs = withTrailer reply rc) :
    readChunk buf (.data (encode cs)) =
      .returned (some (UInt8.ofNat rc.toNat)) (some reply) := by
  have htext : (withTrailer reply rc).take ((withTrailer reply rc).length - 4) = reply := by
    unfold withTrailer
    rw [List.length_append]
    exact List.take_left
  have hcheck : checkTail (withTrailer reply rc) [0, 0, 0, UInt8.ofNat rc.toNat] =
      .returned (some (UInt8.ofNat rc.toNat)) (some reply) := by
    simp only [checkTail, and_self, if_true, htext]
  unfold readChunk
  simp only [decode_encode, hsplit]
  by_cases hshort : (encode cs).length < 4
  · have hlen : ¬(withTrailer reply rc).length < 4 := by
      rw [withTrailer, List.length_append]
      exact Nat.not_lt.2 (Nat.le_add_left 4 _)
    rw [if_pos hshort, if_neg hlen, withTrailer, lastFour_trailer, encode_trailer hrc]
    exact hcheck
  · have hbytes : encode buf ++ encode cs = encode reply ++ [0, 0, 0, UInt8.ofNat rc.toNat] := by
      rw [← encode_append, hsplit, withTrailer, encode_append, encode_trailer hrc]
    have hlast : lastFour (encode cs) = [0, 0, 0, UInt8.ofNat rc.toNat] := by
      rw [← lastFour_append (Nat.not_lt.1 hshort), hbytes, lastFour_trailer]
    rw [if_neg hshort, hlast]
    exact hcheck

/-! ## The whole reply -/

/-- The parts of a reply, each of whole characters, are read one after the other. -/
theorem getReply_parts (hnul : '\x00' ∉ reply) (hrc : rc.toNat < 128) {parts : List (List Char)}
    (hparts : ∀ cs ∈ parts, cs ≠ []) (hne : parts ≠ []) {buf : List Char}
    (hsplit : buf ++ parts.flatten = withTrailer reply rc) (later : List Recv) :
    getReply buf (parts.map (fun cs => .data (encode cs)) ++ later) =
      (.returned (some (UInt8.ofNat rc.toNat)) (some reply), later) := by
  induction parts generalizing buf with
  | nil => exact absurd rfl hne
  | cons cs parts ih =>
    rw [List.flatten_cons, ← List.append_assoc] at hsplit
    cases parts with
    | nil =>
      rw [List.flatten_nil, List.append_nil] at hsplit
      rw [List.map_singleton, List.singleton_append, getReply, readChunk_last hrc hsplit]
    | cons ds parts =>
      have hlater : (ds :: parts).flatten ≠ [] := by
        rw [List.flatten_cons]
        exact List.append_ne_nil_of_left_ne_nil
          (hparts ds (List.mem_cons_of_mem _ List.mem_cons_self)) _
      rw [List.map_cons, List.cons_append, getReply, readChunk_early hnul hrc hsplit hlater]
      exact ih (fun es hes => hparts es (List.mem_cons_of_mem _ hes)) (List.cons_ne_nil _ _) hsplit

theorem encode_flatten (parts : List (List Char)) :
    encode parts.flatten = (parts.map encode).flatten := by
  induction parts with
  | nil => rfl
  | cons cs parts ih => rw [List.flatten_cons, encode_append, ih, List.map_cons, List.flatten_cons]

/-- `recv` results that decode are the encodings of texts. -/
theorem exists_parts {chunks : List (List UInt8)} (h : ∀ c ∈ chunks, decode c ≠ none) :
    ∃ parts : List (List Char), parts.map encode = chunks := by
  induction chunks with
  | nil => exact ⟨[], rfl⟩
  | cons c chunks ih =>
    obtain ⟨cs, hcs⟩ := Option.ne_none_iff_exists'.1 (h c List.mem_cons_self)
    obtain ⟨parts, hparts⟩ := ih fun d hd => h d (List.mem_cons_of_mem _ hd)
    exact ⟨cs :: parts, by rw [List.map_cons, hparts, encode_of_decode hcs]⟩

/-! ## Streams that end -/

theorem checkTail_cases (msgBuf : List Char) (msgTail : List UInt8) :
    checkTail msgBuf msgTail = .reading msgBuf ∨ (checkTail msgBuf msgTail).Ended := by
  match msgTail with
  | [] | [_] | [_, _] | [_, _, _] => exact .inl rfl
  | b₀ :: b₁ :: b₂ :: b₃ :: t =>
    by_cases hzero : b₀ = 0 ∧ b₁ = 0 ∧ b₂ = 0
    · have hreturned : checkTail msgBuf (b₀ :: b₁ :: b₂ :: b₃ :: t) = _ := if_pos hzero
      exact .inr (hreturned ▸ trivial)
    · exact .inl (if_neg hzero)

theorem checkTail_ended_iff {msgBuf : List Char} {msgTail : List UInt8} :
    (checkTail msgBuf msgTail).Ended ↔ ∃ b t, msgTail = 0 :: 0 :: 0 :: b :: t := by
  constructor
  · intro h
    match msgTail, h with
    | b₀ :: b₁ :: b₂ :: b₃ :: t, h =>
      by_cases hzero : b₀ = 0 ∧ b₁ = 0 ∧ b₂ = 0
      · obtain ⟨rfl, rfl, rfl⟩ := hzero
        exact ⟨b₃, t, rfl⟩
      · have hreading : checkTail msgBuf (b₀ :: b₁ :: b₂ :: b₃ :: t) = _ := if_neg hzero
        rw [hreading] at h
        exact h.elim
  · rintro ⟨b, t, rfl⟩
    trivial

/-- The text ends with three NUL and one more character, which is of ASCII unless the last `recv`
    result has fewer than four bytes. -/
def Trailed (text : List Char) (rdMsg : List UInt8) : Prop :=
  ∃ reply rc, text = withTrailer reply rc ∧ (rdMsg.length < 4 ∨ rc.toNat < 128)

theorem readChunk_cases (buf : List Char) (c : List UInt8) :
    (readChunk buf (.data c)).Ended ∨
      ∃ cs, encode cs = c ∧ readChunk buf (.data c) = .reading (buf ++ cs) := by
  cases hdecode : decode c with
  | none =>
    simp only [readChunk, hdecode]
    exact .inl trivial
  | some cs =>
    have hcs := encode_of_decode hdecode
    simp only [readChunk, hdecode]
    by_cases hshort : c.length < 4
    · rw [if_pos hshort]
      by_cases hbuf : (buf ++ cs).length < 4
      · rw [if_pos hbuf]
        exact .inr ⟨cs, hcs, rfl⟩
      · rw [if_neg hbuf]
        exact (checkTail_cases (buf ++ cs) _).symm.imp_right fun h => ⟨cs, hcs, h⟩
    · rw [if_neg hshort]
      exact (checkTail_cases (buf ++ cs) _).symm.imp_right fun h => ⟨cs, hcs, h⟩

/-- A trailer at the end of the bytes is one at the end of the text. -/
theorem exists_withTrailer {text : List Char} {body : List UInt8} {rc : UInt8}
    (hrc : rc.toNat < 128) (h : encode text = body ++ [0, 0, 0, rc]) :
    ∃ reply, text = withTrailer reply (Char.ofNat rc.toNat) := by
  have hzero : (0 : UInt8).toNat < 128 := by decide
  obtain ⟨text₁, rfl, h₁⟩ := encode_eq_concat (body ++ [0, 0, 0]) hrc
    (by rw [h, List.append_assoc]; rfl)
  obtain ⟨text₂, rfl, h₂⟩ := encode_eq_concat (body ++ [0, 0]) hzero
    (by rw [h₁, List.append_assoc]; rfl)
  obtain ⟨text₃, rfl, h₃⟩ := encode_eq_concat (body ++ [0]) hzero
    (by rw [h₂, List.append_assoc]; rfl)
  obtain ⟨reply, rfl, -⟩ := encode_eq_concat body hzero h₃
  refine ⟨reply, ?_⟩
  simp only [withTrailer, List.append_assoc]
  rfl

theorem take_lastFour {α : Type} (xs : List α) : xs.take (xs.length - 4) ++ lastFour xs = xs :=
  List.take_append_drop _ _

theorem length_lastFour {α : Type} {xs : List α} (h : 4 ≤ xs.length) :
    (lastFour xs).length = 4 := by
  rw [lastFour, List.length_drop]
  omega

/-- When the loop ends with a `recv` result. -/
theorem readChunk_ended_iff {buf cs : List Char} :
    (readChunk buf (.data (encode cs))).Ended ↔ Trailed (buf ++ cs) (encode cs) := by
  unfold readChunk
  simp only [decode_encode]
  by_cases hshort : (encode cs).length < 4
  · rw [if_pos hshort]
    by_cases hbuf : (buf ++ cs).length < 4
    · rw [if_pos hbuf]
      refine iff_of_false id ?_
      rintro ⟨reply, rc, htext, -⟩
      rw [htext, withTrailer, List.length_append] at hbuf
      exact absurd hbuf (Nat.not_lt.2 (Nat.le_add_left 4 _))
    · rw [if_neg hbuf, checkTail_ended_iff]
      constructor
      · rintro ⟨b, t, htail⟩
        obtain ⟨cs₁, h₁, hcs₁⟩ := encode_eq_zero_cons htail
        obtain ⟨cs₂, rfl, hcs₂⟩ := encode_eq_zero_cons hcs₁
        obtain ⟨cs₃, rfl, -⟩ := encode_eq_zero_cons hcs₂
        have hlen := length_lastFour (Nat.not_lt.1 hbuf)
        rw [h₁] at hlen
        obtain ⟨rc, rfl⟩ := List.length_eq_one_iff.1 (by simpa using hlen)
        exact ⟨_, rc, (take_lastFour (buf ++ cs)).symm.trans (by rw [h₁]; rfl), .inl hshort⟩
      · rintro ⟨reply, rc, htext, -⟩
        rw [htext, withTrailer, lastFour_trailer, encode_cons, encode_cons, encode_cons]
        cases hrc : encode [rc] with
        | nil => exact absurd hrc (encode_ne_nil (by simp))
        | cons b t => exact ⟨b, t, rfl⟩
  · rw [if_neg hshort, checkTail_ended_iff]
    have hlen := Nat.not_lt.1 hshort
    constructor
    · rintro ⟨b, t, htail⟩
      have hfour := length_lastFour hlen
      rw [htail] at hfour
      obtain rfl : t = [] := List.length_eq_zero_iff.1 (by simpa using hfour)
      have hbytes := (take_lastFour (encode cs)).symm
      rw [htail] at hbytes
      rw [show [0, 0, 0, b] = [0, 0] ++ [0, b] from rfl, ← List.append_assoc] at hbytes
      have hrc := ascii_of_zero hbytes
      rw [List.append_assoc] at hbytes
      obtain ⟨reply, rfl⟩ := exists_withTrailer hrc hbytes
      refine ⟨buf ++ reply, _, by rw [withTrailer, withTrailer, List.append_assoc], .inr ?_⟩
      rwa [toNat_ofNat_ascii hrc]
    · rintro ⟨reply, rc, htext, hrc⟩
      have hbytes : encode buf ++ encode cs = encode reply ++ [0, 0, 0, UInt8.ofNat rc.toNat] := by
        rw [← encode_append, htext, withTrailer, encode_append,
          encode_trailer (hrc.resolve_left hshort)]
      rw [← lastFour_append hlen, hbytes, lastFour_trailer]
      exact ⟨_, _, rfl⟩

theorem readChunk_reading {buf cs : List Char} (h : ¬Trailed (buf ++ cs) (encode cs)) :
    readChunk buf (.data (encode cs)) = .reading (buf ++ cs) := by
  rcases readChunk_cases buf (encode cs) with hended | ⟨ds, hds, hread⟩
  · exact absurd (readChunk_ended_iff.1 hended) h
  · rw [hread, encode_inj hds]

/-- The first call of `recv` ends the loop, or not. -/
theorem getReply_cons_ended {buf : List Char} {r : Recv} {rs : List Recv}
    (h : (readChunk buf r).Ended) : (getReply buf (r :: rs)).1.Ended := by
  rw [getReply]
  cases hst : readChunk buf r with
  | reading msgBuf => rw [hst] at h; exact h.elim
  | returned retCode replyMsg => trivial
  | raised => trivial

/-- The text that was received with some `recv` result, the empty one behind the close included,
    is `Trailed`. -/
def TrailerRead (buf : List Char) (chunks : List (List UInt8)) : Prop :=
  ∃ (parts : List (List Char)) (last : List Char) (rest : List (List UInt8)),
    parts.map encode ++ encode last :: rest = chunks ++ [[]] ∧
      Trailed (buf ++ parts.flatten ++ last) (encode last)

theorem getReply_empty {buf : List Char} {n : Nat}
    (h : (getReply buf (List.replicate n (.data []))).1.Ended) : Trailed buf [] := by
  induction n with
  | zero => exact h.elim
  | succ n ih =>
    by_contra hnot
    have hread : readChunk buf (.data []) = .reading (buf ++ []) :=
      readChunk_reading (show ¬Trailed (buf ++ []) (encode []) by rwa [List.append_nil])
    rw [List.append_nil] at hread
    rw [List.replicate_succ, getReply, hread] at h
    exact hnot (ih h)

theorem trailerRead_of_ended {chunks : List (List UInt8)} {buf : List Char} {n : Nat}
    (hchars : ∀ c ∈ chunks, decode c ≠ none)
    (h : (getReply buf (chunks.map .data ++ List.replicate n (.data []))).1.Ended) :
    TrailerRead buf chunks := by
  induction chunks generalizing buf with
  | nil => exact ⟨[], [], [], rfl, by simpa [encode] using getReply_empty h⟩
  | cons c chunks ih =>
    obtain ⟨cs, hcs⟩ := Option.ne_none_iff_exists'.1 (hchars c List.mem_cons_self)
    obtain rfl := encode_of_decode hcs
    by_cases hstop : Trailed (buf ++ cs) (encode cs)
    · exact ⟨[], cs, chunks ++ [[]], rfl, by simpa using hstop⟩
    · rw [List.map_cons, List.cons_append, getReply, readChunk_reading hstop] at h
      obtain ⟨parts, last, rest, hsplit, hlast⟩ := ih (fun d hd => hchars d (.tail _ hd)) h
      refine ⟨cs :: parts, last, rest, ?_, ?_⟩
      · rw [List.map_cons, List.cons_append, hsplit, List.cons_append]
      · rwa [List.flatten_cons, ← List.append_assoc buf]

theorem ended_of_trailerRead {chunks : List (List UInt8)} {buf : List Char}
    (h : (∃ c ∈ chunks, decode c = none) ∨ TrailerRead buf chunks) :
    (getReply buf (chunks.map .data ++ [.data []])).1.Ended := by
  induction chunks generalizing buf with
  | nil =>
    obtain ⟨parts, last, rest, hsplit, hlast⟩ := h.resolve_left (by simp)
    have hended : Trailed (buf ++ []) (encode []) → (readChunk buf (.data [])).Ended :=
      readChunk_ended_iff.2
    refine getReply_cons_ended (hended ?_)
    cases parts with
    | nil =>
      obtain rfl : last = [] := encode_inj (List.cons.inj hsplit).1
      simpa using hlast
    | cons cs parts => simp at hsplit
  | cons c chunks ih =>
    cases hdecode : decode c with
    | none => exact getReply_cons_ended (by simp [readChunk, hdecode, Status.Ended])
    | some cs =>
      obtain rfl := encode_of_decode hdecode
      by_cases hstop : Trailed (buf ++ cs) (encode cs)
      · exact getReply_cons_ended (readChunk_ended_iff.2 hstop)
      · rw [List.map_cons, List.cons_append, getReply, readChunk_reading hstop]
        refine ih (h.imp ?_ ?_)
        · rintro ⟨d, hd, hnone⟩
          rcases List.mem_cons.1 hd with rfl | hd
          · rw [hdecode] at hnone
            cases hnone
          · exact ⟨d, hd, hnone⟩
        · rintro ⟨parts, last, rest, hsplit, hlast⟩
          cases parts with
          | nil =>
            obtain rfl : last = cs := encode_inj (List.cons.inj hsplit).1
            exact absurd (by simpa using hlast) hstop
          | cons ds parts =>
            obtain ⟨hds, hrest⟩ := List.cons.inj hsplit
            obtain rfl := encode_inj hds
            exact ⟨parts, last, rest, hrest, by
              rwa [List.flatten_cons, ← List.append_assoc buf] at hlast⟩

/-- What was read up to a result has been decoded. -/
theorem decoded_of_returned {chunks : List (List UInt8)} {buf : List Char} {later : List Recv}
    {retCode : Option UInt8} {replyMsg : Option (List Char)}
    (h : getReply buf (chunks.map .data ++ later) = (.returned retCode replyMsg, later)) :
    ∀ c ∈ chunks, decode c ≠ none := by
  induction chunks generalizing buf with
  | nil => simp
  | cons c chunks ih =>
    rw [List.map_cons, List.cons_append, getReply] at h
    have hc : decode c ≠ none := by
      intro hnone
      have hraised : readChunk buf (.data c) = .raised := by simp [readChunk, hnone]
      rw [hraised] at h
      cases h
    refine List.forall_mem_cons.2 ⟨hc, ?_⟩
    cases hst : readChunk buf (.data c) with
    | reading msgBuf =>
      rw [hst] at h
      exact ih h
    | returned retCode' replyMsg' =>
      rw [hst] at h
      have hlen := congrArg List.length (Prod.mk.inj h).2
      rw [List.length_append, List.length_map] at hlen
      have hnil : chunks = [] := List.length_eq_zero_iff.1 (by omega)
      simp [hnil]
    | raised =>
      rw [hst] at h
      cases h

/-- The loop returns a reply and reads nothing else if and only if every `recv` result ends between
    two characters; it ends when the socket is closed if and only if some result does not, or the
    text that was received with some result ends with a trailer. -/
theorem getReply_exact_iff (chunks : List (List UInt8)) :
    (∀ (rc : UInt8) (reply : List Char) (later : List Recv), rc.toNat < 128 → '\x00' ∉ reply →
      chunks.flatten = encode reply ++ [0, 0, 0, rc] →
      (∀ c ∈ chunks, c ≠ [] ∧ c.length ≤ 16384) →
      (getReply [] (chunks.map .data ++ later) = (.returned (some rc) (some reply), later) ↔
        ∀ c ∈ chunks, decode c ≠ none)) ∧
    ((∃ n, (getReply [] (chunks.map .data ++ List.replicate n (.data []))).1.Ended) ↔
      (∃ c ∈ chunks, decode c = none) ∨ TrailerRead [] chunks) := by
  refine ⟨fun rc reply later hrc hnul hstream hchunks =>
    ⟨decoded_of_returned, fun hchars => ?_⟩, ?_, fun h => ⟨1, ended_of_trailerRead h⟩⟩
  · have hascii := toNat_ofNat_ascii hrc
    obtain ⟨parts, rfl⟩ := exists_parts hchars
    have hsplit : [] ++ parts.flatten = withTrailer reply (Char.ofNat rc.toNat) := by
      refine encode_inj ?_
      rw [List.nil_append, encode_flatten, hstream, withTrailer, encode_append,
        encode_trailer (by omega), hascii, UInt8.ofNat_toNat]
    have hparts : ∀ cs ∈ parts, cs ≠ [] := by
      rintro cs hcs rfl
      exact (hchunks _ (List.mem_map_of_mem hcs)).1 rfl
    have hne : parts ≠ [] := by
      rintro rfl
      exact absurd (congrArg List.length hsplit) (by simp [withTrailer])
    have hget := getReply_parts hnul (by omega) hparts hne hsplit later
    rw [hascii, UInt8.ofNat_toNat] at hget
    rw [List.map_map]
    exact hget
  · rintro ⟨n, hn⟩
    by_cases hchars : ∀ c ∈ chunks, decode c ≠ none
    · exact .inr (trailerRead_of_ended hchars hn)
    · exact .inl (by simpa using hchars)

/-- Two characters, with the trailer in three parts. -/
theorem getReply_split :
    getReply [] [.data [0xC3, 0xA9, 0x0A, 0], .data [0, 0], .data [5], .timeout] =
      (.returned (some 5) (some ['é', '\n']), [.timeout]) :=
  ((getReply_exact_iff [[0xC3, 0xA9, 0x0A, 0], [0, 0], [5]]).1 5 ['é', '\n'] [.timeout]
    (by decide) (by decide) (by decide) (by decide)).2 (by decide +kernel)

/-- A result that ends inside of a character raises; a socket that is closed before the reply is
    read for ever. -/
theorem reply_not_returned :
    (getReply [] [.data [0xC3], .data [0xA9, 0, 0, 0, 0]]).1 = .raised ∧
      ¬∃ n, (getReply [] (List.replicate n (.data []))).1.Ended := by
  refine ⟨by decide +kernel, ?_⟩
  rintro ⟨n, hn⟩
  have hreading : ∀ n, (getReply [] (List.replicate n (.data []))).1 = .reading [] := by
    intro n
    induction n with
    | zero => rfl
    | succ n ih => exact ih
  rw [hreading] at hn
  exact hn

end SonicBuildimage.Frrcfgd.Reply
