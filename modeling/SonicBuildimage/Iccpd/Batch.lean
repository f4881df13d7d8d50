/-
  How queued updates are sent to the peer: `mlacp_sync_send_syncMacInfo`, `…ArpInfo` and
  `…NdiscInfo` (mlacp_fsm.c) with the functions that write the messages
  (mlacp_sync_prepare.c).

  Model.  The three functions are one function with parameters (`InfoKind`): the TLV, the size
  of an entry, how many entries a message may have, and the fields of an entry.  The messages
  are the bytes of `g_csm_buf` as far as the returned length says.  The result of each `write`
  is an input.  An update is what goes over the wire of it; `learn_flag` does not.

  Proved: `batched_exact`.  The queue is cut into consecutive batches, one message for each of them
  and in order; a message is well framed, has no more entries than allowed and is decoded to exactly
  its batch.  The queue is empty afterwards.  An update is taken from the queue before its message
  is sent, and nothing looks at the result, so that a batch whose message could not be sent is gone
  (`unsent_update_dropped`).  Nothing is lost if and only if every message is written whole
  (`updates_lossless_iff`), and then the peer reads the queue (`updates_received`).

  Not modelled: the release of updates, and which RG id is in the header (a parameter).
-/
import SonicBuildimage.Iccpd.Decode
import SonicBuildimage.Iccpd.Stream

namespace SonicBuildimage.Iccpd

open SonicBuildimage.Lib
open SonicBuildimage.Lib.Traced
open SonicBuildimage.Iccpd.Framing (csmBufferSize msgLIncludUBitMsgTLFields WellFramed)

/-! ## Numbers and names in a message -/

/-- `htons` -/
def be16Bytes (n : Nat) : List UInt8 := [UInt8.ofNat (n / 256), UInt8.ofNat (n % 256)]

/-- `htonl` -/
def be32Bytes (n : Nat) : List UInt8 := be16Bytes (n / 65536) ++ be16Bytes (n % 65536)

theorem val_be16_of_bytes {m : Nat → UInt8} {i n : Nat} (hn : n < 65536)
    (h : ∀ j x, (be16Bytes n)[j]? = some x → m (i + j) = x) : (be16 m i).val = n := by
  have hhi : m i = UInt8.ofNat (n / 256) := h 0 _ rfl
  have hlo : m (i + 1) = UInt8.ofNat (n % 256) := h 1 _ rfl
  rw [val_be16, hhi, hlo, UInt8.toNat_ofNat', UInt8.toNat_ofNat']
  omega

/-- A name in an entry: the characters up to the first zero byte. -/
def cname (m : Nat → UInt8) (i : Nat) : List UInt8 :=
  (bytes m i maxLPortName).val.takeWhile (· != 0)

/-- A string in a field of `MAX_L_PORT_NAME` bytes, without its zero byte. -/
structure IfName where
  chars : List UInt8
  nonzero : ∀ c ∈ chars, c ≠ 0
  short : chars.length < maxLPortName

/-- Bytes that stand in the memory one after the other. -/
theorem val_bytes_of_cells {m : Nat → UInt8} {i len : Nat} {bs : List UInt8}
    (hlen : bs.length = len) (h : ∀ j x, bs[j]? = some x → m (i + j) = x) :
    (bytes m i len).val = bs := by
  refine List.ext_getElem (by simp [hlen]) fun j h₁ h₂ => ?_
  simp only [val_bytes, List.getElem_map, List.getElem_range]
  exact h j _ (List.getElem?_eq_getElem h₂)

theorem cname_of_cells {m : Nat → UInt8} {i : Nat} {s : IfName}
    (h : ∀ j x, (s.chars ++ [0])[j]? = some x → m (i + j) = x) : cname m i = s.chars := by
  have hlen : (s.chars ++ [(0 : UInt8)]).length ≤ maxLPortName := by
    have := s.short
    simp only [List.length_append, List.length_singleton]
    omega
  have htake : (bytes m i maxLPortName).val.take (s.chars ++ [(0 : UInt8)]).length
      = s.chars ++ [0] := by
    rw [val_bytes, ← List.map_take, List.take_range, Nat.min_eq_left hlen, ← val_bytes]
    exact val_bytes_of_cells rfl h
  rw [cname, ← List.take_append_drop (s.chars ++ [(0 : UInt8)]).length (bytes m i _).val, htake,
    List.append_assoc, List.takeWhile_append_of_pos]
  · simp
  · intro c hc
    simpa using s.nonzero c hc

/-! ## The three kinds of information -/

/-- What the three functions differ in.  An entry is written field by field, and read by the
    peer with `decode`, which gives the part of the update that is sent (`view`). -/
structure InfoKind (α β : Type) where
  tlv : MlacpTlv
  size : Nat
  limit : Nat
  fields : α → List (Nat × List UInt8)
  view : α → β
  decode : (Nat → UInt8) → Nat → β
  limit_pos : 0 < limit
  limit_lt : limit < 65536
  fits : entriesAt + size * limit ≤ csmBufferSize
  /-- the fields are inside the entry -/
  inside : ∀ x, ∀ f ∈ fields x, f.1 + f.2.length ≤ size
  /-- an entry is decoded from its own bytes -/
  decode_congr : ∀ {m m' : Nat → UInt8} {base base' : Nat},
    (∀ j < size, m (base + j) = m' (base' + j)) → decode m base = decode m' base'
  decode_fields : ∀ (x : α) (m : Mem UInt8) (base : Nat),
    decode (m.writeAll base (fields x)).cell base = view x

/-- The part of `struct MACMsg` that is sent. -/
structure MACMsg where
  opType : UInt8
  fdbType : UInt8
  macAddr : List UInt8
  macAddr_length : macAddr.length = etherAddrLen
  vid : UInt16
  originIfname : IfName

/-- `struct mLACPMACData` in host order. -/
structure MACData where
  type : UInt8
  macType : UInt8
  macAddr : List UInt8
  vid : Nat
  ifname : List UInt8
  deriving DecidableEq

def MACMsg.data (x : MACMsg) : MACData :=
  ⟨x.opType, x.fdbType, x.macAddr, x.vid.toNat, x.originIfname.chars⟩

/-- The entry as `mlacp_prepare_for_mac_info_to_peer` writes it. -/
def MACMsg.fields (x : MACMsg) : List (Nat × List UInt8) :=
  [(0, [x.opType]), (1, [x.fdbType]), (2, x.macAddr), (macNameAt, x.originIfname.chars ++ [0]),
    (8, be16Bytes x.vid.toNat)]

def MACData.decode (m : Nat → UInt8) (base : Nat) : MACData :=
  ⟨m base, m (base + 1), (bytes m (base + 2) etherAddrLen).val, (be16 m (base + 8)).val,
    cname m (base + macNameAt)⟩

/-- The part of `struct ARPMsg` and `struct NDISCMsg` that is sent; the length of the address
    is 4 or 16. -/
structure NeighMsg (addrLen : Nat) where
  opType : UInt8
  flag : UInt8
  ifname : IfName
  addr : List UInt8
  addr_length : addr.length = addrLen
  macAddr : List UInt8
  macAddr_length : macAddr.length = etherAddrLen

structure NeighData where
  opType : UInt8
  flag : UInt8
  ifname : List UInt8
  addr : List UInt8
  macAddr : List UInt8
  deriving DecidableEq

def NeighMsg.data {addrLen : Nat} (x : NeighMsg addrLen) : NeighData :=
  ⟨x.opType, x.flag, x.ifname.chars, x.addr, x.macAddr⟩

/-- The entry as `mlacp_prepare_for_arp_info` and `mlacp_prepare_for_ndisc_info` write it. -/
def NeighMsg.fields {addrLen : Nat} (x : NeighMsg addrLen) : List (Nat × List UInt8) :=
  [(0, [x.opType]), (1, [x.flag]), (neighNameAt, x.ifname.chars ++ [0]), (neighAddrAt, x.addr),
    (neighAddrAt + addrLen, x.macAddr)]

def NeighData.decode (addrLen : Nat) (m : Nat → UInt8) (base : Nat) : NeighData :=
  ⟨m base, m (base + 1), cname m (base + neighNameAt), (bytes m (base + neighAddrAt) addrLen).val,
    (bytes m (base + neighAddrAt + addrLen) etherAddrLen).val⟩

theorem bytes_congr {m m' : Nat → UInt8} {i i' len : Nat}
    (h : ∀ j < len, m (i + j) = m' (i' + j)) : (bytes m i len).val = (bytes m' i' len).val :=
  List.map_congr_left fun j hj => h j (List.mem_range.1 hj)

section Entries

variable {m m' : Nat → UInt8} {base base' : Nat}

theorem macData_congr (h : ∀ j < sizeofMACData, m (base + j) = m' (base' + j)) :
    MACData.decode m base = MACData.decode m' base' := by
  have hbytes (off len : Nat) (hle : off + len ≤ 30) :
      (bytes m (base + off) len).val = (bytes m' (base' + off) len).val := by
    refine bytes_congr fun j hj => ?_
    rw [Nat.add_assoc, Nat.add_assoc]
    exact h _ (by unfold sizeofMACData macNameAt maxLPortName; omega)
  have h0 : m base = m' base' := h 0 (by decide)
  have h9 : m (base + 8 + 1) = m' (base' + 8 + 1) := h 9 (by decide)
  unfold MACData.decode cname
  rw [hbytes 2 etherAddrLen (by decide), hbytes macNameAt maxLPortName (by decide), val_be16,
    val_be16, h0, h 1 (by decide), h 8 (by decide), h9]

theorem neighData_congr {addrLen size : Nat} (hsize : neighAddrAt + addrLen + etherAddrLen ≤ size)
    (h : ∀ j < size, m (base + j) = m' (base' + j)) :
    NeighData.decode addrLen m base = NeighData.decode addrLen m' base' := by
  have hbytes (off len : Nat) (hle : off + len ≤ size) :
      (bytes m (base + off) len).val = (bytes m' (base' + off) len).val := by
    refine bytes_congr fun j hj => ?_
    rw [Nat.add_assoc, Nat.add_assoc]
    exact h _ (by omega)
  unfold neighAddrAt etherAddrLen at hsize
  have h0 : m base = m' base' := h 0 (by omega)
  unfold NeighData.decode cname
  rw [hbytes neighNameAt maxLPortName (by unfold neighNameAt maxLPortName; omega),
    hbytes neighAddrAt addrLen (by unfold neighAddrAt; omega), Nat.add_assoc, Nat.add_assoc,
    hbytes (neighAddrAt + addrLen) etherAddrLen (by unfold neighAddrAt etherAddrLen; omega), h0,
    h 1 (by omega)]

end Entries

theorem MACMsg.apart (x : MACMsg) : x.fields.Pairwise Mem.Apart := by
  have hmac := x.macAddr_length
  unfold etherAddrLen at hmac
  simp [MACMsg.fields, Mem.Apart, macNameAt, be16Bytes, hmac]

theorem MACMsg.inside (x : MACMsg) : ∀ f ∈ x.fields, f.1 + f.2.length ≤ sizeofMACData := by
  have hmac := x.macAddr_length
  have hname := x.originIfname.short
  unfold maxLPortName at hname
  unfold etherAddrLen at hmac
  simp only [MACMsg.fields, List.mem_cons, List.not_mem_nil, or_false]
  unfold sizeofMACData macNameAt maxLPortName
  rintro f (rfl | rfl | rfl | rfl | rfl)
  · simp
  · simp
  · simp only [hmac]
    omega
  · simp only [List.length_append, List.length_singleton]
    omega
  · simp [be16Bytes]

theorem MACMsg.decode_fields (x : MACMsg) (m : Mem UInt8) (base : Nat) :
    MACData.decode (m.writeAll base x.fields).cell base = x.data := by
  have hcell (f : Nat × List UInt8) (i : Nat) (hi : x.fields[i]? = some f) (j : Nat) (b : UInt8)
      (hj : f.2[j]? = some b) : (m.writeAll base x.fields).cell (base + f.1 + j) = b :=
    Mem.cell_writeAll_of_mem x.apart (List.mem_of_getElem? hi) hj
  unfold MACData.decode MACMsg.data
  congr
  · exact hcell (0, [x.opType]) 0 rfl 0 _ rfl
  · exact hcell (1, [x.fdbType]) 1 rfl 0 _ rfl
  · exact val_bytes_of_cells x.macAddr_length (hcell (2, x.macAddr) 2 rfl)
  · exact val_be16_of_bytes x.vid.toNat_lt (hcell (8, _) 4 rfl)
  · exact cname_of_cells (hcell (macNameAt, _) 3 rfl)

theorem NeighMsg.apart {addrLen : Nat} (x : NeighMsg addrLen) : x.fields.Pairwise Mem.Apart := by
  have haddr := x.addr_length
  have hname := x.ifname.short
  unfold maxLPortName at hname
  simp [NeighMsg.fields, Mem.Apart, neighNameAt, neighAddrAt, haddr]
  omega

theorem NeighMsg.inside {addrLen : Nat} (x : NeighMsg addrLen) :
    ∀ f ∈ x.fields, f.1 + f.2.length ≤ neighAddrAt + addrLen + etherAddrLen := by
  have haddr := x.addr_length
  have hmac := x.macAddr_length
  have hname := x.ifname.short
  unfold maxLPortName at hname
  unfold etherAddrLen at hmac
  simp only [NeighMsg.fields, List.mem_cons, List.not_mem_nil, or_false]
  unfold neighAddrAt neighNameAt etherAddrLen
  rintro f (rfl | rfl | rfl | rfl | rfl)
  · simp only [List.length_singleton]
    omega
  · simp only [List.length_singleton]
    omega
  · simp only [List.length_append, List.length_singleton]
    omega
  · simp only [haddr]
    omega
  · simp only [hmac]
    omega

theorem NeighMsg.decode_fields {addrLen : Nat} (x : NeighMsg addrLen) (m : Mem UInt8)
    (base : Nat) :
    NeighData.decode addrLen (m.writeAll base x.fields).cell base = x.data := by
  have hcell (f : Nat × List UInt8) (i : Nat) (hi : x.fields[i]? = some f) (j : Nat) (b : UInt8)
      (hj : f.2[j]? = some b) : (m.writeAll base x.fields).cell (base + f.1 + j) = b :=
    Mem.cell_writeAll_of_mem x.apart (List.mem_of_getElem? hi) hj
  unfold NeighData.decode NeighMsg.data
  congr
  · exact hcell (0, [x.opType]) 0 rfl 0 _ rfl
  · exact hcell (1, [x.flag]) 1 rfl 0 _ rfl
  · exact cname_of_cells (hcell (neighNameAt, _) 2 rfl)
  · exact val_bytes_of_cells x.addr_length (hcell (neighAddrAt, _) 3 rfl)
  · rw [Nat.add_assoc base]
    exact val_bytes_of_cells x.macAddr_length (hcell (neighAddrAt + addrLen, _) 4 rfl)

/-- `MAX_MAC_ENTRY_NUM` -/
def maxMacEntryNum : Nat := 30

/-- `MAX_NEIGH_ENTRY_NUM` -/
def maxNeighEntryNum : Nat := 40

def macKind : InfoKind MACMsg MACData where
  tlv := .macInfo
  size := sizeofMACData
  limit := maxMacEntryNum
  fields := MACMsg.fields
  view := MACMsg.data
  decode := MACData.decode
  limit_pos := by decide
  limit_lt := by decide
  fits := by decide
  inside := MACMsg.inside
  decode_congr := macData_congr
  decode_fields := MACMsg.decode_fields

/-- ARP and ND information; behind the fields of an entry there may be padding. -/
def neighKind (tlv : MlacpTlv) (addrLen size : Nat)
    (hsize : neighAddrAt + addrLen + etherAddrLen ≤ size)
    (fits : entriesAt + size * maxNeighEntryNum ≤ csmBufferSize) :
    InfoKind (NeighMsg addrLen) NeighData where
  tlv := tlv
  size := size
  limit := maxNeighEntryNum
  fields := NeighMsg.fields
  view := NeighMsg.data
  decode := NeighData.decode addrLen
  limit_pos := by decide
  limit_lt := by decide
  fits := fits
  inside x f hf := Nat.le_trans (x.inside f hf) hsize
  decode_congr := neighData_congr hsize
  decode_fields := NeighMsg.decode_fields

def arpKind : InfoKind (NeighMsg 4) NeighData :=
  neighKind .arpInfo 4 sizeofARPMsg (by decide) (by decide)

def ndiscKind : InfoKind (NeighMsg 16) NeighData :=
  neighKind .ndiscInfo 16 sizeofNDISCMsg (by decide) (by decide)

/-! ## Writing a message -/

section Sender

variable {α β : Type} (k : InfoKind α β)

/-- The header that `mlacp_fill_icc_header` writes, and the part of the parameter that is
    written again for each entry. -/
def infoHeader (rgIdTlv : List UInt8) (msgId msgLen count : Nat) : List (Nat × List UInt8) :=
  [(0, be16Bytes msgTRgAppData), (2, be16Bytes (msgLen - msgLIncludUBitMsgTLFields)),
    (4, be32Bytes msgId), (8, rgIdTlv), (18, be16Bytes (msgLen - sizeofICCHdr - 4)),
    (numOfEntryAt, be16Bytes (count + 1))]

/-- The type of the parameter is only written with the first entry. -/
def writeType (buf : Mem UInt8) (count : Nat) : Mem UInt8 :=
  if count = 0 then buf.write sizeofICCHdr (be16Bytes k.tlv.code) else buf

def writeInfo (rgIdTlv : List UInt8) (msgId : Nat) (buf : Mem UInt8) (x : α) (count : Nat) :
    Mem UInt8 :=
  let msgLen := entriesAt + k.size * (count + 1)
  let buf := buf.writeAll 0 (infoHeader rgIdTlv msgId msgLen count)
  (writeType k buf count).writeAll (entriesAt + k.size * count) (k.fields x)

/-- `mlacp_prepare_for_mac_info_to_peer`, `…_arp_info` and `…_ndisc_info`: the buffer
    afterwards, and the length of the message. -/
def prepareInfo (rgIdTlv : List UInt8) (msgId : Nat) (buf : Mem UInt8) (x : α) (count : Nat) :
    Mem UInt8 × Int :=
  if entriesAt + k.size * (count + 1) > csmBufferSize then (buf, mclagError)
  else
    (writeInfo k rgIdTlv msgId buf x count, ((entriesAt + k.size * (count + 1) : Nat) : Int))

/-- A call of `iccp_csm_send`: the message, and what was returned. -/
structure SendCall where
  msg : List UInt8
  ret : Int

/-- All of the message was written. -/
def SendCall.ok (c : SendCall) : Bool := c.ret == c.msg.length

/-- What does not change while updates are sent: the socket, the RG id TLV of the header (8
    bytes), and the result of the `write` number `i`. -/
structure SendEnv where
  sockFd : Int
  rgIdTlv : List UInt8
  rgIdTlv_length : rgIdTlv.length = 8
  rc : Nat → Int

structure Sender (α : Type) where
  queue : List α
  buf : Mem UInt8
  count : Nat
  msgLen : Int
  /-- `ICCP_MSG_ID` -/
  msgId : Nat
  log : MsgLog
  calls : List SendCall

variable (env : SendEnv)

def Sender.send (st : Sender α) : Sender α :=
  let (log, ret) := iccpCsmSend env.sockFd st.log
    ⟨st.buf.cell, st.msgLen, env.rc st.calls.length⟩
  { st with log := log, calls := st.calls ++ [⟨st.buf.read st.msgLen.toNat, ret⟩] }

/-- Write the next update into the buffer. -/
def Sender.prepare (st : Sender α) (x : α) : Sender α :=
  let (buf, msgLen) := prepareInfo k env.rgIdTlv st.msgId st.buf x st.count
  { st with buf := buf, msgLen := msgLen, msgId := (st.msgId + 1) % 2 ^ 32, count := st.count + 1 }

/-- One turn of the loop. -/
def Sender.step (st : Sender α) (x : α) : Sender α :=
  let st := st.prepare k env x
  if st.count ≥ k.limit then
    let st := st.send env
    { st with count := 0, buf := st.buf.fill csmBufferSize 0 }
  else st

/-- The loop: the first update is taken from the queue before it is written. -/
def Sender.loop : List α → Sender α → Sender α
  | [], st => { st with queue := [] }
  | x :: queue, st => Sender.loop queue (({ st with queue := queue } : Sender α).step k env x)

/-- `mlacp_sync_send_syncMacInfo`, `…ArpInfo` and `…NdiscInfo`. -/
def syncInfo (st : Sender α) : Sender α :=
  let st := Sender.loop k env st.queue
    { st with buf := st.buf.fill csmBufferSize 0, count := 0, msgLen := 0 }
  if st.count ≠ 0 then st.send env else st

def mlacpSyncSendSyncMacInfo : SendEnv → Sender MACMsg → Sender MACMsg := syncInfo macKind

def mlacpSyncSendSyncArpInfo : SendEnv → Sender (NeighMsg 4) → Sender (NeighMsg 4) :=
  syncInfo arpKind

def mlacpSyncSendSyncNdiscInfo : SendEnv → Sender (NeighMsg 16) → Sender (NeighMsg 16) :=
  syncInfo ndiscKind

/-! ## What the buffer holds -/

/-- The entries of a message, as the peer reads them. -/
def decodeInfo (msg : List UInt8) : List β :=
  (List.range (numOfEntry (memOf msg))).map fun i => k.decode (memOf msg) (entriesAt + k.size * i)

/-- The buffer holds a message with the updates `b`. -/
structure Encodes (m : Nat → UInt8) (b : List α) : Prop where
  data : (be16 m 0).val = msgTRgAppData
  length : (be16 m 2).val = entriesAt + k.size * b.length - msgLIncludUBitMsgTLFields
  type : (be16 m sizeofICCHdr).val = k.tlv.code
  count : numOfEntry m = b.length
  entry : ∀ i x, b[i]? = some x → k.decode m (entriesAt + k.size * i) = k.view x

variable {k} {env}

theorem code_lt (t : MlacpTlv) : t.code < 65536 := by
  cases t <;> decide

theorem infoHeader_apart {rgIdTlv : List UInt8} (hrg : rgIdTlv.length = 8)
    (msgId msgLen count : Nat) : (infoHeader rgIdTlv msgId msgLen count).Pairwise Mem.Apart := by
  simp [infoHeader, Mem.Apart, be16Bytes, be32Bytes, numOfEntryAt, sizeofICCHdr, hrg]

/-- The header is in front of the entries, and leaves the two bytes of the type free. -/
theorem infoHeader_place {rgIdTlv : List UInt8} (hrg : rgIdTlv.length = 8)
    (msgId msgLen count : Nat) :
    ∀ f ∈ infoHeader rgIdTlv msgId msgLen count,
      f.1 + f.2.length ≤ 16 ∨ 18 ≤ f.1 ∧ f.1 + f.2.length ≤ 22 := by
  simp [infoHeader, be16Bytes, be32Bytes, numOfEntryAt, sizeofICCHdr, hrg]

section Prepare

variable {buf : Mem UInt8} {x : α} {rgIdTlv : List UInt8} {msgId count : Nat}

theorem prepareInfo_eq (hlt : count < k.limit) :
    prepareInfo k rgIdTlv msgId buf x count =
      (writeInfo k rgIdTlv msgId buf x count,
        ((entriesAt + k.size * (count + 1) : Nat) : Int)) := by
  have hmul : k.size * (count + 1) ≤ k.size * k.limit := Nat.mul_le_mul_left _ hlt
  have hfits := k.fits
  unfold prepareInfo
  rw [if_neg (by omega)]

theorem cell_writeType {i : Nat} (h : i < 16 ∨ 18 ≤ i ∨ count ≠ 0) :
    (writeType k buf count).cell i = buf.cell i := by
  unfold writeType
  by_cases hzero : count = 0
  · rw [if_pos hzero]
    refine Mem.cell_write_outside ?_
    simp only [be16Bytes, List.length_cons, List.length_nil, sizeofICCHdr]
    omega
  · rw [if_neg hzero]

/-- The new entry is behind everything else. -/
theorem cell_writeInfo_front {i : Nat} (hi : i < entriesAt + k.size * count) :
    (writeInfo k rgIdTlv msgId buf x count).cell i
      = (writeType k (buf.writeAll 0
          (infoHeader rgIdTlv msgId (entriesAt + k.size * (count + 1)) count)) count).cell i :=
  Mem.cell_writeAll_outside fun _ _ => Or.inl (by omega)

theorem cell_writeInfo_header (hrg : rgIdTlv.length = 8) {f : Nat × List UInt8}
    (hf : f ∈ infoHeader rgIdTlv msgId (entriesAt + k.size * (count + 1)) count) {j : Nat}
    {y : UInt8} (hj : f.2[j]? = some y) :
    (writeInfo k rgIdTlv msgId buf x count).cell (f.1 + j) = y := by
  have hlt : j < f.2.length := (List.getElem?_eq_some_iff.1 hj).1
  have hplace := infoHeader_place hrg _ _ _ f hf
  have hend : entriesAt = 22 := rfl
  rw [cell_writeInfo_front (by omega), cell_writeType (by omega)]
  have hcell : (buf.writeAll 0 _).cell (0 + f.1 + j) = y :=
    Mem.cell_writeAll_of_mem (infoHeader_apart hrg _ _ _) hf hj
  rwa [Nat.zero_add] at hcell

theorem cell_writeInfo_type {j : Nat} {y : UInt8} (hzero : count = 0)
    (hj : (be16Bytes k.tlv.code)[j]? = some y) :
    (writeInfo k rgIdTlv msgId buf x count).cell (sizeofICCHdr + j) = y := by
  have hlt : j < 2 := (List.getElem?_eq_some_iff.1 hj).1
  have hend : entriesAt = sizeofICCHdr + 6 := rfl
  rw [cell_writeInfo_front (by omega), writeType, if_pos hzero, Mem.cell_write_inside hj]

/-- Behind the first entry, the type stays as it is. -/
theorem cell_writeInfo_type_kept (hrg : rgIdTlv.length = 8) {i : Nat} (hpos : count ≠ 0)
    (hi : sizeofICCHdr ≤ i ∧ i < sizeofICCHdr + 2) :
    (writeInfo k rgIdTlv msgId buf x count).cell i = buf.cell i := by
  have hend : entriesAt = 22 := rfl
  have hhdr : sizeofICCHdr = 16 := rfl
  rw [cell_writeInfo_front (by omega), cell_writeType (by omega), Mem.cell_writeAll_outside]
  intro f hf
  have hplace := infoHeader_place hrg _ _ _ f hf
  omega

/-- The entries in front stay as they are. -/
theorem cell_writeInfo_entry (hrg : rgIdTlv.length = 8) {i : Nat} (hge : entriesAt ≤ i)
    (hlt : i < entriesAt + k.size * count) :
    (writeInfo k rgIdTlv msgId buf x count).cell i = buf.cell i := by
  have hend : entriesAt = 22 := rfl
  rw [cell_writeInfo_front hlt, cell_writeType (by omega), Mem.cell_writeAll_outside]
  intro f hf
  have hplace := infoHeader_place hrg _ _ _ f hf
  omega

/-- One more entry. -/
theorem encodes_writeInfo {b : List α} (hrg : rgIdTlv.length = 8)
    (hb : b ≠ [] → Encodes k buf.cell b) (hlt : b.length < k.limit) :
    Encodes k (writeInfo k rgIdTlv msgId buf x b.length).cell (b ++ [x]) := by
  have hmul : k.size * (b.length + 1) ≤ k.size * k.limit := Nat.mul_le_mul_left _ hlt
  have hfits := k.fits
  have hlimit := k.limit_lt
  have hbuf : csmBufferSize = 65536 := rfl
  have hskip : msgLIncludUBitMsgTLFields = 4 := rfl
  have hlen : (b ++ [x]).length = b.length + 1 := by simp
  have hhdr (i : Nat) (f : Nat × List UInt8)
      (hf : (infoHeader rgIdTlv msgId (entriesAt + k.size * (b.length + 1)) b.length)[i]? = some f)
      (j : Nat) (y : UInt8) (hj : f.2[j]? = some y) :
      (writeInfo k rgIdTlv msgId buf x b.length).cell (f.1 + j) = y :=
    cell_writeInfo_header hrg (List.mem_of_getElem? hf) hj
  refine ⟨?_, ?_, ?_, ?_, ?_⟩
  · exact val_be16_of_bytes (by decide) (hhdr 0 _ rfl)
  · rw [hlen]
    exact val_be16_of_bytes (by omega) (hhdr 1 _ rfl)
  · by_cases hnil : b.length = 0
    · exact val_be16_of_bytes (code_lt k.tlv) fun j y hj => cell_writeInfo_type hnil hj
    · rw [← (hb (by rintro rfl; exact hnil rfl)).type, val_be16, val_be16,
        cell_writeInfo_type_kept hrg hnil (by omega), cell_writeInfo_type_kept hrg hnil (by omega)]
  · rw [hlen]
    exact val_be16_of_bytes (by omega) (hhdr 5 _ rfl)
  · intro i y hi
    rcases Nat.lt_or_ge i b.length with hib | hib
    · rw [List.getElem?_append_left hib] at hi
      have hne : b ≠ [] := by
        rintro rfl
        exact absurd hib (Nat.not_lt_zero i)
      rw [← (hb hne).entry i y hi]
      have hstep : k.size * (i + 1) ≤ k.size * b.length := Nat.mul_le_mul_left _ hib
      rw [Nat.mul_succ] at hstep
      exact k.decode_congr fun j hj => cell_writeInfo_entry hrg (by omega) (by omega)
    · -- the new one
      have hieq : i = b.length := by
        have := (List.getElem?_eq_some_iff.1 hi).1
        rw [hlen] at this
        omega
      subst hieq
      rw [List.getElem?_append_right (Nat.le_refl _), Nat.sub_self] at hi
      obtain rfl : x = y := Option.some.inj hi
      exact k.decode_fields x _ _

end Prepare

/-! ## Batches -/

theorem encodes_congr {m m' : Nat → UInt8} {b : List α}
    (h : ∀ i < entriesAt + k.size * b.length, m i = m' i) (hm : Encodes k m b) :
    Encodes k m' b := by
  have hend : entriesAt = 22 := rfl
  have hbe16 (i : Nat) (hi : i + 1 < 22) : (be16 m' i).val = (be16 m i).val := by
    rw [val_be16, val_be16, h i (by omega), h (i + 1) (by omega)]
  refine ⟨?_, ?_, ?_, ?_, ?_⟩
  · rw [hbe16 0 (by decide)]
    exact hm.data
  · rw [hbe16 2 (by decide)]
    exact hm.length
  · rw [hbe16 sizeofICCHdr (by decide)]
    exact hm.type
  · rw [numOfEntry, hbe16 numOfEntryAt (by decide)]
    exact hm.count
  · intro i x hi
    have hib : i < b.length := (List.getElem?_eq_some_iff.1 hi).1
    have hstep : k.size * (i + 1) ≤ k.size * b.length := Nat.mul_le_mul_left _ hib
    rw [Nat.mul_succ] at hstep
    rw [← hm.entry i x hi]
    exact k.decode_congr fun j hj => (h _ (by omega)).symm

/-- A message carries a batch: it can be framed, has the TLV and one entry for each update,
    and is decoded to the updates. -/
structure CarriesBatch (k : InfoKind α β) (b : List α) (c : SendCall) : Prop where
  nonempty : b ≠ []
  limit : numOfEntry (memOf c.msg) ≤ k.limit
  framed : WellFramed c.msg
  tlv : Carries (memOf c.msg) k.tlv
  count : numOfEntry (memOf c.msg) = b.length
  decoded : decodeInfo k c.msg = b.map k.view

theorem lengthField_eq {msg : List UInt8} (h : 4 ≤ msg.length) :
    Framing.lengthField msg = some (be16 (memOf msg) 2).val := by
  match msg, h with
  | _ :: _ :: _ :: _ :: _, _ => rfl

theorem carriesBatch_of_encodes {buf : Mem UInt8} {b : List α} {ret : Int} (hne : b ≠ [])
    (hlimit : b.length ≤ k.limit) (h : Encodes k buf.cell b) :
    CarriesBatch k b ⟨buf.read (entriesAt + k.size * b.length), ret⟩ := by
  have hend : entriesAt = 22 := rfl
  have hmsg : Encodes k (memOf (buf.read (entriesAt + k.size * b.length))) b := by
    refine encodes_congr (fun i hi => ?_) h
    rw [memOf, List.getD_eq_getElem?_getD, Mem.cell_read hi, Option.getD_some]
  refine ⟨hne, ?_, ⟨?_, ?_⟩, ⟨hmsg.data, hmsg.type⟩, hmsg.count, ?_⟩
  · rw [hmsg.count]
    exact hlimit
  · rw [lengthField_eq (by rw [Mem.length_read]; omega), hmsg.length, Mem.length_read]
  · rw [Mem.length_read]
    change 8 ≤ _
    omega
  · refine List.ext_getElem? fun i => ?_
    rw [decodeInfo, List.getElem?_map, List.getElem?_map, hmsg.count]
    rcases Nat.lt_or_ge i b.length with hi | hi
    · rw [List.getElem?_range hi, Option.map_some, List.getElem?_eq_getElem hi, Option.map_some,
        hmsg.entry i _ (List.getElem?_eq_getElem hi)]
    · rw [List.getElem?_eq_none (by rw [List.length_range]; exact hi),
        List.getElem?_eq_none hi]
      rfl

/-- The buffer holds the updates `b` that have not been sent yet. -/
structure Holding (k : InfoKind α β) (st : Sender α) (b : List α) : Prop where
  count : st.count = b.length
  room : b.length < k.limit
  len : b ≠ [] → st.msgLen = ((entriesAt + k.size * b.length : Nat) : Int)
  encodes : b ≠ [] → Encodes k st.buf.cell b

/-- The write number `i` takes a whole message with `n` entries. -/
def Written (k : InfoKind α β) (env : SendEnv) (i n : Nat) : Prop :=
  0 < env.sockFd ∧ env.rc i = ((entriesAt + k.size * n : Nat) : Int)

/-- The message that is sent carries the batch in the buffer. -/
theorem send_carries {st : Sender α} {b : List α} (hne : b ≠ []) (hlimit : b.length ≤ k.limit)
    (hlen : st.msgLen = ((entriesAt + k.size * b.length : Nat) : Int))
    (henc : Encodes k st.buf.cell b) :
    ∃ c, CarriesBatch k b c ∧ (st.send env).calls = st.calls ++ [c] ∧
      (c.ok = true ↔ Written k env st.calls.length b.length) := by
  refine ⟨⟨st.buf.read st.msgLen.toNat, (iccpCsmSend env.sockFd st.log
    ⟨st.buf.cell, st.msgLen, env.rc st.calls.length⟩).2⟩, ?_, rfl, ?_⟩
  · rw [hlen, Int.toNat_natCast]
    exact carriesBatch_of_encodes hne hlimit henc
  · have hpos : entriesAt = 22 := rfl
    have hmsg : (st.buf.read st.msgLen.toNat).length = entriesAt + k.size * b.length := by
      rw [Mem.length_read, hlen, Int.toNat_natCast]
    have hret : (iccpCsmSend env.sockFd st.log
        ⟨st.buf.cell, st.msgLen, env.rc st.calls.length⟩).2 =
          if env.sockFd ≤ 0 then mclagError else env.rc st.calls.length := by
      have hle : ¬st.msgLen ≤ 0 := by omega
      simp only [iccpCsmSend, hle, or_false]
      split_ifs <;> rfl
    rw [SendCall.ok, beq_iff_eq, hret, hmsg]
    unfold Written mclagError
    split_ifs with hsock
    · constructor
      · intro h
        dsimp only at h
        omega
      · intro h
        omega
    · exact ⟨fun h => ⟨not_le.1 hsock, h⟩, fun h => h.2⟩

/-- One turn of the loop: the update joins the batch, or completes it. -/
theorem step_spec {st : Sender α} {b : List α} (h : Holding k st b) (x : α) :
    (Holding k (st.step k env x) (b ++ [x]) ∧ (st.step k env x).calls = st.calls) ∨
      (Holding k (st.step k env x) [] ∧ (b ++ [x]).length = k.limit ∧
        ∃ c, CarriesBatch k (b ++ [x]) c ∧ (st.step k env x).calls = st.calls ++ [c] ∧
          (c.ok = true ↔ Written k env st.calls.length (b ++ [x]).length)) := by
  have hprep : st.prepare k env x = { st with
      buf := writeInfo k env.rgIdTlv st.msgId st.buf x b.length
      msgLen := ((entriesAt + k.size * (b.length + 1) : Nat) : Int)
      msgId := (st.msgId + 1) % 2 ^ 32
      count := b.length + 1 } := by
    unfold Sender.prepare
    rw [h.count, prepareInfo_eq h.room]
  have henc : Encodes k (writeInfo k env.rgIdTlv st.msgId st.buf x b.length).cell (b ++ [x]) :=
    encodes_writeInfo env.rgIdTlv_length h.encodes h.room
  have hlen : (b ++ [x]).length = b.length + 1 := by simp
  have hroom := h.room
  unfold Sender.step
  rw [hprep]
  dsimp only
  by_cases hfull : b.length + 1 ≥ k.limit
  · right
    rw [if_pos hfull]
    refine ⟨⟨rfl, k.limit_pos, fun hn => absurd rfl hn, fun hn => absurd rfl hn⟩, by omega, ?_⟩
    exact send_carries (by simp) (by omega) (by rw [hlen]) henc
  · left
    rw [if_neg hfull]
    exact ⟨⟨hlen.symm, by omega, fun _ => by rw [hlen], fun _ => henc⟩, rfl⟩

theorem holding_queue {st : Sender α} {b : List α} {q : List α} (h : Holding k st b) :
    Holding k { st with queue := q } b :=
  ⟨h.count, h.room, h.len, h.encodes⟩

/-- The loop cuts what is in the buffer and in the queue into full batches, and leaves the rest in
    the buffer. -/
theorem loop_spec {q : List α} {st : Sender α} {b : List α} (h : Holding k st b) :
    (Sender.loop k env q st).queue = [] ∧
      ∃ batches rest sent, b ++ q = batches.flatten ++ rest ∧
        (∀ b ∈ batches, b.length = k.limit) ∧ Holding k (Sender.loop k env q st) rest ∧
        (Sender.loop k env q st).calls = st.calls ++ sent ∧
        List.Forall₂ (CarriesBatch k) batches sent ∧
        ((∀ c ∈ sent, c.ok = true) ↔
          ∀ i < batches.length, Written k env (st.calls.length + i) k.limit) := by
  induction q generalizing st b with
  | nil =>
    refine ⟨rfl, [], b, [], by simp, by simp, holding_queue h, ?_, List.Forall₂.nil, by simp⟩
    exact (List.append_nil _).symm
  | cons x q ih =>
    rw [Sender.loop]
    rcases step_spec (holding_queue (q := q) h) x with ⟨hstep, hcalls⟩ |
      ⟨hstep, hfull, c, hc, hcalls, hok⟩
    · obtain ⟨hqueue, batches, rest, sent, hsplit, hsize, hrest, hsent, hall, hoks⟩ := ih hstep
      refine ⟨hqueue, batches, rest, sent, ?_, hsize, hrest, ?_, hall, ?_⟩
      · rw [← hsplit, List.append_assoc]
        rfl
      · rw [hsent, hcalls]
      · rw [hoks, hcalls]
    · obtain ⟨hqueue, batches, rest, sent, hsplit, hsize, hrest, hsent, hall, hoks⟩ := ih hstep
      refine ⟨hqueue, (b ++ [x]) :: batches, rest, c :: sent, ?_, ?_, hrest, ?_,
        List.Forall₂.cons hc hall, ?_⟩
      · rw [List.flatten_cons, List.append_assoc, ← hsplit, List.append_assoc]
        rfl
      · exact List.forall_mem_cons.2 ⟨hfull, hsize⟩
      · rw [hsent, hcalls, List.append_assoc]
        rfl
      · rw [List.forall_mem_cons, hoks, hok, hfull, hcalls, List.length_append,
          List.length_singleton, List.length_cons, Nat.forall_lt_succ_left]
        simp only [Nat.add_zero, Nat.add_assoc, Nat.add_comm 1]

/-- The updates of the batches whose message was sent, or was not. -/
def updatesWith (ok : Bool) : List (List α) → List SendCall → List α
  | b :: batches, c :: calls =>
    if c.ok = ok then b ++ updatesWith ok batches calls else updatesWith ok batches calls
  | _, _ => []

theorem decoded_of_sent {batches : List (List α)} {calls : List SendCall}
    (h : List.Forall₂ (CarriesBatch k) batches calls) :
    (calls.filter SendCall.ok).flatMap (fun c => decodeInfo k c.msg)
      = (updatesWith true batches calls).map k.view := by
  induction h with
  | nil => rfl
  | @cons b c batches calls hc _ ih =>
    rw [updatesWith, List.filter_cons]
    by_cases hok : c.ok = true
    · rw [if_pos hok, if_pos hok, List.flatMap_cons, ih, hc.decoded, List.map_append]
    · rw [if_neg hok, if_neg hok]
      exact ih

theorem updatesWith_of_ok {batches : List (List α)} {calls : List SendCall}
    (h : List.Forall₂ (CarriesBatch k) batches calls) (hok : ∀ c ∈ calls, c.ok = true) :
    updatesWith true batches calls = batches.flatten := by
  induction h with
  | nil => rfl
  | @cons b c batches calls _ _ ih =>
    rw [updatesWith, if_pos (hok c List.mem_cons_self), List.flatten_cons,
      ih fun c' hc' => hok c' (List.mem_cons_of_mem c hc')]

/-- A message that is not sent leaves some update behind. -/
theorem updatesWith_false_eq_nil {batches : List (List α)} {calls : List SendCall}
    (h : List.Forall₂ (CarriesBatch k) batches calls) :
    updatesWith false batches calls = [] ↔ ∀ c ∈ calls, c.ok = true := by
  induction h with
  | nil => simp [updatesWith]
  | @cons b c batches calls hc _ ih =>
    rw [updatesWith, List.forall_mem_cons, ← ih]
    cases hok : c.ok with
    | true => simp
    | false => simp [hc.nonempty]

/-- What the three functions do with a queue: nothing of it is left; it is cut into batches,
    each of which is handed over in one message, in order; the messages that are sent are
    decoded to the updates of their batches, and to the whole queue if all of them are. -/
structure Batched (k : InfoKind α β) (q : List α) (st st' : Sender α) : Prop where
  queue : st'.queue = []
  batches : ∃ batches sent, batches.flatten = q ∧ st'.calls = st.calls ++ sent ∧
    List.Forall₂ (CarriesBatch k) batches sent ∧
    (sent.filter SendCall.ok).flatMap (fun c => decodeInfo k c.msg)
      = (updatesWith true batches sent).map k.view ∧
    ((∀ c ∈ sent, c.ok = true) → updatesWith true batches sent = q)

/-- Every message of a queue of `n` updates is written whole, where `first` is the number of the
    first write: all messages but the last one are full. -/
def AllWritten (k : InfoKind α β) (env : SendEnv) (first n : Nat) : Prop :=
  ∀ i, k.limit * i < n → Written k env (first + i) (min k.limit (n - k.limit * i))

theorem length_flatten_full {batches : List (List α)} (h : ∀ b ∈ batches, b.length = k.limit) :
    batches.flatten.length = k.limit * batches.length := by
  induction batches with
  | nil => rfl
  | cons b batches ih =>
    obtain ⟨hb, htail⟩ := List.forall_mem_cons.1 h
    rw [List.flatten_cons, List.length_append, hb, ih htail, List.length_cons]
    ring

/-- The messages are the full batches, and the rest if there is one. -/
theorem allWritten_iff {first m r : Nat} (hr : r < k.limit) :
    AllWritten k env first (k.limit * m + r) ↔
      (∀ i < m, Written k env (first + i) k.limit) ∧ (r ≠ 0 → Written k env (first + m) r) := by
  have hfull : ∀ i < m, min k.limit (k.limit * m + r - k.limit * i) = k.limit := by
    intro i hi
    have : k.limit * (i + 1) ≤ k.limit * m := Nat.mul_le_mul_left _ hi
    rw [Nat.mul_succ] at this
    omega
  have hlast : min k.limit (k.limit * m + r - k.limit * m) = r := by omega
  constructor
  · intro h
    refine ⟨fun i hi => ?_, fun hne => ?_⟩
    · have := h i (Nat.lt_add_right r (Nat.mul_lt_mul_of_pos_left hi k.limit_pos))
      rwa [hfull i hi] at this
    · have := h m (by omega)
      rwa [hlast] at this
  · rintro ⟨hm, hrest⟩ i hi
    rcases Nat.lt_trichotomy i m with hlt | rfl | hgt
    · rw [hfull i hlt]
      exact hm i hlt
    · rw [hlast]
      exact hrest (by omega)
    · have : k.limit * (m + 1) ≤ k.limit * i := Nat.mul_le_mul_left _ hgt
      rw [Nat.mul_succ] at this
      omega

/-- All messages of a queue, with the batches they carry. -/
theorem sync_spec (st : Sender α) :
    (syncInfo k env st).queue = [] ∧
      ∃ batches sent, batches.flatten = st.queue ∧
        (syncInfo k env st).calls = st.calls ++ sent ∧
        List.Forall₂ (CarriesBatch k) batches sent ∧
        ((∀ c ∈ sent, c.ok = true) ↔ AllWritten k env st.calls.length st.queue.length) := by
  let st₀ : Sender α := { st with buf := st.buf.fill csmBufferSize 0, count := 0, msgLen := 0 }
  have hstart : Holding k st₀ [] :=
    ⟨rfl, k.limit_pos, fun h => absurd rfl h, fun h => absurd rfl h⟩
  obtain ⟨hqueue, batches, rest, sent, hsplit, hsize, hrest, hsent, hall, hoks⟩ :=
    @loop_spec α β k env st.queue st₀ [] hstart
  rw [List.nil_append] at hsplit
  have hlen : st.queue.length = k.limit * batches.length + rest.length := by
    rw [hsplit, List.length_append, length_flatten_full hsize]
  have hsync : syncInfo k env st = if (Sender.loop k env st.queue st₀).count ≠ 0 then
      (Sender.loop k env st.queue st₀).send env else Sender.loop k env st.queue st₀ := rfl
  rw [hsync, hlen, allWritten_iff hrest.room]
  by_cases hnil : rest = []
  · subst hnil
    rw [if_neg (by rw [hrest.count]; exact fun h => h rfl)]
    rw [List.append_nil] at hsplit
    refine ⟨hqueue, batches, sent, hsplit.symm, hsent, hall, hoks.trans ?_⟩
    exact ⟨fun h => ⟨h, fun hne => absurd rfl hne⟩, fun h => h.1⟩
  · -- the rest goes into one more message
    have hpos : rest.length ≠ 0 := fun h => hnil (List.length_eq_zero_iff.1 h)
    rw [if_pos (by rw [hrest.count]; exact hpos)]
    obtain ⟨c, hc, hcalls, hok⟩ := @send_carries α β k env _ rest hnil (Nat.le_of_lt hrest.room)
      (hrest.len hnil) (hrest.encodes hnil)
    refine ⟨hqueue, batches ++ [rest], sent ++ [c], ?_, ?_,
      List.rel_append hall (List.Forall₂.cons hc List.Forall₂.nil), ?_⟩
    · rw [List.flatten_append, List.flatten_singleton]
      exact hsplit.symm
    · rw [hcalls, hsent, List.append_assoc]
    · rw [hsent, List.length_append, ← hall.length_eq] at hok
      rw [List.forall_mem_append, List.forall_mem_singleton, hoks, hok]
      exact and_congr_right fun _ => ⟨fun h _ => h, fun h => h hpos⟩

theorem batched_exact (st : Sender α) : Batched k st.queue st (syncInfo k env st) := by
  obtain ⟨hqueue, batches, sent, hq, hcalls, hall, -⟩ := @sync_spec α β k env st
  exact ⟨hqueue, batches, sent, hq, hcalls, hall, decoded_of_sent hall,
    fun hok => (updatesWith_of_ok hall hok).trans hq⟩

/-- Nothing is lost: the queue is cut into batches, each of which is handed over in one message
    that carries it; the messages that are sent are decoded to the updates of their batches, in
    order, and the updates of the others are still queued. -/
def Lossless (k : InfoKind α β) (st st' : Sender α) : Prop :=
  ∃ batches sent, batches.flatten = st.queue ∧ st'.calls = st.calls ++ sent ∧
    List.Forall₂ (CarriesBatch k) batches sent ∧
    (sent.filter SendCall.ok).flatMap (fun c => decodeInfo k c.msg)
      = (updatesWith true batches sent).map k.view ∧
    st'.queue = updatesWith false batches sent

theorem lossless_iff (st : Sender α) :
    Lossless k st (syncInfo k env st) ↔ AllWritten k env st.calls.length st.queue.length := by
  obtain ⟨hqueue, batches, sent, hq, hcalls, hall, hok⟩ := @sync_spec α β k env st
  rw [← hok, Lossless, hqueue]
  constructor
  · rintro ⟨batches', sent', -, hcalls', hall', -, hleft⟩
    obtain rfl := List.append_cancel_left (hcalls.symm.trans hcalls')
    exact (updatesWith_false_eq_nil hall').1 hleft.symm
  · intro hsent
    exact ⟨batches, sent, hq, hcalls, hall, decoded_of_sent hall,
      ((updatesWith_false_eq_nil hall).2 hsent).symm⟩

end Sender

/-- MAC, ARP and ND updates are sent without loss if and only if every message is written whole;
    whatever is written, the queue is cut into batches and is empty afterwards. -/
theorem updates_lossless_iff (env : SendEnv) :
    (∀ st, Batched macKind st.queue st (mlacpSyncSendSyncMacInfo env st) ∧
        (Lossless macKind st (mlacpSyncSendSyncMacInfo env st) ↔
          AllWritten macKind env st.calls.length st.queue.length)) ∧
      (∀ st, Batched arpKind st.queue st (mlacpSyncSendSyncArpInfo env st) ∧
        (Lossless arpKind st (mlacpSyncSendSyncArpInfo env st) ↔
          AllWritten arpKind env st.calls.length st.queue.length)) ∧
      ∀ st, Batched ndiscKind st.queue st (mlacpSyncSendSyncNdiscInfo env st) ∧
        (Lossless ndiscKind st (mlacpSyncSendSyncNdiscInfo env st) ↔
          AllWritten ndiscKind env st.calls.length st.queue.length) :=
  ⟨fun st => ⟨batched_exact st, lossless_iff st⟩, fun st => ⟨batched_exact st, lossless_iff st⟩,
    fun st => ⟨batched_exact st, lossless_iff st⟩⟩

/-- If all messages are sent, the peer reads the first updates of the queue, however its socket cuts
    the stream, and all of them with as many passes as there are messages. -/
theorem updates_received {α β : Type} {k : InfoKind α β} {env : SendEnv} {st : Sender α}
    (hnew : st.calls = []) (hok : ∀ c ∈ (syncInfo k env st).calls, c.ok = true) {n : Nat}
    {csm csm' : Framing.Csm} {buf : Mem UInt8} {sock sock' : Framing.Sock}
    (hstream : sock.stream = ((syncInfo k env st).calls.map SendCall.msg).flatten)
    (hread : Framing.passes n csm buf sock = some (csm', sock')) :
    ∃ msgs, csm'.queue = csm.queue ++ msgs ∧
      msgs.flatMap (decodeInfo k) <+: st.queue.map k.view ∧
      (n = (syncInfo k env st).calls.length →
        msgs.flatMap (decodeInfo k) = st.queue.map k.view) := by
  obtain ⟨-, batches, sent, -, hcalls, hall, hdecoded, hq⟩ := @batched_exact α β k env st
  rw [hnew, List.nil_append] at hcalls
  rw [hcalls] at hstream hok ⊢
  rw [hq hok, List.filter_eq_self.2 hok, ← List.flatMap_map] at hdecoded
  obtain ⟨msgs, hn, hqueue, htaken, hframed⟩ := Framing.passes_framed hread
  rw [hstream] at htaken
  have hsent : ∀ msg ∈ sent.map SendCall.msg, WellFramed msg := by
    rw [List.forall_mem_map]
    exact ((List.forall₂_and_left _ _).1 (hall.flip.imp fun _ _ h => ⟨h.framed, h⟩)).1
  have hfirst := Stream.framed_unique hsent hframed htaken
  rw [← hdecoded]
  refine ⟨msgs, hqueue, ?_, fun hlast => ?_⟩
  · rw [hfirst]
    exact (List.take_prefix _ _).flatMap _
  · rw [hfirst, List.take_of_length_le (by rw [List.length_map, hn, hlast])]

/-- The addition of a MAC address of the interface "P". -/
def macAdd : MACMsg := ⟨1, 0, [0, 1, 2, 3, 4, 5], rfl, 10, ⟨[0x50], by simp, by decide⟩⟩

def oneUpdate : Sender MACMsg := ⟨[macAdd], ⟨fun _ => 0, 0⟩, 0, 0, 1, MsgLog.reset, []⟩

/-- A socket on which every `write` fails. -/
def failing : SendEnv := ⟨5, [0, 5, 0, 4, 0, 0, 0, 1], rfl, fun _ => -1⟩

/-- The only update is handed to a send that fails, and is in no queue any more. -/
theorem unsent_update_dropped :
    (mlacpSyncSendSyncMacInfo failing oneUpdate).queue.length = 0 ∧
      (mlacpSyncSendSyncMacInfo failing oneUpdate).calls.map SendCall.ok = [false] ∧
      ¬Lossless macKind oneUpdate (mlacpSyncSendSyncMacInfo failing oneUpdate) := by
  refine ⟨by decide +kernel, by decide +kernel, fun h => ?_⟩
  exact absurd ((lossless_iff oneUpdate).1 h 0 (by decide)).2 (by decide)

/-- Updates for 31 VLANs, one more than a message takes. -/
def manyUpdates : Sender MACMsg :=
  { oneUpdate with queue := (List.range 31).map fun i => { macAdd with vid := UInt16.ofNat i } }

/-- `write` takes all 922 bytes of the first message, and all 52 of the second. -/
def writing : SendEnv := { failing with rc := fun i => if i = 0 then 922 else 52 }

/-- What goes to the peer; it comes in pieces that do not follow the messages. -/
def manyArrive : Framing.Sock :=
  ⟨((syncInfo macKind writing manyUpdates).calls.map SendCall.msg).flatten,
    [.data 7, .data 900, .data 15, .data 30, .data 99, .data 99]⟩

theorem two_received :
    ∃ r ∈ Framing.passes 2 ⟨7, [], 0, 0⟩ ⟨fun _ => 0, 0⟩ manyArrive,
      r.1.queue.flatMap (decodeInfo macKind) = manyUpdates.queue.map MACMsg.data := by
  obtain ⟨r, hread, -⟩ : ∃ r ∈ Framing.passes 2 ⟨7, [], 0, 0⟩ ⟨fun _ => 0, 0⟩ manyArrive, True := by
    decide +kernel
  have hstream : manyArrive.stream =
      ((syncInfo macKind writing manyUpdates).calls.map SendCall.msg).flatten := by rw [manyArrive]
  obtain ⟨msgs, hqueue, -, hall⟩ :=
    updates_received (k := macKind) rfl (by decide +kernel) hstream hread
  exact ⟨r, hread, hqueue ▸ hall (by decide +kernel)⟩

end SonicBuildimage.Iccpd
