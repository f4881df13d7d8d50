/-
  Which bytes of a message from the peer are read: routing (`Iccpd.Routing`), the dispatch in
  mlacp_fsm.c, and the decoding of MAC, ARP and ND information (mlacp_sync_update.c).

  Model.  Each function is a computation over the memory from the first byte of the message
  on.  What it reads depends on the state of the daemon only through a few questions: which
  handler has the message, whether a log level is on, with which names the name in an entry is
  compared, and what the tables hold.  The answers are parameters (`Stage`, `MacEnv`,
  `NeighEnv`), and the results are about all of them.

  Proved: `decoded_within_iff`, the messages for which no state of the daemon leads to a read
  behind the message, for every message that the framing hands over.  Nothing in the receive
  path compares a length with what is read, so there are many others: `decoded_behind_end` has
  a header without a parameter and a message that announces one entry and ends before it.

  Not modelled: what is done with the decoded values, and the decoding of the other TLVs.  In
  particular the `sprintf` copies of names into fields of 20 bytes (`MAX_L_PORT_NAME`) of the
  daemon, which overflow for a name of 20 bytes or more, are not here; the reads of the name are.
-/
import SonicBuildimage.Iccpd.Framing
import SonicBuildimage.Iccpd.Routing

namespace SonicBuildimage.Iccpd

open SonicBuildimage.Lib
open SonicBuildimage.Lib.Traced

/-! ## Entries -/

/-- `MAX_L_PORT_NAME` -/
def maxLPortName : Nat := 20

/-- `ETHER_ADDR_LEN` -/
def etherAddrLen : Nat := 6

/-- `MAC_SYNC_ADD` and `NEIGH_SYNC_ADD` -/
def syncAdd : UInt8 := 1

/-- A string that is printed, if it is. -/
def printIf (b : Bool) (m : Nat → UInt8) (i : Nat) : Traced Unit :=
  if b then cstr m i else pure ()

/-- What the MAC table holds for the address and VLAN of an entry. -/
structure MacFound where
  ifname : List UInt8
  originIfname : List UInt8
  isStatic : Bool

structure MacEnv where
  /-- the log level is at least `INFO` -/
  infoLog : Bool
  /-- the names of the MCLAG port channels -/
  mclagNames : List (List UInt8)
  found : Option MacFound

/-- The offset of `ifname` in `struct mLACPMACData`; the name is the last field. -/
def macNameAt : Nat := 10

/-- `sizeof(struct mLACPMACData)` -/
def sizeofMACData : Nat := macNameAt + maxLPortName

/-- Whether the name is the one of the interface that the MAC is set to, and the one of the
    interface it was learned from; the second comparison is only made after an equal first. -/
def sameNames (m : Nat → UInt8) (i : Nat) (f : MacFound) : Traced Bool := do
  let same ← strcmp m i f.ifname
  if same then strcmp m i f.originIfname else pure false

/-- The part of `mlacp_fsm_update_mac_entry_from_peer` after the search in the table; `i` is
    the place of the name. -/
def macApply (m : Nat → UInt8) (i : Nat) (type : UInt8) : Option MacFound → Traced Unit
  | none => printIf (type == syncAdd) m i
  | some f =>
    if type = syncAdd then do
      let same ← sameNames m i f
      if same ∨ f.isStatic then pure ()
      else do
        -- the name is copied with its whole field
        let _ ← bytes m i maxLPortName
        pure ()
    else pure ()

def mlacpFsmUpdateMacEntryFromPeer (env : MacEnv) (m : Nat → UInt8) (base : Nat) :
    Traced Unit := do
  -- the arguments of the first log line are all evaluated, but the name is only printed at `INFO`
  let type ← byte m base
  let _ ← byte m (base + 1)
  let mac ← bytes m (base + 2) etherAddrLen
  let _ ← be16 m (base + 8)
  printIf env.infoLog m (base + macNameAt)
  if mac.all (· == 0) then pure ()
  else do
    let _ ← anyStrcmp m (base + macNameAt) env.mclagNames
    macApply m (base + macNameAt) type env.found

structure NeighEnv where
  /-- the log level is at least `DEBUG` -/
  debugLog : Bool
  /-- the names of the interfaces that the name is compared with -/
  names : List (List UInt8)
  /-- the address is one of this switch -/
  ownAddr : Bool
  /-- the name goes to the kernel or into the table -/
  stored : Bool

/-- The offset of `ifname` in `struct ARPMsg` and `struct NDISCMsg`. -/
def neighNameAt : Nat := 3

/-- The offset of the address; it is aligned to 4 bytes. -/
def neighAddrAt : Nat := 24

/-- `VLAN_PREFIX` -/
def vlanPrefix : List UInt8 := [0x56, 0x6c, 0x61, 0x6e]

/-- `mlacp_fsm_update_arp_entry` and `mlacp_fsm_update_ndisc_entry`, which differ in the
    length of the address. -/
def updateNeighEntry (addrLen : Nat) (env : NeighEnv) (m : Nat → UInt8) (base : Nat) :
    Traced Unit := do
  let _ ← bytes m (base + neighAddrAt + addrLen) etherAddrLen
  let _ ← byte m (base + 1)
  let _ ← bytes m (base + neighAddrAt) addrLen
  printIf env.debugLog m (base + neighNameAt)
  let vlan ← strncmp m (base + neighNameAt) vlanPrefix vlanPrefix.length
  -- `sscanf` takes the whole string
  printIf vlan m (base + neighNameAt)
  let _ ← anyStrcmp m (base + neighNameAt) env.names
  if env.ownAddr then pure ()
  else do
    let _ ← byte m base
    printIf env.stored m (base + neighNameAt)

def mlacpFsmUpdateArpEntry : NeighEnv → (Nat → UInt8) → Nat → Traced Unit := updateNeighEntry 4

def mlacpFsmUpdateNdiscEntry : NeighEnv → (Nat → UInt8) → Nat → Traced Unit :=
  updateNeighEntry 16

/-- `sizeof(struct ARPMsg)`: the last two bytes are padding. -/
def sizeofARPMsg : Nat := 36

/-- `sizeof(struct NDISCMsg)` -/
def sizeofNDISCMsg : Nat := 48

/-! ## Messages -/

/-- The offset of `num_of_entry`, behind the parameter. -/
def numOfEntryAt : Nat := sizeofICCHdr + 4

/-- The offset of the first entry. -/
def entriesAt : Nat := numOfEntryAt + 2

/-- `num_of_entry` -/
def numOfEntry (m : Nat → UInt8) : Nat := (be16 m numOfEntryAt).val

/-- The loop over the entries: as many as the message announces. -/
def updateInfo (size : Nat) (entry : Nat → Nat → Traced Unit) (m : Nat → UInt8) :
    Traced Unit := do
  let count ← be16 m numOfEntryAt
  seq ((List.range count).map fun i => entry i (entriesAt + size * i))

/-- What the daemon's state says for each entry. -/
structure Env where
  mac : Nat → MacEnv
  neigh : Nat → NeighEnv

def mlacpFsmUpdateMacInfoFromPeer (env : Env) (m : Nat → UInt8) : Traced Unit :=
  updateInfo sizeofMACData (fun i => mlacpFsmUpdateMacEntryFromPeer (env.mac i) m) m

def mlacpFsmUpdateArpInfo (env : Env) (m : Nat → UInt8) : Traced Unit :=
  updateInfo sizeofARPMsg (fun i => mlacpFsmUpdateArpEntry (env.neigh i) m) m

def mlacpFsmUpdateNdiscInfo (env : Env) (m : Nat → UInt8) : Traced Unit :=
  updateInfo sizeofNDISCMsg (fun i => mlacpFsmUpdateNdiscEntry (env.neigh i) m) m

/-- `mlacp_sync_receiver_handler`, for the three TLVs. -/
def mlacpSyncReceiverHandler (env : Env) (m : Nat → UInt8) : Traced Unit := do
  let type ← paramType m
  if type = MlacpTlv.macInfo.code then mlacpFsmUpdateMacInfoFromPeer env m
  else if type = MlacpTlv.arpInfo.code then mlacpFsmUpdateArpInfo env m
  else if type = MlacpTlv.ndiscInfo.code then mlacpFsmUpdateNdiscInfo env m
  else pure ()

/-- Which handler has the message: the one that waits for a request of the peer, the one that
    waits for the peer's data, or the one of the state `EXCHANGE`. -/
inductive Stage where
  | send
  | request
  | exchange
  deriving DecidableEq

/-- What `mlacp_fsm_transit` does with a message of the mLACP queue. -/
def mlacpFsmHandle (stage : Stage) (env : Env) (m : Nat → UInt8) : Traced Unit := do
  let type ← msgType m
  let param ← paramType m
  if type = msgTNotification ∧ param = tlvTNak then do
    let _ ← rejectedMsgId m
    pure ()
  else
    match stage with
    | .send => pure ()
    | .request => mlacpSyncReceiverHandler env m
    | .exchange => if type = msgTRgAppData then mlacpSyncReceiverHandler env m else pure ()

/-- A message from the framing to its decoder. -/
def receive (log : MsgLog) (stage : Stage) (env : Env) (m : Nat → UInt8) : Traced Unit := do
  let q ← iccpCsmEnqueueMsg log m
  if q = .mlacp then mlacpFsmHandle stage env m else pure ()

/-! ## When an entry is inside -/

/-- A string that ends in the first `n` bytes. -/
def Ends (m : Nat → UInt8) (n i : Nat) : Prop := ∃ j < n, i ≤ j ∧ m j = 0

/-- An entry that adds a MAC address. -/
def Adds (m : Nat → UInt8) (base : Nat) : Prop :=
  m base = syncAdd ∧ ((bytes m (base + 2) etherAddrLen).val.all (· == 0)) = false

/-- The fields of an entry up to its name are inside, the name ends inside, and if it is to be
    copied, its field is inside. -/
structure MacEntryInside (m : Nat → UInt8) (n base : Nat) : Prop where
  fields : base + macNameAt ≤ n
  name : Ends m n (base + macNameAt)
  copied : Adds m base → base + sizeofMACData ≤ n

structure NeighEntryInside (addrLen : Nat) (m : Nat → UInt8) (n base : Nat) : Prop where
  fields : base + neighAddrAt + addrLen + etherAddrLen ≤ n
  name : Ends m n (base + neighNameAt)

theorem within_printIf {n : Nat} {m : Nat → UInt8} {i : Nat} (h : Within n (cstr m i))
    (b : Bool) : Within n (printIf b m i) := by
  cases b with
  | true => exact h
  | false => exact within_pure n ()

theorem within_sameNames {n : Nat} {m : Nat → UInt8} {i : Nat} (h : Within n (cstr m i))
    (f : MacFound) : Within n (sameNames m i f) := by
  rw [sameNames, within_bind]
  refine ⟨within_strncmp h _ _, ?_⟩
  split
  · exact within_strncmp h _ _
  · exact within_pure n false

theorem within_macApply {n : Nat} {m : Nat → UInt8} {i : Nat} {type : UInt8}
    (hname : Within n (cstr m i)) (hcopy : type = syncAdd → i + maxLPortName ≤ n)
    (found : Option MacFound) : Within n (macApply m i type found) := by
  cases found with
  | none => exact within_printIf hname _
  | some f =>
    rw [macApply]
    split
    · next hadd =>
      rw [within_bind]
      refine ⟨within_sameNames hname f, ?_⟩
      split
      · exact within_pure n ()
      · rw [within_bind]
        exact ⟨(within_bytes m (by decide)).2 (hcopy hadd), within_pure n ()⟩
    · exact within_pure n ()

/-- A found entry with another name makes the name be copied. -/
theorem copy_of_within {n : Nat} {m : Nat → UInt8} {i : Nat}
    (h : ∀ found, Within n (macApply m i syncAdd found)) : i + maxLPortName ≤ n := by
  -- a name that begins with another letter
  let f : MacFound := ⟨[m i + 1], [], false⟩
  have hother : (sameNames m i f).val = false := by
    have hcmp : (strcmp m i f.ifname).val = false := by
      simp only [strcmp, strncmp, f, allBytes, List.all_eq_false]
      exact ⟨0, by simp, by simp⟩
    rw [sameNames, val_bind, hcmp]
    rfl
  have hw := h (some f)
  rw [macApply, if_pos rfl, within_bind, if_neg (by simp [hother, f]), within_bind] at hw
  exact (within_bytes m (by decide)).1 hw.2.1

theorem within_macEntry_iff {n : Nat} {m : Nat → UInt8} {base : Nat} :
    (∀ env, Within n (mlacpFsmUpdateMacEntryFromPeer env m base)) ↔ MacEntryInside m n base := by
  constructor
  · intro h
    have hlog := h ⟨true, [], none⟩
    simp only [mlacpFsmUpdateMacEntryFromPeer, within_bind, within_byte, within_be16] at hlog
    obtain ⟨-, -, -, hvid, hname, -⟩ := hlog
    refine ⟨by unfold macNameAt; omega, within_cstr.1 hname, ?_⟩
    rintro ⟨htype, hmac⟩
    rw [sizeofMACData, ← Nat.add_assoc]
    refine copy_of_within (m := m) fun found => ?_
    have hfound := h ⟨true, [], found⟩
    simp only [mlacpFsmUpdateMacEntryFromPeer, within_bind] at hfound
    obtain ⟨-, -, -, -, -, hfound⟩ := hfound
    rw [if_neg (by rw [hmac]; exact Bool.false_ne_true), within_bind, val_byte, htype] at hfound
    exact hfound.2
  · rintro ⟨hfields, hname, hcopy⟩ env
    have hcstr : Within n (cstr m (base + macNameAt)) := within_cstr.2 hname
    unfold macNameAt at hfields
    simp only [mlacpFsmUpdateMacEntryFromPeer, within_bind, within_byte, within_be16]
    refine ⟨by omega, by omega, (within_bytes m (by decide)).2 (by unfold etherAddrLen; omega),
      by omega, within_printIf hcstr _, ?_⟩
    split
    · exact within_pure n ()
    · next hmac =>
      rw [within_bind]
      refine ⟨within_anyStrcmp hcstr _, within_macApply hcstr ?_ _⟩
      intro htype
      have := hcopy ⟨htype, Bool.eq_false_iff.2 hmac⟩
      rw [sizeofMACData] at this
      omega

theorem within_neighEntry_iff {addrLen n : Nat} (haddr : 0 < addrLen) {m : Nat → UInt8}
    {base : Nat} :
    (∀ env, Within n (updateNeighEntry addrLen env m base)) ↔
      NeighEntryInside addrLen m n base := by
  constructor
  · intro h
    have hlog := h ⟨true, [], true, false⟩
    simp only [updateNeighEntry, within_bind, within_byte, within_bytes m haddr,
      within_bytes m (by decide : 0 < etherAddrLen)] at hlog
    obtain ⟨hmac, -, -, hname, -⟩ := hlog
    exact ⟨hmac, within_cstr.1 hname⟩
  · rintro ⟨hfields, hname⟩ env
    have hcstr : Within n (cstr m (base + neighNameAt)) := within_cstr.2 hname
    simp only [updateNeighEntry, within_bind, within_byte, within_bytes m haddr,
      within_bytes m (by decide : 0 < etherAddrLen)]
    unfold neighAddrAt etherAddrLen at hfields ⊢
    refine ⟨hfields, by omega, by omega, within_printIf hcstr _, within_strncmp hcstr _ _,
      within_printIf hcstr _, within_anyStrcmp hcstr _, ?_⟩
    split
    · exact within_pure n ()
    · rw [within_bind, within_byte]
      exact ⟨by omega, within_printIf hcstr _⟩

/-! ## When a message is inside -/

/-- The loop stays inside if the count and each of the entries are. -/
theorem within_updateInfo_iff {E : Type} [Nonempty E] {n size : Nat} {m : Nat → UInt8}
    {entry : E → Nat → Traced Unit} :
    (∀ env : Nat → E, Within n (updateInfo size (fun i => entry (env i)) m)) ↔
      entriesAt ≤ n ∧
        ∀ i < numOfEntry m, ∀ e, Within n (entry e (entriesAt + size * i)) := by
  have hstep : ∀ env : Nat → E, Within n (updateInfo size (fun i => entry (env i)) m) ↔
      entriesAt ≤ n ∧ ∀ i < numOfEntry m, Within n (entry (env i) (entriesAt + size * i)) := by
    intro env
    rw [updateInfo, within_bind, within_be16, within_seq]
    simp [entriesAt, numOfEntry]
  simp only [hstep]
  constructor
  · intro h
    obtain ⟨e₀⟩ := (inferInstance : Nonempty E)
    exact ⟨(h fun _ => e₀).1, fun i hi e => (h fun _ => e).2 i hi⟩
  · rintro ⟨hhdr, hall⟩ env
    exact ⟨hhdr, fun i hi => hall i hi (env i)⟩

/-- The entries of a message with one of the three TLVs are inside. -/
structure InfoInside (m : Nat → UInt8) (n : Nat) : Prop where
  mac : (paramType m).val = MlacpTlv.macInfo.code →
    entriesAt ≤ n ∧ ∀ i < numOfEntry m, MacEntryInside m n (entriesAt + sizeofMACData * i)
  arp : (paramType m).val = MlacpTlv.arpInfo.code →
    entriesAt ≤ n ∧ ∀ i < numOfEntry m, NeighEntryInside 4 m n (entriesAt + sizeofARPMsg * i)
  ndisc : (paramType m).val = MlacpTlv.ndiscInfo.code →
    entriesAt ≤ n ∧ ∀ i < numOfEntry m, NeighEntryInside 16 m n (entriesAt + sizeofNDISCMsg * i)

instance : Nonempty MacEnv := ⟨⟨false, [], none⟩⟩

instance : Nonempty NeighEnv := ⟨⟨false, [], false, false⟩⟩

/-- A statement about both parts of the environment that only needs the first. -/
theorem forall_mac {P : (Nat → MacEnv) → Prop} : (∀ env : Env, P env.mac) ↔ ∀ e, P e :=
  ⟨fun h e => h ⟨e, fun _ => ⟨false, [], false, false⟩⟩, fun h env => h env.mac⟩

theorem forall_neigh {P : (Nat → NeighEnv) → Prop} : (∀ env : Env, P env.neigh) ↔ ∀ e, P e :=
  ⟨fun h e => h ⟨fun _ => ⟨false, [], none⟩, e⟩, fun h env => h env.neigh⟩

theorem within_macInfo_iff {m : Nat → UInt8} {n : Nat} :
    (∀ env, Within n (mlacpFsmUpdateMacInfoFromPeer env m)) ↔
      entriesAt ≤ n ∧ ∀ i < numOfEntry m, MacEntryInside m n (entriesAt + sizeofMACData * i) := by
  unfold mlacpFsmUpdateMacInfoFromPeer
  rw [forall_mac (P := fun e => Within n (updateInfo sizeofMACData
      (fun i => mlacpFsmUpdateMacEntryFromPeer (e i) m) m)),
    @within_updateInfo_iff MacEnv _ n sizeofMACData m
      (fun e => mlacpFsmUpdateMacEntryFromPeer e m)]
  simp only [within_macEntry_iff]

theorem within_neighInfo_iff {m : Nat → UInt8} {n size addrLen : Nat} (haddr : 0 < addrLen) :
    (∀ env : Env, Within n
        (updateInfo size (fun i => updateNeighEntry addrLen (env.neigh i) m) m)) ↔
      entriesAt ≤ n ∧
        ∀ i < numOfEntry m, NeighEntryInside addrLen m n (entriesAt + size * i) := by
  rw [forall_neigh (P := fun e => Within n (updateInfo size
      (fun i => updateNeighEntry addrLen (e i) m) m)),
    @within_updateInfo_iff NeighEnv _ n size m (fun e => updateNeighEntry addrLen e m)]
  simp only [within_neighEntry_iff haddr]

theorem within_receiver_iff {m : Nat → UInt8} {n : Nat} (hparam : sizeofICCHdr + 2 ≤ n) :
    (∀ env, Within n (mlacpSyncReceiverHandler env m)) ↔ InfoInside m n := by
  have hparam' : Within n (paramType m) := by
    rw [paramType, within_bind, within_be16]
    exact ⟨hparam, within_pure n _⟩
  have hmac := @within_macInfo_iff m n
  have harp := @within_neighInfo_iff m n sizeofARPMsg 4 (by decide)
  have hndisc := @within_neighInfo_iff m n sizeofNDISCMsg 16 (by decide)
  constructor
  · intro h
    simp only [mlacpSyncReceiverHandler, within_bind, hparam', true_and] at h
    refine ⟨fun ht => hmac.1 fun env => ?_, fun ht => harp.1 fun env => ?_,
      fun ht => hndisc.1 fun env => ?_⟩
    · have := h env
      rwa [if_pos ht] at this
    · have := h env
      rwa [ht, if_neg (by decide), if_pos rfl] at this
    · have := h env
      rwa [ht, if_neg (by decide), if_neg (by decide), if_pos rfl] at this
  · intro h env
    rw [mlacpSyncReceiverHandler, within_bind]
    refine ⟨hparam', ?_⟩
    split
    · next ht =>
      exact hmac.2 (h.mac ht) env
    · split
      · next ht =>
        exact harp.2 (h.arp ht) env
      · split
        · next ht =>
          exact hndisc.2 (h.ndisc ht) env
        · exact within_pure n ()

/-- A message is inside: its parameter, if it is read, the id that it rejects, if it is a
    rejection, and its entries, if they are decoded. -/
structure MsgInside (log : MsgLog) (m : Nat → UInt8) (n : Nat) : Prop where
  data : (msgType m).val = msgTRgAppData → sizeofICCHdr + 2 ≤ n ∧ InfoInside m n
  nak : (msgType m).val = msgTNotification → sizeofICCHdr + 12 ≤ n ∧
    ((iccpCsmEnqueueMsg log m).val = .mlacp → InfoInside m n)

@[simp] theorem within_msgType (n : Nat) (m : Nat → UInt8) :
    Within n (msgType m) ↔ 2 ≤ n := by
  simp [msgType]

@[simp] theorem within_paramType (n : Nat) (m : Nat → UInt8) :
    Within n (paramType m) ↔ sizeofICCHdr + 2 ≤ n := by
  simp [paramType]

@[simp] theorem within_rejectedMsgId (n : Nat) (m : Nat → UInt8) :
    Within n (rejectedMsgId m) ↔ sizeofICCHdr + 12 ≤ n := by
  simp [rejectedMsgId, Nat.add_assoc]

theorem within_appCsmEnqueueMsg {log : MsgLog} {m : Nat → UInt8} {n : Nat} (hn : 2 ≤ n) :
    Within n (appCsmEnqueueMsg log m) ↔ sizeofICCHdr + 2 ≤ n ∧
      ((msgType m).val = msgTNotification → sizeofICCHdr + 12 ≤ n) := by
  rw [appCsmEnqueueMsg, within_bind, within_bind, within_paramType, within_msgType]
  by_cases hdata : (msgType m).val = msgTRgAppData
  · have hne : ¬msgTRgAppData = msgTNotification := by decide
    rw [if_pos hdata, hdata]
    split
    · simp [hn, hne]
    · simp [hn, hne]
  · rw [if_neg hdata]
    by_cases hnak : (msgType m).val = msgTNotification
    · rw [if_pos hnak, within_bind, within_rejectedMsgId]
      dsimp only
      split
      · simp [hn, hnak]
      · simp [hn, hnak]
    · rw [if_neg hnak]
      simp [hn, hnak]

theorem within_iccpCsmEnqueueMsg {log : MsgLog} {m : Nat → UInt8} {n : Nat} (hn : 2 ≤ n) :
    Within n (iccpCsmEnqueueMsg log m) ↔
      ((msgType m).val = msgTRgAppData → sizeofICCHdr + 2 ≤ n) ∧
        ((msgType m).val = msgTNotification → sizeofICCHdr + 12 ≤ n) := by
  have hne : ¬msgTRgAppData = msgTNotification := by decide
  have hne' : ¬msgTNotification = msgTRgAppData := by decide
  rw [iccpCsmEnqueueMsg, within_bind, within_msgType]
  by_cases hdata : (msgType m).val = msgTRgAppData
  · rw [if_pos hdata, within_appCsmEnqueueMsg hn]
    simp [hn, hdata, hne]
  · rw [if_neg hdata]
    by_cases hnak : (msgType m).val = msgTNotification
    · rw [if_pos hnak, within_bind, within_rejectedMsgId]
      split
      · rw [within_appCsmEnqueueMsg hn]
        simp only [hn, hnak, hne', true_and, forall_true_left, IsEmpty.forall_iff]
        constructor
        · rintro ⟨h, -⟩
          exact h
        · intro h
          exact ⟨h, by omega, h⟩
      · simp [hn, hnak, hne']
    · rw [if_neg hnak]
      simp [hn, hdata, hnak]

/-- Data with one of the three TLVs goes to mLACP. -/
theorem enqueue_info {log : MsgLog} {m : Nat → UInt8}
    (hdata : (msgType m).val = msgTRgAppData)
    (hinfo : (paramType m).val = MlacpTlv.macInfo.code ∨
      (paramType m).val = MlacpTlv.arpInfo.code ∨ (paramType m).val = MlacpTlv.ndiscInfo.code) :
    (iccpCsmEnqueueMsg log m).val = .mlacp := by
  have hrange : (paramType m).val > MlacpTlv.connect.code ∧
      (paramType m).val < tlvTMlacpListEnd := by
    rcases hinfo with h | h | h
    · rw [h]
      decide
    · rw [h]
      decide
    · rw [h]
      decide
  rw [iccpCsmEnqueueMsg, val_bind, if_pos hdata, appCsmEnqueueMsg, val_bind, val_bind,
    if_pos hdata, if_pos hrange]
  rfl

theorem type_of_mlacp {log : MsgLog} {m : Nat → UInt8}
    (h : (iccpCsmEnqueueMsg log m).val = .mlacp) :
    (msgType m).val = msgTRgAppData ∨ (msgType m).val = msgTNotification := by
  by_contra hno
  rw [not_or] at hno
  rw [iccpCsmEnqueueMsg, val_bind, if_neg hno.1, if_neg hno.2] at h
  exact absurd h (by decide)

/-- The handler that leads to the decoder, for a message of each of the two types. -/
def Stage.decoding (type : Nat) : Stage := if type = msgTRgAppData then .exchange else .request

theorem handle_decoding {env : Env} {m : Nat → UInt8}
    (hnak : ¬((msgType m).val = msgTNotification ∧ (paramType m).val = tlvTNak)) {n : Nat}
    (h : Within n (mlacpFsmHandle (Stage.decoding (msgType m).val) env m)) :
    Within n (mlacpSyncReceiverHandler env m) := by
  rw [mlacpFsmHandle, within_bind, within_bind, if_neg hnak] at h
  obtain ⟨-, -, h⟩ := h
  unfold Stage.decoding at h
  by_cases hdata : (msgType m).val = msgTRgAppData
  · simpa only [if_pos hdata] using h
  · simpa only [if_neg hdata] using h

/-- A rejection has no entries. -/
theorem infoInside_of_nak {m : Nat → UInt8} (h : (paramType m).val = tlvTNak) (n : Nat) :
    InfoInside m n := by
  refine ⟨fun ht => ?_, fun ht => ?_, fun ht => ?_⟩
  · exact absurd (h.symm.trans ht) (by decide)
  · exact absurd (h.symm.trans ht) (by decide)
  · exact absurd (h.symm.trans ht) (by decide)

/-- No byte behind a message is read, in any state of the daemon, exactly if the message is
    long enough for its type, and its entries are inside and have names that end inside. -/
theorem decoded_within_iff (log : MsgLog) {m : Nat → UInt8} {n : Nat}
    (hframed : Framing.WellFramed ((List.range n).map m)) :
    (∀ stage env, Within n (receive log stage env m)) ↔ MsgInside log m n := by
  have hn : 8 ≤ n := by
    have := hframed.2
    rwa [List.length_map, List.length_range] at this
  constructor
  · intro h
    have hroute : Within n (iccpCsmEnqueueMsg log m) :=
      ((within_bind _ _ _).1 (h .send ⟨fun _ => ⟨false, [], none⟩,
        fun _ => ⟨false, [], false, false⟩⟩)).1
    obtain ⟨hdata, hnak⟩ := (within_iccpCsmEnqueueMsg (by omega)).1 hroute
    have hinfo (hparam : sizeofICCHdr + 2 ≤ n) (hq : (iccpCsmEnqueueMsg log m).val = .mlacp) :
        InfoInside m n := by
      by_cases hrej : (msgType m).val = msgTNotification ∧ (paramType m).val = tlvTNak
      · exact infoInside_of_nak hrej.2 n
      · refine (within_receiver_iff hparam).1 fun env => handle_decoding hrej ?_
        have := h (Stage.decoding (msgType m).val) env
        rw [receive, within_bind, if_pos hq] at this
        exact this.2
    refine ⟨fun ht => ⟨hdata ht, ?_⟩, fun ht => ⟨hnak ht, hinfo (by have := hnak ht; omega)⟩⟩
    refine ⟨fun hp => ?_, fun hp => ?_, fun hp => ?_⟩
    · exact (hinfo (hdata ht) (enqueue_info ht (Or.inl hp))).mac hp
    · exact (hinfo (hdata ht) (enqueue_info ht (Or.inr (Or.inl hp)))).arp hp
    · exact (hinfo (hdata ht) (enqueue_info ht (Or.inr (Or.inr hp)))).ndisc hp
  · rintro ⟨hdata, hnak⟩ stage env
    rw [receive, within_bind, within_iccpCsmEnqueueMsg (by omega)]
    refine ⟨⟨fun ht => (hdata ht).1, fun ht => (hnak ht).1⟩, ?_⟩
    split
    · next hq =>
      have hinfo : sizeofICCHdr + 2 ≤ n ∧ InfoInside m n := by
        rcases type_of_mlacp hq with ht | ht
        · exact hdata ht
        · exact ⟨by have := (hnak ht).1; omega, (hnak ht).2 hq⟩
      have hreceiver := (within_receiver_iff hinfo.1).2 hinfo.2 env
      rw [mlacpFsmHandle, within_bind, within_bind, within_msgType, within_paramType]
      refine ⟨by omega, hinfo.1, ?_⟩
      split
      · next hrej =>
        rw [within_bind, within_rejectedMsgId]
        exact ⟨(hnak hrej.1).1, within_pure n ()⟩
      · cases stage with
        | send => exact within_pure n ()
        | request => exact hreceiver
        | exchange =>
          dsimp only
          split
          · exact hreceiver
          · exact within_pure n ()
    · exact within_pure n ()

/-- The header and the parameter of MAC information, with the length of the message without
    its first 4 bytes and the announced number of entries. -/
def macInfoHdr (len count : UInt8) : List UInt8 :=
  [0x07, 0x03, 0, len, 0, 0, 0, 1, 0, 5, 0, 4, 0, 0, 0, 1, 0x10, 0x38, 0, 2, 0, count]

/-- The removal of a MAC address of the interface "P". -/
def macDelEntry : List UInt8 := [2, 0, 0, 1, 2, 3, 4, 5, 0, 10] ++ 0x50 :: List.replicate 19 0

/-- Where nothing is printed and the tables are empty. -/
def quietEnv : Env := ⟨fun _ => ⟨false, [], none⟩, fun _ => ⟨false, [], false, false⟩⟩

/-- A message with one whole entry is read inside. -/
theorem decoded_one_entry :
    Within 52 (receive MsgLog.reset .exchange quietEnv
      (memOf (macInfoHdr 48 1 ++ macDelEntry))) := by
  refine (decoded_within_iff MsgLog.reset (by decide)).2 ⟨fun _ => ⟨by decide, ?_⟩, fun h => ?_⟩
    .exchange quietEnv
  · refine ⟨fun _ => ⟨by decide, ?_⟩, fun h => absurd h (by decide), fun h => absurd h (by decide)⟩
    intro i hi
    obtain rfl : i = 0 := by
      have : numOfEntry (memOf (macInfoHdr 48 1 ++ macDelEntry)) = 1 := by decide
      omega
    exact ⟨by decide, ⟨33, by decide, by decide, by decide⟩, fun h => absurd h.1 (by decide)⟩
  · exact absurd h (by decide)

/-- A message that is only a header, and one that announces an entry and has none. -/
theorem decoded_behind_end :
    (Framing.WellFramed [0x07, 0x03, 0, 4, 0, 0, 0, 1] ∧
      (receive MsgLog.reset .exchange quietEnv
        (memOf [0x07, 0x03, 0, 4, 0, 0, 0, 1])).reads 16 = true) ∧
    (Framing.WellFramed (macInfoHdr 18 1) ∧
      (receive MsgLog.reset .exchange quietEnv (memOf (macInfoHdr 18 1))).reads 22 = true) := by
  decide +kernel

end SonicBuildimage.Iccpd
