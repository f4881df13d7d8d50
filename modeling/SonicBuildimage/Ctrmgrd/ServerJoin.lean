/-
  When ctrmgrd joins the Kubernetes server: RemoteServerHandler and the timers of MainServer.

  Model.  A step is one message of CONFIG_DB, one message for another handler, or one turn of the
  timer loop of `run`, which takes the handlers of the earliest time that has passed and calls them.
  What `kube_join_master` returns, the clock and the timers that the other handlers register are
  inputs.  `calls` is the history of the kube commands; the program does not have it.

  Proved: `join_of_run`.  Between any two steps there is one timer of `handle_update` if `pending`
  is set and none otherwise, STATE_DB holds what `st_server` holds, and when `pending` is not set
  the last kube command was the reset or the successful join that the current configuration asks
  for, and the state says so.

  Not modelled: the rules of iptables and the labels of the node.
-/
import SonicBuildimage.Lib.Run
import SonicBuildimage.Lib.Timers

namespace SonicBuildimage.Ctrmgrd

open SonicBuildimage.Lib

/-! ## Entries of the databases -/

/-- An ASCII text without upper-case letters. -/
def isLowerAscii (s : String) : Bool := s.toList.all fun c => c.toNat < 128 && !c.isUpper

/-- `str.lower` -/
structure Lower where
  lower : String → String
  lower_lower : ∀ s, lower (lower s) = lower s
  lower_ascii : ∀ s, isLowerAscii s → lower s = s

/-- A text that `lower` leaves as it is, such as a time stamp. -/
structure LowerText (L : Lower) where
  text : String
  lower_text : L.lower text = text

abbrev Entry := Dict String String

/-- `_update_entry` -/
def updateEntry (L : Lower) (ct upd : Entry) : Entry :=
  upd.foldl (fun ret e => ret.set (L.lower e.1) (L.lower e.2)) ct

/-- `set_db_entry`: fields that are not in `data` are dropped. -/
def setDbEntry (ct data : Entry) : Entry :=
  Dict.setAll (ct.filter fun e => e.1 ∈ data.keys) data

theorem updateEntry_eq (L : Lower) (ct upd : Entry) :
    updateEntry L ct upd =
      Dict.setAll ct (upd.map fun e => (L.lower e.1, L.lower e.2)) := by
  rw [updateEntry, Dict.setAll, List.foldl_map]

/-- A field of an entry whose names are lower-case. -/
theorem get?_updateEntry (L : Lower) (ct : Entry) {upd : Entry} (hn : upd.keys.Nodup)
    (hlow : ∀ k ∈ upd.keys, L.lower k = k) (k : String) :
    (updateEntry L ct upd).get? k = ((upd.get? k).map L.lower).or (ct.get? k) := by
  have hmap : (upd.map fun e => (L.lower e.1, L.lower e.2)) =
      upd.map fun e => (e.1, L.lower e.2) := by
    refine List.map_congr_left fun e he => ?_
    rw [hlow e.1 (List.mem_map_of_mem he)]
  have hkeys : Dict.keys (upd.map fun e => (e.1, L.lower e.2)) = upd.keys := by
    simp [Dict.keys, Function.comp_def]
  rw [updateEntry_eq, hmap, Dict.get?_setAll, Dict.get?_reverse (hkeys ▸ hn), Dict.get?_map_snd]

/-- The entry is replaced as a whole. -/
theorem get?_setDbEntry (ct : Entry) {data : Entry} (hn : data.keys.Nodup) (k : String) :
    (setDbEntry ct data).get? k = data.get? k := by
  rw [setDbEntry, Dict.get?_setAll, Dict.get?_reverse hn]
  cases hk : data.get? k with
  | some v => rfl
  | none =>
    rw [Option.none_or]
    by_contra hne
    rw [← ne_eq, ← Dict.mem_keys_iff] at hne
    obtain ⟨e, he, rfl⟩ := List.mem_map.1 hne
    have := of_decide_eq_true (List.mem_filter.1 he).2
    rw [Dict.mem_keys_iff] at this
    exact this hk

theorem keys_setDbEntry_nodup {ct : Entry} (hct : ct.keys.Nodup) (data : Entry) :
    (setDbEntry ct data).keys.Nodup :=
  Dict.keys_setAll_nodup (Dict.keys_filter_nodup hct _) data

/-! ## The handler -/

namespace ServerJoin

def dfltCfgSer : Entry := [("ip", ""), ("port", "6443"), ("disable", "false"), ("insecure", "true")]

def dfltStSer : Entry := [("ip", ""), ("port", ""), ("connected", ""), ("update_time", "")]

/-- What the other handlers register. -/
inductive OtherFn where
  | doTagLatest (feat dockerId imageVer : String)
  | doCleanImage (feat currentVersion lastVersion : String)
  | updateNodeLabels
  deriving DecidableEq

inductive Handler where
  | handleUpdate
  | other (fn : OtherFn)
  deriving DecidableEq

/-- A kube command. -/
inductive Call where
  | reset
  | join (ip port insecure : String) (ret : Int)
  deriving DecidableEq

structure Params where
  L : Lower
  /-- `join_latency_on_boot_seconds` -/
  joinLatency : Int
  /-- `retry_join_interval_seconds` -/
  joinRetry : Int

/-- What a call of `handle_update` gets from outside. -/
structure Outcome (L : Lower) where
  ret : Int
  now : Int
  tsNow : LowerText L

structure State where
  cfgServer : Entry
  stServer : Entry
  startTime : Int
  pending : Bool
  remoteConnected : Bool
  timerHandlers : Timers Int Handler
  /-- `KUBERNETES_MASTER|SERVER` in STATE_DB -/
  stateDb : Entry
  calls : List Call

variable (p : Params)

def doReset (s : State) : State :=
  { s with
    stServer := s.stServer.set "connected" "false"
    remoteConnected := false
    calls := .reset :: s.calls }

def doJoin (s : State) (ip port insecure : String) (o : Outcome p.L) : State :=
  if o.ret = 0 then
    { s with
      stServer := ((s.stServer.set "connected" "true").set "ip" ip).set "port" port
      remoteConnected := true
      calls := .join ip port insecure o.ret :: s.calls }
  else
    { s with
      stServer := s.stServer.set "connected" "false"
      remoteConnected := false
      startTime := o.now + p.joinRetry
      timerHandlers := s.timerHandlers.register (o.now + p.joinRetry) .handleUpdate
      pending := true
      calls := .join ip port insecure o.ret :: s.calls }

/-- The reset or the join. -/
def act (s : State) (o : Outcome p.L) : State :=
  let ip := s.cfgServer.getD "ip" ""
  if s.cfgServer.getD "disable" "" ≠ "false" ∨ ip = "" then doReset s
  else doJoin p s ip (s.cfgServer.getD "port" "") (s.cfgServer.getD "insecure" "") o

/-- The end of `handle_update`: a state that has changed is written. -/
def writeState (before : Entry) (s : State) (tsNow : String) : State :=
  if before.Eqv s.stServer then s
  else
    let st := s.stServer.set "update_time" tsNow
    { s with stServer := st, stateDb := setDbEntry s.stateDb st }

def handleUpdate (s : State) (o : Outcome p.L) : State :=
  writeState s.stServer (act p { s with pending := false } o) o.tsNow.text

def onConfigUpdate (s : State) (key : String) (data : Entry) (o : Outcome p.L) : State :=
  if key ≠ "SERVER" then s
  else
    let cfgData := updateEntry p.L dfltCfgSer data
    if s.cfgServer.Eqv cfgData then s
    else
      let s := { s with cfgServer := cfgData }
      if s.pending then s else handleUpdate p s o

/-- `RemoteServerHandler.__init__` -/
def start (cfgDb stDb : Entry) (now : Int) (o : Outcome p.L) : State :=
  let s : State :=
    { cfgServer := updateEntry p.L dfltCfgSer cfgDb
      stServer := updateEntry p.L dfltStSer stDb
      startTime := now
      pending := false
      remoteConnected := false
      timerHandlers := []
      stateDb := stDb
      calls := [] }
  if s.stServer.getD "update_time" "" = "" then
    { s with
      startTime := now + p.joinLatency
      timerHandlers := s.timerHandlers.register (now + p.joinLatency) .handleUpdate
      pending := true }
  else handleUpdate p s o

/-! ## The main loop -/

def registerOthers (s : State) (l : List (Int × OtherFn)) : State :=
  { s with timerHandlers := s.timerHandlers.registerAll (l.map fun e => (e.1, .other e.2)) }

/-- What the call of one handler gets from outside; the other handlers may register timers. -/
structure Input (L : Lower) where
  outcome : Outcome L
  registered : List (Int × OtherFn)

def callHandler (s : State) (h : Handler) (i : Input p.L) : State :=
  match h with
  | .handleUpdate => handleUpdate p s i.outcome
  | .other _ => registerOthers s i.registered

/-- `for fn in lst`; the inputs are numbered in the order of the calls. -/
def callHandlers (inputs : Nat → Input p.L) : State → List Handler → Nat → State
  | s, [], _ => s
  | s, h :: l, n => callHandlers inputs (callHandler p s h (inputs n)) l (n + 1)

inductive Event (L : Lower) where
  /-- a message of the table KUBERNETES_MASTER -/
  | config (key : String) (data : Entry) (o : Outcome L)
  /-- a message of another table -/
  | other (registered : List (Int × OtherFn))
  /-- one turn of the timer loop -/
  | timer (ctTs : Int) (inputs : Nat → Input L)

def next (s : State) : Event p.L → State
  | .config key data o => onConfigUpdate p s key data o
  | .other registered => registerOthers s registered
  | .timer ctTs inputs =>
    match s.timerHandlers.popDue ctTs with
    | none => s
    | some (lst, rest) => callHandlers p inputs { s with timerHandlers := rest } lst 0

def Step (s : State) (e : Event p.L) (s' : State) : Prop := s' = next p s e

/-- The current configuration: the last message for SERVER, or what was there at the start. -/
def currentConfig {L : Lower} (cfgDb : Entry) : List (Event L) → Entry :=
  List.foldl (fun cfg e =>
    match e with
    | .config key data _ => if key = "SERVER" then data else cfg
    | _ => cfg) cfgDb

/-! ## The invariant -/

/-- What the configuration asks for. -/
def wantsReset (cfg : Entry) : Prop := cfg.getD "disable" "" ≠ "false" ∨ cfg.getD "ip" "" = ""

/-- The last kube command was what the configuration asks for, and it is what is recorded. -/
inductive Settled (cfg : Entry) (s : State) : Prop
  | reset (calls : List Call) (hwants : wantsReset cfg) (hcalls : s.calls = .reset :: calls)
      (hconn : s.stServer.get? "connected" = some "false") (hremote : s.remoteConnected = false)
  | join (calls : List Call) (hwants : ¬wantsReset cfg)
      (hcalls : s.calls =
        .join (cfg.getD "ip" "") (cfg.getD "port" "") (cfg.getD "insecure" "") 0 :: calls)
      (hconn : s.stServer.get? "connected" = some "true")
      (hip : s.stServer.get? "ip" = some (cfg.getD "ip" ""))
      (hport : s.stServer.get? "port" = some (cfg.getD "port" ""))
      (hremote : s.remoteConnected = true)

/-- The time stamp is not looked at. -/
theorem Settled.stamp {cfg : Entry} {s : State} (h : Settled cfg s) (ts : String) {db : Entry} :
    Settled cfg { s with stServer := s.stServer.set "update_time" ts, stateDb := db } := by
  cases h with
  | reset calls hwants hcalls hconn hremote =>
    refine .reset calls hwants hcalls ?_ hremote
    rw [Dict.get?_set_ne _ _ (by decide), hconn]
  | join calls hwants hcalls hconn hip hport hremote =>
    refine .join calls hwants hcalls ?_ ?_ ?_ hremote
    · rw [Dict.get?_set_ne _ _ (by decide), hconn]
    · rw [Dict.get?_set_ne _ _ (by decide), hip]
    · rw [Dict.get?_set_ne _ _ (by decide), hport]

theorem Settled.congr {cfg cfg' : Entry} {s : State} (h : Settled cfg s)
    (heq : ∀ k, cfg.get? k = cfg'.get? k) : Settled cfg' s := by
  have hgetD : ∀ k, cfg.getD k "" = cfg'.getD k "" := fun k => Dict.getD_congr _ (heq k)
  have hiff : wantsReset cfg ↔ wantsReset cfg' := by
    unfold wantsReset
    rw [hgetD, hgetD]
  cases h with
  | reset calls hwants hcalls hconn hremote =>
    exact .reset calls (hiff.1 hwants) hcalls hconn hremote
  | join calls hwants hcalls hconn hip hport hremote =>
    rw [hgetD, hgetD, hgetD] at hcalls
    rw [hgetD] at hip hport
    exact .join calls (mt hiff.2 hwants) hcalls hconn hip hport hremote

/-- `Settled` looks at the calls and at the recorded state. -/
theorem Settled.frame {cfg : Entry} {s s' : State} (h : Settled cfg s) (hcalls : s'.calls = s.calls)
    (hst : s'.stServer = s.stServer) (hremote : s'.remoteConnected = s.remoteConnected) :
    Settled cfg s' := by
  cases h with
  | reset calls hwants h1 h2 h3 =>
    exact .reset calls hwants (hcalls ▸ h1) (hst ▸ h2) (hremote ▸ h3)
  | join calls hwants h1 h2 h3 h4 h5 =>
    exact .join calls hwants (hcalls ▸ h1) (hst ▸ h2) (hst ▸ h3) (hst ▸ h4) (hremote ▸ h5)

def isHandleUpdate (h : Handler) : Bool := h = .handleUpdate

/-- The number of outstanding timers of `handle_update`. -/
def outstanding (s : State) : Nat := s.timerHandlers.count isHandleUpdate

/-- All names and values are lower-case. -/
def LowerEntry (L : Lower) (d : Entry) : Prop := ∀ e ∈ d, L.lower e.1 = e.1 ∧ L.lower e.2 = e.2

/-- An entry like `st_server`: a write in the database reads back as it is. -/
structure Recorded (L : Lower) (d : Entry) : Prop where
  keys : d.keys.Nodup
  lower : LowerEntry L d
  defaults : ∀ k ∈ dfltStSer.keys, k ∈ d.keys

/-- What every call keeps, whatever `pending` is, for the configuration `cfg`. -/
structure Fields (cfg : Entry) (s : State) : Prop where
  cfg : ∀ k, s.cfgServer.get? k = (updateEntry p.L dfltCfgSer cfg).get? k
  st : Recorded p.L s.stServer
  timers : (Dict.keys s.timerHandlers).Nodup
  db : s.stateDb.keys.Nodup

/-- `STATE_DB` holds the entry. -/
def Copied (s : State) (st : Entry) : Prop :=
  ∀ k, (updateEntry p.L dfltStSer s.stateDb).get? k = st.get? k

/-- The state while handlers are called of which `due` are calls of `handle_update`. -/
structure Good (cfg : Entry) (due : Nat) (s : State) : Prop where
  fields : Fields p cfg s
  copied : Copied p s s.stServer
  timer : outstanding s + due = if s.pending then 1 else 0
  settled : s.pending = false → Settled s.cfgServer s

variable {p} {cfg : Entry}

theorem LowerEntry.set {L : Lower} {d : Entry} (h : LowerEntry L d) {k v : String}
    (hk : L.lower k = k) (hv : L.lower v = v) : LowerEntry L (d.set k v) := by
  intro e he
  rcases Dict.mem_of_mem_set he with rfl | he
  · exact ⟨hk, hv⟩
  · exact h e he

theorem lowerEntry_updateEntry {L : Lower} {ct : Entry} (h : LowerEntry L ct) (upd : Entry) :
    LowerEntry L (updateEntry L ct upd) := by
  unfold updateEntry
  induction upd generalizing ct with
  | nil => exact h
  | cons e upd ih => exact ih (h.set (L.lower_lower e.1) (L.lower_lower e.2))

theorem keys_updateEntry_nodup {L : Lower} {ct : Entry} (h : ct.keys.Nodup) (upd : Entry) :
    (updateEntry L ct upd).keys.Nodup := by
  rw [updateEntry_eq]
  exact Dict.keys_setAll_nodup h _

theorem mem_keys_updateEntry {L : Lower} {ct : Entry} (upd : Entry) {k : String}
    (h : k ∈ ct.keys) : k ∈ (updateEntry L ct upd).keys := by
  unfold updateEntry
  induction upd generalizing ct with
  | nil => exact h
  | cons e upd ih => exact ih ((Dict.mem_keys_set _ _ _ _).2 (Or.inr h))

theorem Recorded.set {L : Lower} {d : Entry} (h : Recorded L d) {k v : String}
    (hk : L.lower k = k) (hv : L.lower v = v) : Recorded L (d.set k v) :=
  { keys := Dict.keys_set_nodup h.keys k v
    lower := h.lower.set hk hv
    defaults := fun k' hk' => (Dict.mem_keys_set _ _ _ _).2 (Or.inr (h.defaults k' hk')) }

/-- The texts of the program itself. -/
def literals : List String :=
  ["", "connected", "true", "false", "ip", "port", "update_time", "6443", "disable", "insecure"]

theorem lower_literal (L : Lower) (w : String) (hw : w ∈ literals) : L.lower w = w := by
  have hascii : ∀ w ∈ literals, isLowerAscii w := by decide +kernel
  exact L.lower_ascii w (hascii w hw)

theorem lowerEntry_dfltCfgSer (L : Lower) : LowerEntry L dfltCfgSer := by
  have hmem : ∀ e ∈ dfltCfgSer, e.1 ∈ literals ∧ e.2 ∈ literals := by decide
  exact fun e he => ⟨lower_literal L _ (hmem e he).1, lower_literal L _ (hmem e he).2⟩

theorem recorded_start (L : Lower) (stDb : Entry) : Recorded L (updateEntry L dfltStSer stDb) := by
  have hmem : ∀ e ∈ dfltStSer, e.1 ∈ literals ∧ e.2 ∈ literals := by decide
  have hlower : LowerEntry L dfltStSer := fun e he =>
    ⟨lower_literal L _ (hmem e he).1, lower_literal L _ (hmem e he).2⟩
  exact
    { keys := keys_updateEntry_nodup (by decide) stDb
      lower := lowerEntry_updateEntry hlower stDb
      defaults := fun k hk => mem_keys_updateEntry stDb hk }

theorem LowerEntry.lower_getD {L : Lower} {d : Entry} (h : LowerEntry L d) (k : String) :
    L.lower (d.getD k "") = d.getD k "" := by
  unfold Dict.getD
  cases hk : d.get? k with
  | none => exact lower_literal L "" (by decide)
  | some v => exact (h _ (Dict.mem_of_get? hk)).2

/-- The values of the configuration are lower-case. -/
theorem Fields.lower_cfg {s : State} (h : Fields p cfg s) (k : String) :
    p.L.lower (s.cfgServer.getD k "") = s.cfgServer.getD k "" := by
  rw [Dict.getD_congr "" (h.cfg k)]
  exact (lowerEntry_updateEntry (lowerEntry_dfltCfgSer p.L) cfg).lower_getD k

/-! ## One call -/

theorem act_cases (s : State) (o : Outcome p.L) :
    (wantsReset s.cfgServer ∧ act p s o = doReset s) ∨
      (¬wantsReset s.cfgServer ∧ act p s o = doJoin p s (s.cfgServer.getD "ip" "")
        (s.cfgServer.getD "port" "") (s.cfgServer.getD "insecure" "") o) := by
  by_cases h : wantsReset s.cfgServer
  · exact Or.inl ⟨h, if_pos h⟩
  · exact Or.inr ⟨h, if_neg h⟩

theorem fields_doReset {s : State} (h : Fields p cfg s) : Fields p cfg (doReset s) := by
  have hst := h.st.set (lower_literal p.L "connected" (by decide))
    (lower_literal p.L "false" (by decide))
  exact { h with st := hst }

theorem fields_doJoin {s : State} (h : Fields p cfg s) {ip port insecure : String} (o : Outcome p.L)
    (hip : p.L.lower ip = ip) (hport : p.L.lower port = port) :
    Fields p cfg (doJoin p s ip port insecure o) := by
  have hconn := lower_literal p.L "connected" (by decide)
  unfold doJoin
  split
  · have hst := ((h.st.set hconn (lower_literal p.L "true" (by decide))).set
      (lower_literal p.L "ip" (by decide)) hip).set (lower_literal p.L "port" (by decide)) hport
    exact { h with st := hst }
  · have hst := h.st.set hconn (lower_literal p.L "false" (by decide))
    exact { h with st := hst, timers := Timers.keys_register_nodup h.timers _ _ }

theorem fields_act {s : State} (h : Fields p cfg s) (o : Outcome p.L) :
    Fields p cfg (act p s o) := by
  rcases act_cases s o with ⟨-, hact⟩ | ⟨-, hact⟩
  · rw [hact]
    exact fields_doReset h
  · rw [hact]
    exact fields_doJoin h o (h.lower_cfg "ip") (h.lower_cfg "port")

/-- After the reset or the join a timer is there exactly if the call has failed. -/
theorem outstanding_act {s : State} (o : Outcome p.L) (hp : s.pending = false)
    (h0 : outstanding s = 0) :
    outstanding (act p s o) = if (act p s o).pending then 1 else 0 := by
  rcases act_cases s o with ⟨-, hact⟩ | ⟨-, hact⟩
  · rw [hact, show (doReset s).pending = false from hp]
    exact h0
  · rw [hact]
    unfold doJoin
    split
    · rw [show _ = false from hp]
      exact h0
    · unfold outstanding at h0 ⊢
      rw [Timers.count_register, h0]
      rfl

theorem settled_act {s : State} (o : Outcome p.L) (h : (act p s o).pending = false) :
    Settled (act p s o).cfgServer (act p s o) := by
  rcases act_cases s o with ⟨hwants, hact⟩ | ⟨hwants, hact⟩
  · rw [hact]
    exact .reset s.calls hwants rfl (by simp [doReset]) rfl
  · rw [hact] at h ⊢
    unfold doJoin at h ⊢
    by_cases hret : o.ret = 0
    · rw [if_pos hret]
      refine .join s.calls hwants (by rw [hret]) ?_ ?_ ?_ rfl
      · simp [Dict.get?_set]
      · simp [Dict.get?_set]
      · simp
    · rw [if_neg hret] at h
      simp at h

theorem stateDb_act (s : State) (o : Outcome p.L) : (act p s o).stateDb = s.stateDb := by
  rcases act_cases s o with ⟨-, hact⟩ | ⟨-, hact⟩
  · rw [hact]
    rfl
  · rw [hact]
    unfold doJoin
    split
    · rfl
    · rfl

/-- What is written reads back. -/
theorem copied_setDbEntry {L : Lower} {db st : Entry} (hdb : db.keys.Nodup) (hst : Recorded L st)
    (k : String) : (updateEntry L dfltStSer (setDbEntry db st)).get? k = st.get? k := by
  have hmem : ∀ k, k ∈ (setDbEntry db st).keys ↔ k ∈ st.keys := by
    intro k
    rw [Dict.mem_keys_iff, Dict.mem_keys_iff, get?_setDbEntry db hst.keys]
  have hlow : ∀ k ∈ (setDbEntry db st).keys, L.lower k = k := by
    intro k hk
    obtain ⟨e, he, rfl⟩ := List.mem_map.1 ((hmem k).1 hk)
    exact (hst.lower e he).1
  rw [get?_updateEntry L dfltStSer (keys_setDbEntry_nodup hdb st) hlow, get?_setDbEntry db hst.keys]
  cases hk : st.get? k with
  | some v => simp [(hst.lower _ (Dict.mem_of_get? hk)).2]
  | none =>
    -- a field that the entry lacks has no default
    have hnot : k ∉ dfltStSer.keys := by
      intro hmem
      exact (Dict.mem_keys_iff st k).1 (hst.defaults k hmem) hk
    rw [Dict.mem_keys_iff, not_not] at hnot
    rw [hnot]
    rfl

/-- `handle_update` leaves one timer or none, and without one the state is settled. -/
theorem good_handleUpdate {s : State} (hf : Fields p cfg s) (hc : Copied p s s.stServer)
    (h0 : outstanding s = 0) (o : Outcome p.L) : Good p cfg 0 (handleUpdate p s o) := by
  have hf0 : Fields p cfg { s with pending := false } := { hf with }
  have hf1 := fields_act hf0 o
  have hout := outstanding_act (s := { s with pending := false }) o rfl h0
  have hset := settled_act (s := { s with pending := false }) o
  have hdb := stateDb_act { s with pending := false } o
  unfold handleUpdate
  generalize act p { s with pending := false } o = s1 at *
  unfold writeState
  by_cases heq : s.stServer.Eqv s1.stServer
  · rw [if_pos heq]
    refine { fields := hf1, copied := fun k => ?_, timer := hout, settled := hset }
    rw [hdb, hc k]
    exact (Dict.eqv_iff _ _).1 heq k
  · rw [if_neg heq]
    have hst := hf1.st.set (lower_literal p.L "update_time" (by decide)) o.tsNow.lower_text
    have hkeys := keys_setDbEntry_nodup hf1.db (s1.stServer.set "update_time" o.tsNow.text)
    refine
      { fields := { hf1 with st := hst, db := hkeys }
        copied := copied_setDbEntry hf1.db hst
        timer := hout
        settled := fun hp => ?_ }
    exact (hset hp).stamp o.tsNow.text

/-! ## The steps -/

/-- A call while nothing else is due. -/
theorem Good.handleUpdate {s : State} {due : Nat} (h : Good p cfg (due + 1) s) (o : Outcome p.L) :
    due = 0 ∧ Good p cfg due (handleUpdate p s o) := by
  have htimer := h.timer
  have hle : (if s.pending then 1 else 0) ≤ 1 := by split <;> omega
  have hdue : due = 0 := by omega
  subst hdue
  exact ⟨rfl, good_handleUpdate h.fields h.copied (by omega) o⟩

theorem Good.registerOthers {s : State} {due : Nat} (h : Good p cfg due s)
    (l : List (Int × OtherFn)) : Good p cfg due (registerOthers s l) := by
  have hcount : outstanding (ServerJoin.registerOthers s l) = outstanding s := by
    refine Timers.count_registerAll _ _ fun e he => ?_
    obtain ⟨x, -, rfl⟩ := List.mem_map.1 he
    rfl
  exact
    { fields := { h.fields with timers := Timers.keys_registerAll_nodup _ h.fields.timers }
      copied := h.copied
      timer := hcount ▸ h.timer
      settled := fun hp => (h.settled hp).frame rfl rfl rfl }

/-- The loop over the handlers of one time: the calls that are still to come count as timers. -/
theorem Good.callHandlers {inputs : Nat → Input p.L} {l : List Handler} {s : State} {n : Nat}
    (h : Good p cfg (l.countP isHandleUpdate) s) : Good p cfg 0 (callHandlers p inputs s l n) := by
  induction l generalizing s n with
  | nil => exact h
  | cons f l ih =>
    cases f with
    | handleUpdate =>
      rw [List.countP_cons_of_pos (by rfl)] at h
      exact ih (h.handleUpdate (inputs n).outcome).2
    | other fn =>
      rw [List.countP_cons_of_neg (by simp [isHandleUpdate])] at h
      exact ih (h.registerOthers (inputs n).registered)

theorem Good.onConfigUpdate {s : State} (h : Good p cfg 0 s) (key : String) (data : Entry)
    (o : Outcome p.L) :
    Good p (if key = "SERVER" then data else cfg) 0 (onConfigUpdate p s key data o) := by
  unfold ServerJoin.onConfigUpdate
  by_cases hkey : key = "SERVER"
  · rw [if_neg (not_not.2 hkey), if_pos hkey]
    dsimp only
    by_cases heq : s.cfgServer.Eqv (updateEntry p.L dfltCfgSer data)
    · rw [if_pos heq]
      exact
        { fields := { h.fields with cfg := (Dict.eqv_iff _ _).1 heq }
          copied := h.copied
          timer := h.timer
          settled := fun hp => (h.settled hp).frame rfl rfl rfl }
    · rw [if_neg heq]
      have hfields : Fields p data { s with cfgServer := updateEntry p.L dfltCfgSer data } :=
        { h.fields with cfg := fun _ => rfl }
      by_cases hp : s.pending = true
      · -- the timer will see the new configuration
        rw [if_pos hp]
        exact
          { fields := hfields
            copied := h.copied
            timer := h.timer
            settled := fun hp' => absurd (hp.symm.trans hp') (by simp) }
      · rw [if_neg hp]
        have htimer := h.timer
        rw [if_neg hp] at htimer
        exact good_handleUpdate hfields h.copied htimer o
  · rw [if_pos hkey, if_neg hkey]
    exact h

theorem Good.next {s : State} (h : Good p cfg 0 s) (e : Event p.L) :
    Good p (currentConfig cfg [e]) 0 (next p s e) := by
  cases e with
  | config key data o => exact h.onConfigUpdate key data o
  | other registered => exact h.registerOthers registered
  | timer ctTs inputs =>
    rw [ServerJoin.next]
    cases hpop : s.timerHandlers.popDue ctTs with
    | none => exact h
    | some due =>
      obtain ⟨lst, rest⟩ := due
      refine Good.callHandlers ?_
      exact
        { fields := { h.fields with timers := Timers.keys_popDue_nodup h.fields.timers hpop }
          copied := h.copied
          timer := (Timers.count_popDue isHandleUpdate h.fields.timers hpop).trans h.timer
          settled := fun hp => (h.settled hp).frame rfl rfl rfl }

theorem good_start {cfgDb stDb : Entry} (hst : stDb.keys.Nodup) (now : Int) (o : Outcome p.L) :
    Good p cfgDb 0 (start p cfgDb stDb now o) := by
  have hrec := recorded_start p.L stDb
  unfold start
  dsimp only
  split
  · exact
      { fields :=
          { cfg := fun _ => rfl
            st := hrec
            timers := Timers.keys_register_nodup (t := []) List.nodup_nil _ _
            db := hst }
        copied := fun _ => rfl
        timer := rfl
        settled := fun h => absurd h (by simp) }
  · refine good_handleUpdate ?_ (fun _ => rfl) rfl o
    exact { cfg := fun _ => rfl, st := hrec, timers := List.nodup_nil, db := hst }

/-- Between two steps: one timer if `pending`, none otherwise; STATE_DB holds what `st_server`
    holds; and without a timer the state is what the last configuration that was delivered asks
    for. -/
theorem join_of_run {cfgDb stDb : Entry} (hst : stDb.keys.Nodup) {now : Int} {o : Outcome p.L}
    {es : List (Event p.L)} {s : State}
    (hrun : Run (Step p) (fun _ _ => True) (start p cfgDb stDb now o) es s) :
    outstanding s = (if s.pending then 1 else 0) ∧
      (∀ k, (updateEntry p.L dfltStSer s.stateDb).get? k = s.stServer.get? k) ∧
      (s.pending = false → Settled (updateEntry p.L dfltCfgSer (currentConfig cfgDb es)) s) := by
  have hgood : Good p (currentConfig cfgDb es) 0 s := by
    refine hrun.history (P := fun es s => Good p (currentConfig cfgDb es) 0 s) ?_
      (good_start hst now o)
    rintro es s e s' h - rfl
    rw [currentConfig, List.foldl_append]
    exact h.next e
  exact ⟨hgood.timer, hgood.copied, fun hp => (hgood.settled hp).congr hgood.fields.cfg⟩

/-! ## A run -/

/-- `lower` on ASCII letters. -/
def asciiLower : Lower where
  lower s := String.ofList (s.toList.map Char.toLower)
  lower_lower s := by simp [Function.comp_def, Char.toLower_toLower_eq_toLower]
  lower_ascii s hs := by
    have hmap : s.toList.map Char.toLower = s.toList.map id := by
      refine List.map_congr_left fun c hc => Char.toLower_eq_of_not_isUpper ?_
      have hc := List.all_eq_true.1 hs c hc
      rw [Bool.and_eq_true, Bool.not_eq_true'] at hc
      simp [hc.2]
    rw [hmap, List.map_id, String.ofList_toList]

def params : Params := ⟨asciiLower, 10, 10⟩

def outcome (ret now : Int) : Outcome asciiLower :=
  ⟨ret, now, "2024-05-01 10:00:00", asciiLower.lower_ascii _ (by decide +kernel)⟩

/-- The configuration changes before the first join and between the failed join and the retry. -/
def twoConfigs : List (Event asciiLower) :=
  [.config "SERVER" [("ip", "10.10.10.10")] (outcome 0 1),
    .timer 10 fun _ => ⟨outcome 1 10, []⟩,
    .config "SERVER" [("ip", "FC00::1")] (outcome 0 15),
    .timer 20 fun _ => ⟨outcome 0 20, []⟩]

theorem step_next (s : State) (e : Event asciiLower) (s' : State)
    (h : some (next params s e) = some s') : Step params s e s' := (Option.some.inj h).symm

theorem join_retried :
    ∃ s, Run (Step params) (fun _ _ => True) (start params [] [] 0 (outcome 0 0)) twoConfigs s ∧
      outstanding s = 0 ∧ s.stServer.get? "ip" = some "fc00::1" := by
  obtain ⟨s, hrun, hp, hreset⟩ :
      ∃ s, Run (Step params) (fun _ _ => True) (start params [] [] 0 (outcome 0 0)) twoConfigs s ∧
        s.pending = false ∧ s.remoteConnected = true :=
    exists_run step_next (by decide +kernel)
  obtain ⟨htimer, -, hsettled⟩ := join_of_run (p := params) (by decide) hrun
  refine ⟨s, hrun, by rw [htimer, hp]; rfl, ?_⟩
  cases hsettled hp with
  | reset _ _ _ _ hremote => exact absurd (hreset.symm.trans hremote) (by simp)
  | join _ _ _ _ hst _ _ => exact hst.trans (congrArg some (by decide +kernel))

end ServerJoin

end SonicBuildimage.Ctrmgrd
