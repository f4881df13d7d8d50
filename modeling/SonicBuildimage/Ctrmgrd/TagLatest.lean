/-
  The stable and the last version of a feature: FeatureTransitionHandler of ctrmgrd.

  Model.  One feature: its row in STATE_DB, the notifications that are not delivered yet, the copy
  `st_data[feat]` of the handler and the timers.  The container scripts write the row at any time,
  notifications come in order and arbitrarily late, and timers expire in any order with any result
  of the kube commands.  `Notification.versions` says whether the write set a version, `tagged` is
  the version tagged last, and `cleaned` and `lastClean` are the arguments of `do_clean_image`; the
  program has none of them.

  `do_tag_latest` writes the new versions into the row, but puts them into `st_data` itself and not
  into `st_data[feat]`, so that its copy is old until the notification comes.  A second tagging
  before that forgets the version tagged just before and hands it to `do_clean_image` as one to be
  removed (`tag_forgets`).

  Proved: `tag_of_run`.  In every run in which a tagging succeeds only after the notifications of
  the earlier version writes and while the version tagged before is still the stable one (a local
  container may put its own version in place), versions are written in lower case and a repeated
  clean up is that of the last tagging, every tagging records the new version as stable and the
  former stable version as last, and the version tagged before is never one to be removed.

  Not modelled: restarts of services and the labels for the server.
-/
import SonicBuildimage.Ctrmgrd.ServerJoin

namespace SonicBuildimage.Ctrmgrd.TagLatest

open SonicBuildimage.Lib

def dfltStFeat : Entry :=
  [("current_owner", "none"), ("update_time", ""), ("container_id", ""), ("container_version", ""),
    ("container_stable_version", ""), ("container_last_version", ""), ("remote_state", "none"),
    ("system_state", "")]

def versionFields : List String := ["container_stable_version", "container_last_version"]

/-- The stable and the last version of a row. -/
def versions (d : Entry) : String × String :=
  (d.getD "container_stable_version" "", d.getD "container_last_version" "")

structure Notification where
  data : Entry
  versions : Bool

/-- What is registered with `register_timer`. -/
inductive Timer where
  | doTagLatest (dockerId imageVer : String)
  | doCleanImage (currentVersion lastVersion : String)
  deriving DecidableEq

/-- A call of `do_clean_image`, with the version that was tagged just before. -/
structure Clean where
  currentVersion : String
  lastVersion : String
  tagged : Option String
  deriving DecidableEq

/-- An image is removed unless its version is one of the arguments. -/
def Clean.Removes (c : Clean) (v : String) : Prop := v ≠ c.currentVersion ∧ v ≠ c.lastVersion

instance (c : Clean) (v : String) : Decidable (c.Removes v) :=
  inferInstanceAs (Decidable (_ ∧ _))

structure State where
  db : Entry
  queue : List Notification
  /-- `st_data[feat]`, a `defaultdict(str)` before the first notification -/
  stData : Entry
  /-- `st_data["container_last_version"]` and `st_data["container_stable_version"]` -/
  stray : Option (String × String)
  timers : List Timer
  cleaned : List Clean
  tagged : Option String
  lastClean : Option (String × String)

def doCleanImage (s : State) (currentVersion lastVersion : String) (ret : Int) : State :=
  { s with
    cleaned := ⟨currentVersion, lastVersion, s.tagged⟩ :: s.cleaned
    timers := if ret ≠ 0 then s.timers ++ [.doCleanImage currentVersion lastVersion] else s.timers }

/-- The last version that `do_tag_latest` takes from its copy. -/
def lastVersion (s : State) (imageVer : String) : String :=
  let (stable, last) := versions s.stData
  if stable = imageVer then last else stable

def doTagLatest (s : State) (dockerId imageVer : String) (ret cleanRet : Int) : State :=
  if ret = 1 then { s with timers := s.timers ++ [.doTagLatest dockerId imageVer] }
  else if ret = 0 then
    let last := lastVersion s imageVer
    let db := (s.db.set "container_stable_version" imageVer).set "container_last_version" last
    let s := { s with
      db := db
      queue := s.queue ++ [⟨db, true⟩]
      stray := some (last, imageVer) }
    let s := doCleanImage s imageVer last cleanRet
    { s with tagged := some imageVer, lastClean := some (imageVer, last) }
  else s

def onStateUpdate (L : Lower) (s : State) (data : Entry) : State :=
  let st := updateEntry L dfltStFeat data
  let remoteState := st.getD "remote_state" ""
  { s with
    stData := st
    timers :=
      if remoteState = "running" ∧ s.stData.getD "remote_state" "" ≠ remoteState then
        s.timers ++ [.doTagLatest (st.getD "container_id" "") (st.getD "container_version" "")]
      else s.timers }

inductive Event where
  /-- a container script sets fields of the row -/
  | write (fields : Entry)
  /-- the next notification is delivered -/
  | deliver
  /-- a timer expires; the results of `tag_latest` and `clean_image` -/
  | timer (i : Nat) (ret cleanRet : Int)

def next (L : Lower) (s : State) : Event → State
  | .write fields =>
    let db := s.db.setAll fields
    { s with
      db := db
      queue := s.queue ++ [⟨db, fields.any fun e => e.1 ∈ versionFields⟩] }
  | .deliver =>
    match s.queue with
    | [] => s
    | n :: queue => onStateUpdate L { s with queue := queue } n.data
  | .timer i ret cleanRet =>
    let rest := { s with timers := s.timers.eraseIdx i }
    match s.timers[i]? with
    | none => s
    | some (.doTagLatest dockerId imageVer) => doTagLatest rest dockerId imageVer ret cleanRet
    | some (.doCleanImage cur last) => doCleanImage rest cur last cleanRet

def Step (L : Lower) (s : State) (e : Event) (s' : State) : Prop := s' = next L s e

/-- The row is there when the handler starts, or it is empty. -/
def start (db : Entry) : State :=
  ⟨db, if db = [] then [] else [⟨db, true⟩], [], none, [], [], none, none⟩

/-! ## The condition -/

/-- Names are lower-case, and so are versions. -/
def LowerVersions (L : Lower) (d : Entry) : Prop :=
  ∀ e ∈ d, L.lower e.1 = e.1 ∧ (e.1 ∈ versionFields → L.lower e.2 = e.2)

/-- No notification of a version write is outstanding. -/
def UpToDate (s : State) : Prop := ∀ n ∈ s.queue, n.versions = false

/-- The version tagged last is tagged again, or is still the stable one. -/
def InPlace (s : State) (imageVer : String) : Prop :=
  ∀ v ∈ s.tagged, v = imageVer ∨ v = (versions s.db).1

/-- A timer that expires: a tagging finds the copy up to date and the version tagged last in its
    place, a clean up is that of the last tagging. -/
def Timer.Ok (s : State) (ret : Int) : Timer → Prop
  | .doTagLatest _ imageVer => ret = 0 → UpToDate s ∧ InPlace s imageVer
  | .doCleanImage cur last => s.lastClean = some (cur, last)

def Ok (L : Lower) (s : State) : Event → Prop
  | .write fields => LowerVersions L fields
  | .deliver => True
  | .timer i ret _ => ∀ t ∈ s.timers[i]?, t.Ok s ret

instance (L : Lower) (d : Entry) : Decidable (LowerVersions L d) :=
  inferInstanceAs (Decidable (∀ e ∈ d, _))

instance (s : State) : Decidable (UpToDate s) :=
  inferInstanceAs (Decidable (∀ n ∈ s.queue, n.versions = false))

instance (s : State) (imageVer : String) : Decidable (InPlace s imageVer) :=
  inferInstanceAs (Decidable (∀ v ∈ s.tagged, _))

instance (s : State) (ret : Int) (t : Timer) : Decidable (t.Ok s ret) :=
  match t with
  | .doTagLatest _ imageVer =>
    inferInstanceAs (Decidable (ret = 0 → UpToDate s ∧ InPlace s imageVer))
  | .doCleanImage cur last => inferInstanceAs (Decidable (s.lastClean = some (cur, last)))

instance (L : Lower) (s : State) (e : Event) : Decidable (Ok L s e) :=
  match e with
  | .write fields => inferInstanceAs (Decidable (LowerVersions L fields))
  | .deliver => inferInstanceAs (Decidable True)
  | .timer i ret _ => inferInstanceAs (Decidable (∀ t ∈ s.timers[i]?, t.Ok s ret))

/-! ## The copy follows the row -/

/-- A row of the database. -/
structure Row (L : Lower) (d : Entry) : Prop where
  keys : d.keys.Nodup
  lower : LowerVersions L d

/-- From the copy over the outstanding notifications to the row: a notification that is not of a
    version write has the versions of the one before. -/
def Follows : String × String → List Notification → String × String → Prop
  | v, [], w => v = w
  | v, n :: queue, w =>
    (n.versions = false → TagLatest.versions n.data = v) ∧
      Follows (TagLatest.versions n.data) queue w

theorem follows_append {v w : String × String} {queue : List Notification} {n : Notification}
    (h : Follows v queue w) (hn : n.versions = false → versions n.data = w) :
    Follows v (queue ++ [n]) (versions n.data) := by
  induction queue generalizing v with
  | nil => exact ⟨fun hf => (hn hf).trans h.symm, rfl⟩
  | cons m queue ih => exact ⟨h.1, ih h.2⟩

theorem follows_eq {v w : String × String} {queue : List Notification} (h : Follows v queue w)
    (hq : ∀ n ∈ queue, n.versions = false) : v = w := by
  induction queue generalizing v with
  | nil => exact h
  | cons n queue ih =>
    have hrest := ih h.2 fun m hm => hq m (List.mem_cons_of_mem _ hm)
    rw [← h.1 (hq n List.mem_cons_self)]
    exact hrest

theorem LowerVersions.set {L : Lower} {d : Entry} (h : LowerVersions L d) {k v : String}
    (hk : L.lower k = k) (hv : L.lower v = v) : LowerVersions L (d.set k v) := by
  intro e he
  rcases Dict.mem_of_mem_set he with rfl | he
  · exact ⟨hk, fun _ => hv⟩
  · exact h e he

theorem Row.set {L : Lower} {d : Entry} (h : Row L d) {k v : String} (hk : L.lower k = k)
    (hv : L.lower v = v) : Row L (d.set k v) :=
  ⟨Dict.keys_set_nodup h.keys k v, h.lower.set hk hv⟩

theorem Row.setAll {L : Lower} {d fields : Entry} (h : Row L d) (hf : LowerVersions L fields) :
    Row L (d.setAll fields) := by
  refine ⟨Dict.keys_setAll_nodup h.keys fields, ?_⟩
  have hlower := h.lower
  clear h
  induction fields generalizing d with
  | nil => exact hlower
  | cons e fields ih =>
    refine ih (fun x hx => hf x (List.mem_cons_of_mem _ hx)) fun x hx => ?_
    rcases Dict.mem_of_mem_set hx with rfl | hx
    · exact hf e List.mem_cons_self
    · exact hlower x hx

/-- The versions of a row come through `_update_entry` unchanged. -/
theorem versions_updateEntry {L : Lower} {d : Entry} (h : Row L d) :
    versions (updateEntry L dfltStFeat d) = versions d := by
  have hfield : ∀ f ∈ versionFields, (updateEntry L dfltStFeat d).getD f "" = d.getD f "" := by
    intro f hf
    have hlow : ∀ k ∈ d.keys, L.lower k = k := by
      intro k hk
      obtain ⟨e, he, rfl⟩ := List.mem_map.1 hk
      exact (h.lower e he).1
    have hdflt : ∀ f ∈ versionFields, dfltStFeat.get? f = some "" := by decide
    unfold Dict.getD
    rw [get?_updateEntry L dfltStFeat h.keys hlow]
    cases hget : d.get? f with
    | none =>
      rw [Option.map_none, Option.none_or, hdflt f hf]
      rfl
    | some v =>
      rw [Option.map_some, (h.lower _ (Dict.mem_of_get? hget)).2 hf]
      rfl
  unfold versions
  rw [hfield _ (by decide), hfield _ (by decide)]

/-- A write that sets no version leaves them alone. -/
theorem versions_setAll {d fields : Entry}
    (h : (fields.any fun e => e.1 ∈ versionFields) = false) :
    versions (d.setAll fields) = versions d := by
  have hfield : ∀ f ∈ versionFields, (d.setAll fields).getD f "" = d.getD f "" := by
    intro f hf
    refine Dict.getD_congr "" (Dict.get?_setAll_of_not_mem d fun hmem => ?_)
    obtain ⟨e, he, rfl⟩ := List.mem_map.1 hmem
    exact List.any_eq_false.1 h e he (decide_eq_true hf)
  unfold versions
  rw [hfield _ (by decide), hfield _ (by decide)]

theorem versions_set (d : Entry) (stable last : String) :
    versions ((d.set "container_stable_version" stable).set "container_last_version" last) =
      (stable, last) := by
  unfold versions
  rw [Dict.getD_set, Dict.getD_set, Dict.getD_set]
  rfl

theorem lowerEntry_dfltStFeat (L : Lower) : ServerJoin.LowerEntry L dfltStFeat := by
  have hascii : ∀ e ∈ dfltStFeat, isLowerAscii e.1 ∧ isLowerAscii e.2 := by decide +kernel
  exact fun e he => ⟨L.lower_ascii _ (hascii e he).1, L.lower_ascii _ (hascii e he).2⟩

/-! ## The invariant -/

structure Good (L : Lower) (s : State) : Prop where
  db : Row L s.db
  queue : ∀ n ∈ s.queue, Row L n.data
  stData : ServerJoin.LowerEntry L s.stData
  timers : ∀ id ver, .doTagLatest id ver ∈ s.timers → L.lower ver = ver
  follows : Follows (versions s.stData) s.queue (versions s.db)
  tagged : ∀ v ∈ s.tagged, ∃ last, s.lastClean = some (v, last)
  cleaned : ∀ c ∈ s.cleaned, ∀ v ∈ c.tagged, ¬c.Removes v

theorem Good.lower_lastVersion {L : Lower} {s : State} (h : Good L s) (ver : String) :
    L.lower (lastVersion s ver) = lastVersion s ver := by
  unfold lastVersion versions
  dsimp only
  split
  · exact h.stData.lower_getD _
  · exact h.stData.lower_getD _

/-- The copy is used only when it is up to date. -/
theorem Good.lastVersion_eq {L : Lower} {s : State} (h : Good L s) (hup : UpToDate s)
    (ver : String) :
    lastVersion s ver =
      if (versions s.db).1 = ver then (versions s.db).2 else (versions s.db).1 := by
  rw [lastVersion, follows_eq h.follows hup]

theorem Good.onStateUpdate {L : Lower} {s : State} {n : Notification} {queue : List Notification}
    (h : Good L s) (hq : s.queue = n :: queue) :
    Good L (onStateUpdate L { s with queue := queue } n.data) := by
  have hrow : Row L n.data := h.queue n (by rw [hq]; exact List.mem_cons_self)
  have hlower : ServerJoin.LowerEntry L (updateEntry L dfltStFeat n.data) :=
    ServerJoin.lowerEntry_updateEntry (lowerEntry_dfltStFeat L) n.data
  have hfollows := h.follows
  rw [hq] at hfollows
  refine
    { db := h.db
      queue := fun m hm => h.queue m (by rw [hq]; exact List.mem_cons_of_mem _ hm)
      stData := hlower
      timers := ?_
      follows := ?_
      tagged := h.tagged
      cleaned := h.cleaned }
  · intro id ver hmem
    dsimp only [TagLatest.onStateUpdate] at hmem
    split at hmem
    · rcases List.mem_append.1 hmem with hmem | hmem
      · exact h.timers id ver hmem
      · obtain ⟨rfl, rfl⟩ := Timer.doTagLatest.inj (List.mem_singleton.1 hmem)
        exact hlower.lower_getD _
    · exact h.timers id ver hmem
  · show Follows (versions (updateEntry L dfltStFeat n.data)) queue (versions s.db)
    rw [versions_updateEntry hrow]
    exact hfollows.2

theorem Good.write {L : Lower} {s : State} (h : Good L s) {fields : Entry}
    (hf : LowerVersions L fields) : Good L (next L s (.write fields)) := by
  have hrow := h.db.setAll hf
  refine
    { db := hrow
      queue := ?_
      stData := h.stData
      timers := h.timers
      follows := follows_append h.follows versions_setAll
      tagged := h.tagged
      cleaned := h.cleaned }
  intro n hn
  rcases List.mem_append.1 hn with hn | hn
  · exact h.queue n hn
  · rw [List.mem_singleton.1 hn]
    exact hrow

/-- What is left out when a timer is taken out of the list. -/
theorem Good.eraseIdx {L : Lower} {s : State} (h : Good L s) (i : Nat) :
    Good L { s with timers := s.timers.eraseIdx i } :=
  { h with timers := fun id ver hmem => h.timers id ver (List.mem_of_mem_eraseIdx hmem) }

theorem mem_timers_doCleanImage {s : State} {cur last id ver : String} {ret : Int}
    (h : .doTagLatest id ver ∈ (doCleanImage s cur last ret).timers) :
    .doTagLatest id ver ∈ s.timers := by
  dsimp only [doCleanImage] at h
  split at h
  · rcases List.mem_append.1 h with h | h
    · exact h
    · simp at h
  · exact h

theorem cleaned_doCleanImage {s : State} {cur last : String} (ret : Int)
    (h : ∀ c ∈ s.cleaned, ∀ v ∈ c.tagged, ¬c.Removes v)
    (hkeep : ∀ v ∈ s.tagged, v = cur ∨ v = last) :
    ∀ c ∈ (doCleanImage s cur last ret).cleaned, ∀ v ∈ c.tagged, ¬c.Removes v := by
  intro c hc v hv
  rcases List.mem_cons.1 hc with rfl | hc
  · rintro ⟨hcur, hlast⟩
    rcases hkeep v hv with hv | hv
    · exact hcur hv
    · exact hlast hv
  · exact h c hc v hv

theorem Good.doCleanImage {L : Lower} {s : State} (h : Good L s) {cur last : String} (ret : Int)
    (hlast : s.lastClean = some (cur, last)) : Good L (doCleanImage s cur last ret) := by
  have hkeep : ∀ v ∈ s.tagged, v = cur ∨ v = last := by
    intro v hv
    obtain ⟨l, hl⟩ := h.tagged v hv
    exact Or.inl (Prod.mk.inj (Option.some.inj (hl.symm.trans hlast))).1
  exact
    { h with
      timers := fun id ver hmem => h.timers id ver (mem_timers_doCleanImage hmem)
      cleaned := cleaned_doCleanImage ret h.cleaned hkeep }

/-- The tagging that is recorded. -/
theorem Good.tagged_ok {L : Lower} {s : State} (h : Good L s) (id : String)
    {ver : String} (hver : L.lower ver = ver) (cleanRet : Int) (hup : UpToDate s)
    (hplace : InPlace s ver) : Good L (doTagLatest s id ver 0 cleanRet) := by
  have hlast := h.lower_lastVersion ver
  have hrow := (h.db.set (L.lower_ascii "container_stable_version" (by decide +kernel)) hver).set
    (L.lower_ascii "container_last_version" (by decide +kernel)) hlast
  have hkeep : ∀ v ∈ s.tagged, v = ver ∨ v = lastVersion s ver := by
    intro v hv
    rw [h.lastVersion_eq hup]
    rcases hplace v hv with rfl | rfl
    · exact Or.inl rfl
    · by_cases hstable : (versions s.db).1 = ver
      · exact Or.inl hstable
      · exact Or.inr (if_neg hstable).symm
  refine
    { db := hrow
      queue := fun n hn => ?_
      stData := h.stData
      timers := fun id' ver' hmem => h.timers id' ver' (mem_timers_doCleanImage hmem)
      follows := follows_append h.follows nofun
      tagged := fun v hv => ?_
      cleaned := cleaned_doCleanImage cleanRet h.cleaned hkeep }
  · rcases List.mem_append.1 hn with hn | hn
    · exact h.queue n hn
    · rw [List.mem_singleton.1 hn]
      exact hrow
  · obtain rfl := Option.some.inj hv
    exact ⟨_, rfl⟩

theorem Good.doTagLatest {L : Lower} {s : State} (h : Good L s) {id ver : String}
    (hver : L.lower ver = ver) (ret cleanRet : Int) (hup : ret = 0 → UpToDate s ∧ InPlace s ver) :
    Good L (doTagLatest s id ver ret cleanRet) := by
  unfold TagLatest.doTagLatest
  split_ifs with hbusy hret
  · refine { h with timers := fun id' ver' hmem => ?_ }
    rcases List.mem_append.1 hmem with hmem | hmem
    · exact h.timers id' ver' hmem
    · obtain ⟨rfl, rfl⟩ := Timer.doTagLatest.inj (List.mem_singleton.1 hmem)
      exact hver
  · subst hret
    exact h.tagged_ok id hver cleanRet (hup rfl).1 (hup rfl).2
  · exact h

theorem Good.next {L : Lower} {s : State} (h : Good L s) {e : Event} (hok : Ok L s e) :
    Good L (next L s e) := by
  cases e with
  | write fields => exact h.write hok
  | deliver =>
    rw [TagLatest.next]
    cases hq : s.queue with
    | nil => exact h
    | cons n queue => exact h.onStateUpdate hq
  | timer i ret cleanRet =>
    rw [TagLatest.next]
    cases ht : s.timers[i]? with
    | none => exact h
    | some t =>
      have htimer := hok t ht
      cases t with
      | doTagLatest id ver =>
        have hver := h.timers id ver (List.mem_of_getElem? ht)
        exact (h.eraseIdx i).doTagLatest hver ret cleanRet htimer
      | doCleanImage cur last => exact (h.eraseIdx i).doCleanImage cleanRet htimer

theorem good_start {L : Lower} {db : Entry} (hdb : Row L db) : Good L (start db) := by
  refine
    { db := hdb
      queue := ?_
      stData := nofun
      timers := nofun
      follows := ?_
      tagged := nofun
      cleaned := nofun }
  · intro n hn
    dsimp only [start] at hn
    split at hn
    · simp at hn
    · rw [List.mem_singleton.1 hn]
      exact hdb
  · dsimp only [start]
    split_ifs with hnil
    · rw [hnil]
      rfl
    · exact ⟨nofun, rfl⟩

/-- Every tagging records the new version and the former stable one, and no clean up removes the
    version that was tagged just before. -/
theorem tag_of_run {L : Lower} {db : Entry} (hdb : Row L db) {es : List Event} {s : State}
    (hrun : Run (Step L) (Ok L) (start db) es s) :
    (∀ c ∈ s.cleaned, ∀ v ∈ c.tagged, ¬c.Removes v) ∧
      ∀ i cleanRet id ver, s.timers[i]? = some (.doTagLatest id ver) → UpToDate s →
        versions (next L s (.timer i 0 cleanRet)).db =
          (ver, if (versions s.db).1 ≠ ver then (versions s.db).1 else (versions s.db).2) := by
  have hgood : Good L s := by
    refine hrun.invariant ?_ (good_start hdb)
    rintro s e s' h hok rfl
    exact h.next hok
  refine ⟨hgood.cleaned, fun i cleanRet id ver ht hup => ?_⟩
  have hlast : lastVersion { s with timers := s.timers.eraseIdx i } ver =
      if (versions s.db).1 = ver then (versions s.db).2 else (versions s.db).1 :=
    hgood.lastVersion_eq hup ver
  rw [next, ht]
  exact (versions_set _ _ _).trans (by rw [hlast, ite_not])

/-! ## Two taggings -/

theorem step_next (s : State) (e : Event) (s' : State)
    (h : some (next ServerJoin.asciiLower s e) = some s') : Step ServerJoin.asciiLower s e s' :=
  (Option.some.inj h).symm

/-- A deployed container reports that it runs. -/
def running (id version : String) : Event :=
  .write [("remote_state", "running"), ("container_id", id), ("container_version", version)]

/-- Two versions come up one after the other, and then the first is tagged. -/
def twoVersions : List Event :=
  [.deliver, running "d2" "v2", .deliver, .write [("remote_state", "pending")], .deliver,
    running "d3" "v3", .deliver, .timer 0 0 0]

def v1Stable : Entry := [("container_stable_version", "v1")]

/-- With the notification of the first tagging the second keeps the version. -/
theorem tag_second :
    ∃ s, Run (Step ServerJoin.asciiLower) (Ok ServerJoin.asciiLower) (start v1Stable)
        (twoVersions ++ [.deliver]) s ∧
      versions s.db = ("v2", "v1") ∧
      versions (next ServerJoin.asciiLower s (.timer 0 0 0)).db = ("v3", "v2") := by
  refine exists_run_imp step_next (fun s => versions s.db = ("v2", "v1") ∧
    s.timers[0]? = some (.doTagLatest "d3" "v3") ∧ UpToDate s) (by decide +kernel) ?_
  rintro s hrun ⟨hdb, ht, hup⟩
  have hrow : Row ServerJoin.asciiLower v1Stable := ⟨by decide, by decide +kernel⟩
  have hnext := (tag_of_run hrow hrun).2 0 0 "d3" "v3" ht hup
  rw [hdb] at hnext
  exact ⟨hdb, hnext⟩

/-- Without it the second tagging takes the last version from an old copy, and the version tagged
    just before is removed. -/
theorem tag_forgets :
    ∃ s, Run (Step ServerJoin.asciiLower) (fun _ _ => True) (start v1Stable) twoVersions s ∧
      versions s.db = ("v2", "v1") ∧
      versions (next ServerJoin.asciiLower s (.timer 0 0 0)).db = ("v3", "v1") ∧
      ∃ c ∈ (next ServerJoin.asciiLower s (.timer 0 0 0)).cleaned,
        c.tagged = some "v2" ∧ c.Removes "v2" :=
  exists_run step_next (by decide +kernel)

end SonicBuildimage.Ctrmgrd.TagLatest
