/-
  Prefix lists: the rows of PREFIX_SET and PREFIX in `__update_bgp`, MatchPrefix and
  MatchPrefixList of frrcfgd.py.

  Model.  A row of PREFIX has the name of the set, the prefix and the range of lengths as its key
  and an action; the daemon keeps the action that it has applied for every key, and for every set
  the list of entries.  FRR is the set of the lines of all prefix lists.  Commands succeed.  What
  the texts of addresses and numbers stand for is a parameter (`Env`).  An exception ends the
  handling of its message, since `sub_msg_handler` catches it, and what was done before stays.
  `Db` holds the rows as they are in CONFIG_DB; the daemon does not read it.

  Rows are keyed by their text, but an entry is looked up by its normalised prefix and range,
  without the action.  If two rows of a set stand for one entry, the deletion of one takes the line
  of the other out of FRR (`entry_of_other_row`).

  Proved: `prefixLists_of_run`.  In every run in which a row comes after its set, a set keeps its
  mode, a set is deleted without rows, and a row is changed or deleted only while no other row of
  the set stands for the same entry, FRR holds exactly the lines of the rows, and so does the
  daemon.
-/
import SonicBuildimage.Frrcfgd.Tables
import SonicBuildimage.Lib.PyStr
import SonicBuildimage.Lib.Run

namespace SonicBuildimage.Frrcfgd.PrefixLists

open SonicBuildimage.Lib

/-! ## Entries -/

/-- Python exceptions: `ValueError`, which `normalize_ip_prefix` catches, and others. -/
inductive Err where
  | value
  | other

structure Env where
  /-- `int(text)` -/
  int : String → Option Int
  /-- `__get_ip_af` -/
  getIpAf : String → Option Af
  /-- `socket.inet_ntop(af, netaddr.IPNetwork('%s/%d' % (ip, len)).cidr.ip.packed)`: netaddr raises
      an error of its own, `inet_ntop` a `ValueError` for the other family -/
  network : Af → String → Int → Except Err String

/-- `MatchPrefix` without the action: what `__eq__` compares. -/
structure Match where
  ip : String
  len : Int
  minLen : Option Int
  maxLen : Option Int
  deriving DecidableEq

/-- `MatchPrefix` -/
structure MatchPrefix where
  key : Match
  action : String
  deriving DecidableEq

/-- A line of a prefix list, `__str__`. -/
structure Line where
  action : String
  key : Match
  deriving DecidableEq

def Line.text (l : Line) : String :=
  l.action ++ " " ++ l.key.ip ++ "/" ++ toString l.key.len ++
    (match l.key.minLen with
      | some n => " ge " ++ toString n
      | none => "") ++
    (match l.key.maxLen with
      | some n => " le " ++ toString n
      | none => "")

def MatchPrefix.line (p : MatchPrefix) : Line := ⟨p.action.toLower, p.key⟩

def maxLen : Af → Int
  | .inet => 32
  | .inet6 => 128

/-- `normalize_ip_prefix`, with the address and the length apart -/
def normalizeIpPrefix (env : Env) (af : Af) (ipPrefix : String) : Except Err (String × Int) :=
  match split '/' ipPrefix with
  | ip :: mask :: _ =>
    match env.int mask with
    | none => .error .value
    | some len => (env.network af ip len).map fun ip => (ip, len)
  | _ => .ok (ipPrefix, maxLen af)

/-- `min_len, max_len = len_range.split('..')` -/
def parseRange (env : Env) (lenRange : String) : Option (Int × Int) :=
  match splitOnce ".." lenRange with
  | none => none
  | some (lo, hi) =>
    if splitOnce ".." hi = none then
      match env.int lo, env.int hi with
      | some lo, some hi => some (lo, hi)
      | _, _ => none
    else none

/-- `MatchPrefix.__init__`, but for the action -/
def matchOf (env : Env) (af : Af) (ipPfx range : String) : Except Err Match :=
  match normalizeIpPrefix env af ipPfx with
  | .error e => .error e
  | .ok (ip, len) =>
    if range = "exact" then .ok ⟨ip, len, none, none⟩
    else
      match parseRange env range with
      | none => .error .value
      | some (lo, hi) =>
        if lo ≤ len then .ok ⟨ip, len, none, some hi⟩
        else if hi = maxLen af then .ok ⟨ip, len, some lo, none⟩
        else .ok ⟨ip, len, some lo, some hi⟩

/-! ## The daemon -/

/-- `MatchPrefixList` with a mode -/
structure MatchPrefixList where
  af : Af
  entries : List MatchPrefix

/-- The key of a row of PREFIX. -/
structure RowKey where
  set : String
  ipPfx : String
  range : String
  deriving DecidableEq

structure Daemon where
  prefixSetList : Dict String MatchPrefixList
  /-- the actions in `table_data_cache` -/
  cache : Dict RowKey String

/-- A line of FRR with the kind and the name of its list. -/
abbrev FrrLine := Af × String × Line

structure State where
  daemon : Daemon
  frr : List FrrLine

/-- `{ip|ipv6} prefix-list {} {}` -/
def addLine (frr : List FrrLine) (l : FrrLine) : List FrrLine := setAdd frr l

/-- `no {ip|ipv6} prefix-list {} {}` -/
def removeLine (frr : List FrrLine) (l : FrrLine) : List FrrLine := setDiscard frr l

/-- The operation of `__add_op_to_data` for the action, with its data. -/
def opOf (cached new : Option String) : Option (String × Op) :=
  match new, cached with
  | some v, some c => some (v, if v = c then .none else .update)
  | some v, none => some (v, .add)
  | none, some c => some (c, .delete)
  | none, none => none

def setEntries (s : State) (name : String) (l : MatchPrefixList) (entries : List MatchPrefix) :
    State :=
  { s with
    daemon := { s.daemon with
      prefixSetList := s.daemon.prefixSetList.set name { l with entries := entries } } }

/-- The part of a row of PREFIX that deletes the entry; `none` if it is not there, or for an
    exception. -/
def deleteEntry (env : Env) (s : State) (k : RowKey) (l : MatchPrefixList) :
    Option (State × MatchPrefixList) :=
  match matchOf env l.af k.ipPfx k.range with
  | .error _ => none
  | .ok m =>
    match l.entries.find? (·.key = m) with
    | none => none
    | some delPfx =>
      let entries := l.entries.eraseP (·.key = m)
      some ({ setEntries s k.set l entries with
        frr := removeLine s.frr (l.af, k.set, delPfx.line) }, { l with entries := entries })

/-- The part that adds the entry; `none` for an exception. -/
def addEntry (env : Env) (s : State) (k : RowKey) (l : MatchPrefixList) (action : String) :
    Option State :=
  if env.getIpAf k.ipPfx ≠ some l.af then none
  else
    match matchOf env l.af k.ipPfx k.range with
    -- a `ValueError` is caught here, and the error of netaddr by `sub_msg_handler`
    | .error _ => none
    | .ok m =>
      let addPfx : MatchPrefix := ⟨m, action⟩
      some { setEntries s k.set l (l.entries ++ [addPfx]) with
        frr := addLine s.frr (l.af, k.set, addPfx.line) }

/-- What is kept of a row that has been applied, `__update_cache_data`. -/
def updateCache (s : State) (k : RowKey) (action : String) (op : Op) : State :=
  { s with
    daemon := { s.daemon with
      cache :=
        match op with
        | .none => s.daemon.cache
        | .delete => s.daemon.cache.erase k
        | _ => s.daemon.cache.set k action } }

/-- A row of PREFIX with its action, `none` for a row that is deleted or has no action. -/
def updatePrefix (env : Env) (s : State) (k : RowKey) (action : Option String) : State :=
  match s.daemon.prefixSetList.get? k.set with
  | none => s
  | some l =>
    match opOf (s.daemon.cache.get? k) action with
    | none => s
    | some (_, .none) => s
    | some (data, .add) =>
      match addEntry env s k l data with
      | none => s
      | some s => updateCache s k data .add
    | some (data, .delete) =>
      match deleteEntry env s k l with
      | none => s
      | some (s, _) => updateCache s k data .delete
    | some (data, .update) =>
      match deleteEntry env s k l with
      | none => s
      | some (s, l) =>
        match addEntry env s k l data with
        | none => s
        | some s => updateCache s k data .update

def afOfMode (mode : String) : Af := if mode.toLower = "ipv4" then .inet else .inet6

/-- A row of PREFIX_SET with its mode. -/
def setPrefixSet (s : State) (name : String) (mode : Option String) : State :=
  match s.daemon.prefixSetList.get? name, mode with
  | none, some mode =>
    { s with
      daemon := { s.daemon with
        prefixSetList := s.daemon.prefixSetList.set name ⟨afOfMode mode, []⟩ } }
  | _, _ => s

def deletePrefixSet (s : State) (name : String) : State :=
  { s with
    daemon := { s.daemon with prefixSetList := s.daemon.prefixSetList.erase name } }

/-! ## Messages -/

inductive Event where
  | setPrefixSet (name : String) (mode : Option String)
  | delPrefixSet (name : String)
  | setPrefix (k : RowKey) (action : Option String)
  | delPrefix (k : RowKey)

/-- CONFIG_DB: the sets with a mode, and the rows with an action. -/
structure Db where
  sets : Dict String Af
  rows : Dict RowKey String

/-- A row without an action is as good as none. -/
def Db.setRow (db : Db) (k : RowKey) : Option String → Db
  | some action => { db with rows := db.rows.set k action }
  | none => { db with rows := db.rows.erase k }

def Db.apply (db : Db) : Event → Db
  | .setPrefixSet name mode =>
    match mode with
    | some mode => { db with sets := db.sets.set name (afOfMode mode) }
    | none => { db with sets := db.sets.erase name }
  | .delPrefixSet name => { db with sets := db.sets.erase name }
  | .setPrefix k action => db.setRow k action
  | .delPrefix k => db.setRow k none

structure Sys where
  db : Db
  state : State

def handle (env : Env) (s : State) : Event → State
  | .setPrefixSet name mode => setPrefixSet s name mode
  | .delPrefixSet name => deletePrefixSet s name
  | .setPrefix k action => updatePrefix env s k action
  | .delPrefix k => updatePrefix env s k none

def next (env : Env) (s : Sys) (e : Event) : Option Sys :=
  some ⟨s.db.apply e, handle env s.state e⟩

def Step (env : Env) (s : Sys) (e : Event) (s' : Sys) : Prop := next env s e = some s'

def start : Sys := ⟨⟨[], []⟩, ⟨⟨[], []⟩, []⟩⟩

/-! ## What is expected -/

/-- The entry that a row stands for in a set of the family. -/
def entryOf (env : Env) (af : Af) (row : RowKey × String) : Option MatchPrefix :=
  if env.getIpAf row.1.ipPfx = some af then
    match matchOf env af row.1.ipPfx row.1.range with
    | .ok m => some ⟨m, row.2⟩
    | .error _ => none
  else none

/-- The lines that the rows of CONFIG_DB stand for. -/
def Db.Wants (env : Env) (db : Db) (l : FrrLine) : Prop :=
  ∃ row ∈ db.rows, row.1.set = l.2.1 ∧ db.sets.get? l.2.1 = some l.1 ∧
    ∃ p ∈ entryOf env l.1 row, p.line = l.2.2

/-- The lines of the entries of the daemon. -/
def Daemon.Holds (d : Daemon) (l : FrrLine) : Prop :=
  ∃ s, d.prefixSetList.get? l.2.1 = some s ∧ s.af = l.1 ∧ ∃ p ∈ s.entries, p.line = l.2.2

/-- No other row of the set stands for the same entry. -/
def Alone (env : Env) (db : Db) (k : RowKey) : Prop :=
  ∀ af ∈ db.sets.get? k.set, ∀ row ∈ db.rows, row.1.set = k.set → row.1 ≠ k →
    ∀ m ∈ (matchOf env af k.ipPfx k.range).toOption, ∀ p ∈ entryOf env af row, p.key ≠ m

/-- A row comes after its set and is changed or deleted while it is alone; a set keeps its mode
    and is deleted without rows. -/
def Ok (env : Env) (s : Sys) : Event → Prop
  | .setPrefixSet name mode => ∀ af ∈ s.db.sets.get? name, mode.map afOfMode = some af
  | .delPrefixSet name => ∀ row ∈ s.db.rows, row.1.set ≠ name
  | .setPrefix k action =>
    s.db.sets.get? k.set ≠ none ∧
      (s.db.rows.get? k ≠ none → s.db.rows.get? k ≠ action → Alone env s.db k)
  | .delPrefix k => s.db.rows.get? k ≠ none → Alone env s.db k

instance (env : Env) (db : Db) (l : FrrLine) : Decidable (db.Wants env l) :=
  inferInstanceAs (Decidable (∃ row ∈ db.rows, _))

instance (env : Env) (db : Db) (k : RowKey) : Decidable (Alone env db k) :=
  inferInstanceAs (Decidable (∀ af ∈ db.sets.get? k.set, _))

instance (env : Env) (s : Sys) (e : Event) : Decidable (Ok env s e) :=
  match e with
  | .setPrefixSet name _ => inferInstanceAs (Decidable (∀ af ∈ s.db.sets.get? name, _))
  | .delPrefixSet _ => inferInstanceAs (Decidable (∀ row ∈ s.db.rows, _))
  | .setPrefix _ _ => inferInstanceAs (Decidable (_ ∧ _))
  | .delPrefix _ => inferInstanceAs (Decidable (_ → _))

/-! ## Lists of entries -/

/-- FRR and the daemon hold the entries `E`, set by set. -/
structure Tracks (s : State) (afs : String → Option Af) (E : String → List MatchPrefix) : Prop where
  sets : ∀ name, (s.daemon.prefixSetList.get? name).map (·.af) = afs name
  entries : ∀ name l, s.daemon.prefixSetList.get? name = some l → l.entries.Perm (E name)
  frr : ∀ l, l ∈ s.frr ↔ s.daemon.Holds l

theorem Tracks.congr {s : State} {afs : String → Option Af} {E E' : String → List MatchPrefix}
    (h : Tracks s afs E) (hE : ∀ name, (E name).Perm (E' name)) : Tracks s afs E' :=
  { h with entries := fun name l hl => (h.entries name l hl).trans (hE name) }

/-- The cache is not looked at. -/
theorem Tracks.updateCache {s : State} {afs : String → Option Af} {E : String → List MatchPrefix}
    (h : Tracks s afs E) (k : RowKey) (action : String) (op : Op) :
    Tracks (updateCache s k action op) afs E :=
  { sets := h.sets, entries := h.entries, frr := h.frr }

theorem get?_setEntries (s : State) (name n : String) (l : MatchPrefixList)
    (es : List MatchPrefix) : (setEntries s name l es).daemon.prefixSetList.get? n =
      if name = n then some { l with entries := es } else s.daemon.prefixSetList.get? n :=
  Dict.get?_set _ _ _ _

/-- One list is replaced, with its lines in FRR. -/
theorem Tracks.replace {s : State} {afs : String → Option Af} {E : String → List MatchPrefix}
    (h : Tracks s afs E) {name : String} {l : MatchPrefixList}
    (hl : s.daemon.prefixSetList.get? name = some l) {es es' : List MatchPrefix}
    {frr : List FrrLine} (hes : es.Perm es')
    (hfrr : ∀ x, x ∈ frr ↔
      if x.1 = l.af ∧ x.2.1 = name then ∃ p ∈ es, p.line = x.2.2 else x ∈ s.frr) :
    Tracks { setEntries s name l es with frr := frr } afs
      (fun n => if n = name then es' else E n) := by
  refine ⟨fun n => ?_, fun n l' hl' => ?_, fun x => ?_⟩
  · show ((setEntries s name l es).daemon.prefixSetList.get? n).map (·.af) = afs n
    rw [get?_setEntries, ← h.sets]
    by_cases hn : name = n
    · rw [if_pos hn, ← hn, hl]
      rfl
    · rw [if_neg hn]
  · replace hl' : (setEntries s name l es).daemon.prefixSetList.get? n = some l' := hl'
    rw [get?_setEntries] at hl'
    by_cases hn : name = n
    · rw [if_pos hn] at hl'
      obtain rfl := Option.some.inj hl'
      rw [if_pos hn.symm]
      exact hes
    · rw [if_neg hn] at hl'
      rw [if_neg (Ne.symm hn)]
      exact h.entries n l' hl'
  · show x ∈ frr ↔ (setEntries s name l es).daemon.Holds x
    obtain ⟨af, n, line⟩ := x
    unfold Daemon.Holds
    simp only [get?_setEntries, hfrr]
    by_cases hn : name = n
    · subst hn
      simp only [if_true, and_true, Option.some.injEq, exists_eq_left']
      by_cases haf : af = l.af
      · simp [haf]
      · -- the other family has no list of this name
        simp only [haf, if_false, Ne.symm haf, false_and, iff_false, h.frr]
        rintro ⟨l', hl', haf', -⟩
        rw [hl] at hl'
        obtain rfl := Option.some.inj hl'
        exact haf haf'.symm
    · rw [if_neg hn, if_neg fun hand => hn hand.2.symm, h.frr]
      rfl

theorem mem_frr_iff {s : State} {afs : String → Option Af} {E : String → List MatchPrefix}
    (h : Tracks s afs E) {name : String} {l : MatchPrefixList}
    (hl : s.daemon.prefixSetList.get? name = some l) (line : Line) :
    (l.af, name, line) ∈ s.frr ↔ ∃ p ∈ l.entries, p.line = line := by
  rw [h.frr]
  unfold Daemon.Holds
  simp [hl]

/-- An entry is put behind the others. -/
theorem Tracks.add {s : State} {afs : String → Option Af} {E : String → List MatchPrefix}
    (h : Tracks s afs E) {name : String} {l : MatchPrefixList}
    (hl : s.daemon.prefixSetList.get? name = some l) (p : MatchPrefix) :
    Tracks { setEntries s name l (l.entries ++ [p]) with
        frr := addLine s.frr (l.af, name, p.line) } afs
      (fun n => if n = name then E name ++ [p] else E n) := by
  refine h.replace hl ((h.entries name l hl).append_right [p]) ?_
  rintro ⟨af, n, line⟩
  rw [addLine, mem_setAdd]
  by_cases hx : af = l.af ∧ n = name
  · obtain ⟨rfl, rfl⟩ := hx
    rw [if_pos ⟨rfl, rfl⟩, mem_frr_iff h hl]
    simp [List.mem_append, or_and_right, exists_or, eq_comm]
  · rw [if_neg hx]
    refine or_iff_left ?_
    rintro heq
    obtain ⟨rfl, h2⟩ := Prod.mk.inj heq
    exact hx ⟨rfl, (Prod.mk.inj h2).1⟩

/-- The only element that satisfies `q` is taken out. -/
theorem eraseP_perm {α : Type} {q : α → Bool} {l rest : List α} {x : α} (h : l.Perm (x :: rest))
    (hx : q x = true) (hrest : ∀ y ∈ rest, q y = false) :
    l.find? q = some x ∧ (l.eraseP q).Perm rest := by
  obtain ⟨l₁, l₂, rfl⟩ := List.append_of_mem (h.mem_iff.2 List.mem_cons_self)
  have hperm : (l₁ ++ l₂).Perm rest := (List.perm_middle.symm.trans h).cons_inv
  have hl₁ : ∀ y ∈ l₁, q y = false := fun y hy =>
    hrest y (hperm.mem_iff.1 (List.mem_append_left _ hy))
  constructor
  · rw [List.find?_append, List.find?_eq_none.2 fun y hy => by simp [hl₁ y hy]]
    simp [hx]
  · rw [List.eraseP_append_right _ fun y hy => by simp [hl₁ y hy], List.eraseP_cons_of_pos hx]
    exact hperm

/-- The entry of a row that is alone is deleted. -/
theorem Tracks.delete {env : Env} {s : State} {afs : String → Option Af}
    {E : String → List MatchPrefix} (h : Tracks s afs E) {k : RowKey} {l : MatchPrefixList}
    (hl : s.daemon.prefixSetList.get? k.set = some l) {m : Match} {action : String}
    (hm : matchOf env l.af k.ipPfx k.range = .ok m) {rest : List MatchPrefix}
    (hE : (E k.set).Perm (⟨m, action⟩ :: rest)) (hrest : ∀ p ∈ rest, p.key ≠ m) :
    ∃ s' l', deleteEntry env s k l = some (s', l') ∧
      s'.daemon.prefixSetList.get? k.set = some l' ∧ l'.af = l.af ∧
      s'.daemon.cache = s.daemon.cache ∧
      Tracks s' afs (fun n => if n = k.set then rest else E n) := by
  have hperm := (h.entries k.set l hl).trans hE
  obtain ⟨hfind, herase⟩ := eraseP_perm (q := fun p => decide (p.key = m)) hperm (by simp)
    fun p hp => by simp [hrest p hp]
  unfold deleteEntry
  rw [hm]
  simp only [hfind]
  refine ⟨_, _, rfl, ?_, rfl, rfl, h.replace hl herase ?_⟩
  · exact (get?_setEntries _ _ _ _ _).trans (if_pos rfl)
  · rintro ⟨af, n, line⟩
    rw [removeLine, mem_setDiscard]
    by_cases hx : af = l.af ∧ n = k.set
    · obtain ⟨rfl, rfl⟩ := hx
      rw [if_pos ⟨rfl, rfl⟩, mem_frr_iff h hl]
      constructor
      · rintro ⟨⟨p, hp, hline⟩, hne⟩
        refine ⟨p, herase.mem_iff.2 ?_, hline⟩
        rcases List.mem_cons.1 (hperm.mem_iff.1 hp) with rfl | hp
        · exact absurd (by rw [← hline]) hne
        · exact hp
      · rintro ⟨p, hp, hline⟩
        have hp := herase.mem_iff.1 hp
        refine ⟨⟨p, hperm.mem_iff.2 (List.mem_cons_of_mem _ hp), hline⟩, ?_⟩
        intro heq
        have hkey : p.key = m := by
          rw [Prod.mk.injEq, Prod.mk.injEq] at heq
          have := hline.trans heq.2.2
          exact congrArg Line.key this
        exact hrest p hp hkey
    · rw [if_neg hx]
      refine and_iff_left ?_
      rintro heq
      obtain ⟨rfl, h2⟩ := Prod.mk.inj heq
      exact hx ⟨rfl, (Prod.mk.inj h2).1⟩

/-! ## Rows -/

/-- The entries of the rows of a set. -/
def Db.entries (env : Env) (db : Db) (name : String) : List MatchPrefix :=
  match db.sets.get? name with
  | some af => (db.rows.filter fun row => row.1.set = name).filterMap (entryOf env af)
  | none => []

theorem sets_setRow (db : Db) (k : RowKey) (action : Option String) :
    (db.setRow k action).sets = db.sets := by
  cases action with
  | none => rfl
  | some a => rfl

theorem get?_setRow (db : Db) (k k' : RowKey) (action : Option String) :
    (db.setRow k action).rows.get? k' = if k = k' then action else db.rows.get? k' := by
  cases action with
  | none => exact Dict.get?_erase _ _ _
  | some a => exact Dict.get?_set _ _ _ _

theorem rows_setRow_nodup {db : Db} (h : db.rows.keys.Nodup) (k : RowKey) (action : Option String) :
    (db.setRow k action).rows.keys.Nodup := by
  cases action with
  | none => exact Dict.keys_filter_nodup h _
  | some a => exact Dict.keys_set_nodup h _ _

/-- Nothing changes for the other sets. -/
theorem entries_setRow_ne (env : Env) (db : Db) {k : RowKey} (action : Option String)
    {name : String} (hn : name ≠ k.set) :
    (db.setRow k action).entries env name = db.entries env name := by
  let p : RowKey → Bool := fun r => decide (r.set = name)
  have hp : p k = false := decide_eq_false (Ne.symm hn)
  unfold Db.entries
  rw [sets_setRow]
  cases db.sets.get? name with
  | none => rfl
  | some af =>
    cases action with
    | none => exact congrArg _ (Dict.filter_erase_of_not (p := p) hp _)
    | some a => exact congrArg _ (Dict.filter_set_of_not (p := p) hp _ _)

/-- The entry of a row stands beside those of the other rows. -/
theorem entries_setRow_self (env : Env) {db : Db} (hrows : db.rows.keys.Nodup) {k : RowKey}
    {af : Af} (haf : db.sets.get? k.set = some af) (action : String) :
    ((db.setRow k (some action)).entries env k.set).Perm
      ((entryOf env af (k, action)).toList ++ (db.setRow k none).entries env k.set) := by
  have hperm := ((Dict.set_perm hrows k action).filter fun row => row.1.set = k.set).filterMap
    (entryOf env af)
  rw [List.filter_cons_of_pos (by simp), List.filterMap_cons] at hperm
  unfold Db.entries
  rw [sets_setRow, sets_setRow, haf]
  refine hperm.trans (List.Perm.of_eq ?_)
  cases entryOf env af (k, action) with
  | none => rfl
  | some p => rfl

theorem setRow_of_get? {db : Db} {k : RowKey} {action : Option String}
    (h : db.rows.get? k = action) : db.setRow k action = db := by
  cases action with
  | none => rw [Db.setRow, Dict.erase_of_get?_none h]
  | some a => rw [Db.setRow, Dict.set_of_get? h]

/-! ## The invariant -/

structure Good (env : Env) (s : Sys) : Prop where
  tracks : Tracks s.state s.db.sets.get? (s.db.entries env)
  rows : s.db.rows.keys.Nodup
  rowsSets : ∀ row ∈ s.db.rows, s.db.sets.get? row.1.set ≠ none
  cache : ∀ k a, s.state.daemon.cache.get? k = some a ↔
    s.db.rows.get? k = some a ∧ ∃ af ∈ s.db.sets.get? k.set, (entryOf env af (k, a)).isSome

/-- A row that stands for an entry in a set of this family. -/
def Fits (env : Env) (af : Af) (k : RowKey) (m : Match) : Prop :=
  env.getIpAf k.ipPfx = some af ∧ matchOf env af k.ipPfx k.range = .ok m

theorem entryOf_fits {env : Env} {af : Af} {k : RowKey} {m : Match} (h : Fits env af k m)
    (a : String) : entryOf env af (k, a) = some ⟨m, a⟩ := by
  unfold entryOf
  rw [if_pos h.1, h.2]

theorem entryOf_not_fits {env : Env} {af : Af} {k : RowKey} (h : ∀ m, ¬Fits env af k m)
    (a : String) : entryOf env af (k, a) = none := by
  unfold entryOf
  by_cases haf : env.getIpAf k.ipPfx = some af
  · rw [if_pos haf]
    cases hm : matchOf env af k.ipPfx k.range with
    | error e => rfl
    | ok m => exact absurd ⟨haf, hm⟩ (h m)
  · rw [if_neg haf]

section Row

variable {env : Env} {s : Sys} {k : RowKey} {l : MatchPrefixList}

theorem Good.af (h : Good env s) (hl : s.state.daemon.prefixSetList.get? k.set = some l) :
    s.db.sets.get? k.set = some l.af := by
  rw [← h.tracks.sets, hl]
  rfl

/-- The daemon has applied the action of a row that fits. -/
theorem Good.cache_fits (h : Good env s)
    (hl : s.state.daemon.prefixSetList.get? k.set = some l) {m : Match} (hm : Fits env l.af k m) :
    s.state.daemon.cache.get? k = s.db.rows.get? k := by
  refine Option.ext fun a => ?_
  rw [h.cache]
  refine and_iff_left ⟨l.af, h.af hl, ?_⟩
  rw [entryOf_fits hm]
  rfl

theorem Good.cache_not_fits (h : Good env s)
    (hl : s.state.daemon.prefixSetList.get? k.set = some l) (hm : ∀ m, ¬Fits env l.af k m) :
    s.state.daemon.cache.get? k = none := by
  refine Option.eq_none_iff_forall_not_mem.2 fun a ha => ?_
  obtain ⟨-, af, haf, hsome⟩ := (h.cache k a).1 ha
  obtain rfl := Option.some.inj ((h.af hl).symm.trans haf)
  rw [entryOf_not_fits hm] at hsome
  simp at hsome

/-- The invariant after a row, from its parts. -/
theorem Good.setRow (h : Good env s) (hset : s.db.sets.get? k.set ≠ none) {action : Option String}
    {state : State} (htracks : Tracks state s.db.sets.get? ((s.db.setRow k action).entries env))
    (hcache : ∀ k' a, state.daemon.cache.get? k' = some a ↔
      (if k = k' then action else s.db.rows.get? k') = some a ∧
        ∃ af ∈ s.db.sets.get? k'.set, (entryOf env af (k', a)).isSome) :
    Good env ⟨s.db.setRow k action, state⟩ := by
  refine ⟨?_, rows_setRow_nodup h.rows k action, ?_, ?_⟩
  · rw [sets_setRow]
    exact htracks
  · intro row hrow
    rw [sets_setRow]
    have hget := (Dict.get?_eq_some_iff (rows_setRow_nodup h.rows k action)).2 hrow
    rw [get?_setRow] at hget
    by_cases hk : k = row.1
    · rw [← hk]
      exact hset
    · rw [if_neg hk] at hget
      exact h.rowsSets _ (Dict.mem_of_get? hget)
  · intro k' a
    rw [sets_setRow, get?_setRow]
    exact hcache k' a

/-- An entry that fits is added to those of the other rows. -/
theorem addEntry_fits {state : State} {l : MatchPrefixList} {m : Match}
    (hl : state.daemon.prefixSetList.get? k.set = some l) (hm : Fits env l.af k m) (action : String)
    {db : Db} (hrows : db.rows.keys.Nodup) (haf : db.sets.get? k.set = some l.af)
    (h : Tracks state db.sets.get? ((db.setRow k none).entries env)) :
    ∃ state', addEntry env state k l action = some state' ∧
      state'.daemon.cache = state.daemon.cache ∧
      Tracks state' db.sets.get? ((db.setRow k (some action)).entries env) := by
  unfold addEntry
  rw [if_neg (not_not.2 hm.1), hm.2]
  refine ⟨_, rfl, rfl, (h.add hl ⟨m, action⟩).congr fun name => ?_⟩
  by_cases hn : name = k.set
  · subst hn
    rw [if_pos rfl]
    have hperm := entries_setRow_self env hrows haf action
    rw [entryOf_fits hm] at hperm
    exact (List.perm_append_singleton _ _).trans hperm.symm
  · rw [if_neg hn, entries_setRow_ne env db none hn, entries_setRow_ne env db (some action) hn]

/-- The entries of the other rows differ from that of a row that is alone. -/
theorem Alone.entries {db : Db} (h : Alone env db k) {af : Af} (haf : db.sets.get? k.set = some af)
    {m : Match} (hm : Fits env af k m) : ∀ p ∈ (db.setRow k none).entries env k.set, p.key ≠ m := by
  intro p hp
  rw [Db.entries, sets_setRow, haf] at hp
  obtain ⟨row, hrow, hentry⟩ := List.mem_filterMap.1 hp
  obtain ⟨hrow, hset⟩ := List.mem_filter.1 hrow
  obtain ⟨hrow, hne⟩ := List.mem_filter.1 hrow
  have hmem : m ∈ (matchOf env af k.ipPfx k.range).toOption := by
    rw [hm.2]
    rfl
  exact h af haf row hrow (of_decide_eq_true hset) (of_decide_eq_true hne) m hmem p hentry

/-- The entry of a row that fits and is alone is deleted. -/
theorem Good.deleteEntry_fits (h : Good env s)
    (hl : s.state.daemon.prefixSetList.get? k.set = some l) {m : Match} (hm : Fits env l.af k m)
    {c : String} (hc : s.db.rows.get? k = some c) (halone : Alone env s.db k) :
    ∃ state l', deleteEntry env s.state k l = some (state, l') ∧
      state.daemon.prefixSetList.get? k.set = some l' ∧ l'.af = l.af ∧
      state.daemon.cache = s.state.daemon.cache ∧
      Tracks state s.db.sets.get? ((s.db.setRow k none).entries env) := by
  have haf := h.af hl
  have hperm := entries_setRow_self env h.rows haf c
  rw [entryOf_fits hm, setRow_of_get? hc] at hperm
  have hrest := halone.entries haf hm
  obtain ⟨state, l', hdel, hl', haf', hcache, htracks⟩ := h.tracks.delete hl hm.2 hperm hrest
  refine ⟨state, l', hdel, hl', haf', hcache, htracks.congr fun name => ?_⟩
  by_cases hn : name = k.set
  · rw [if_pos hn, hn]
    exact List.Perm.refl _
  · rw [if_neg hn, entries_setRow_ne env s.db none hn]

/-- The cache after a row that fits. -/
theorem Good.cache_set (h : Good env s) (hl : s.state.daemon.prefixSetList.get? k.set = some l)
    {m : Match} (hm : Fits env l.af k m) {action : Option String} {cache : Dict RowKey String}
    (hself : cache.get? k = action)
    (hother : ∀ k', k ≠ k' → cache.get? k' = s.state.daemon.cache.get? k') (k' : RowKey)
    (a : String) :
    cache.get? k' = some a ↔ (if k = k' then action else s.db.rows.get? k') = some a ∧
      ∃ af ∈ s.db.sets.get? k'.set, (entryOf env af (k', a)).isSome := by
  by_cases hk : k = k'
  · subst hk
    rw [if_pos rfl, hself]
    refine (and_iff_left ⟨l.af, h.af hl, ?_⟩).symm
    rw [entryOf_fits hm]
    rfl
  · rw [if_neg hk, hother k' hk]
    exact h.cache k' a

/-- A row that stands for no entry changes nothing. -/
theorem Good.not_fits (h : Good env s) (hl : s.state.daemon.prefixSetList.get? k.set = some l)
    (hm : ∀ m, ¬Fits env l.af k m) (action : Option String) :
    Good env ⟨s.db.setRow k action, s.state⟩ := by
  have haf := h.af hl
  have hnone : ∀ c, (entryOf env l.af (k, c)).toList = [] := fun c => by
    rw [entryOf_not_fits hm]
    rfl
  refine h.setRow (by rw [haf]; simp) (h.tracks.congr fun name => ?_) fun k' a => ?_
  · by_cases hn : name = k.set
    · subst hn
      -- neither the old nor the new row has an entry
      have hold : (s.db.entries env k.set).Perm ((s.db.setRow k none).entries env k.set) := by
        cases hc : s.db.rows.get? k with
        | none => rw [setRow_of_get? hc]
        | some c =>
          have hperm := entries_setRow_self env h.rows haf c
          rw [setRow_of_get? hc, hnone] at hperm
          exact hperm
      refine hold.trans ?_
      cases action with
      | none => exact List.Perm.refl _
      | some a =>
        have hperm := entries_setRow_self env h.rows haf a
        rw [hnone] at hperm
        exact hperm.symm
    · rw [entries_setRow_ne env s.db action hn]
  · by_cases hk : k = k'
    · subst hk
      rw [h.cache_not_fits hl hm]
      refine iff_of_false nofun ?_
      rintro ⟨-, af, haf', hsome⟩
      obtain rfl := Option.some.inj (haf.symm.trans haf')
      rw [entryOf_not_fits hm] at hsome
      simp at hsome
    · rw [if_neg hk]
      exact h.cache k' a

/-- What the daemon does with a row that stands for no entry. -/
theorem addEntry_not_fits {state : State} (hm : ∀ m, ¬Fits env l.af k m) (action : String) :
    addEntry env state k l action = none := by
  unfold addEntry
  by_cases haf : env.getIpAf k.ipPfx = some l.af
  · rw [if_neg (not_not.2 haf)]
    cases hmatch : matchOf env l.af k.ipPfx k.range with
    | ok m => exact absurd ⟨haf, hmatch⟩ (hm m)
    | error e => rfl
  · rw [if_pos haf]

theorem Good.updatePrefix (h : Good env s) {action : Option String}
    (hset : action ≠ none → s.db.sets.get? k.set ≠ none)
    (halone : s.db.rows.get? k ≠ none → s.db.rows.get? k ≠ action → Alone env s.db k) :
    Good env ⟨s.db.setRow k action, updatePrefix env s.state k action⟩ := by
  unfold PrefixLists.updatePrefix
  cases hl : s.state.daemon.prefixSetList.get? k.set with
  | none =>
    -- without a set there is no row, and so none to delete
    have hnone : s.db.sets.get? k.set = none := by
      rw [← h.tracks.sets, hl]
      rfl
    have haction : action = none := not_not.1 fun hne => hset hne hnone
    have hrow : s.db.rows.get? k = none := by
      by_contra hne
      obtain ⟨c, hc⟩ := Option.ne_none_iff_exists'.1 hne
      exact h.rowsSets _ (Dict.mem_of_get? hc) hnone
    rw [haction, setRow_of_get? hrow]
    exact h
  | some l =>
    dsimp only
    have hsets : s.db.sets.get? k.set ≠ none := by
      rw [h.af hl]
      simp
    by_cases hfits : ∃ m, Fits env l.af k m
    · obtain ⟨m, hm⟩ := hfits
      rw [h.cache_fits hl hm]
      cases hc : s.db.rows.get? k with
      | none =>
        have hsame := setRow_of_get? hc
        cases action with
        | none =>
          rw [hsame]
          exact h
        | some v =>
          obtain ⟨state', hadd, hcache, htracks⟩ :=
            addEntry_fits hl hm v h.rows (h.af hl) (hsame.symm ▸ h.tracks)
          simp only [opOf, hadd]
          refine h.setRow hsets (htracks.updateCache _ _ _) (h.cache_set hl hm ?_ fun k' hk => ?_)
          · exact (Dict.get?_set _ _ _ _).trans (if_pos rfl)
          · exact (Dict.get?_set_ne _ _ hk).trans (by rw [hcache])
      | some c =>
        rw [hc] at halone
        cases action with
        | none =>
          obtain ⟨state', l', hdel, -, -, hcache, htracks⟩ :=
            h.deleteEntry_fits hl hm hc (halone (by simp) (by simp))
          simp only [opOf, hdel]
          refine h.setRow hsets (htracks.updateCache _ _ _) (h.cache_set hl hm ?_ fun k' hk => ?_)
          · exact (Dict.get?_erase _ _ _).trans (if_pos rfl)
          · exact (Dict.get?_erase_ne _ hk).trans (by rw [hcache])
        | some v =>
          by_cases hv : v = c
          · subst hv
            simp only [opOf, if_true]
            rw [setRow_of_get? hc]
            exact h
          · obtain ⟨state1, l1, hdel, hl1, haf1, hcache1, htracks1⟩ :=
              h.deleteEntry_fits hl hm hc (halone (by simp) (by simpa using Ne.symm hv))
            rw [← haf1] at hm
            have haf := (h.af hl).trans (congrArg some haf1.symm)
            obtain ⟨state2, hadd, hcache2, htracks2⟩ :=
              addEntry_fits hl1 hm v h.rows haf htracks1
            simp only [opOf, hv, if_false, hdel, hadd]
            rw [haf1] at hm
            refine h.setRow hsets (htracks2.updateCache _ _ _)
              (h.cache_set hl hm ?_ fun k' hk => ?_)
            · exact (Dict.get?_set _ _ _ _).trans (if_pos rfl)
            · exact (Dict.get?_set_ne _ _ hk).trans (by rw [hcache2, hcache1])
    · have hfits := not_exists.1 hfits
      rw [h.cache_not_fits hl hfits]
      have hsame := h.not_fits hl hfits action
      cases action with
      | none => exact hsame
      | some v =>
        simp only [opOf, addEntry_not_fits hfits]
        exact hsame

end Row

/-! ## Sets -/

/-- A set has no entries while it has no rows. -/
theorem Good.entries_nil {env : Env} {s : Sys} (h : Good env s) {name : String}
    (hno : ∀ row ∈ s.db.rows, row.1.set ≠ name) (l : MatchPrefixList)
    (hl : s.state.daemon.prefixSetList.get? name = some l) : l.entries = [] := by
  have hperm := h.tracks.entries name l hl
  have hfilter : (s.db.rows.filter fun row => row.1.set = name) = [] :=
    List.filter_eq_nil_iff.2 fun row hrow => by simp [hno row hrow]
  rw [Db.entries, hfilter] at hperm
  refine List.Perm.eq_nil (hperm.trans ?_)
  split
  · exact List.Perm.refl _
  · exact List.Perm.refl _

/-- A list without entries comes or goes. -/
theorem Good.changeSet {env : Env} {s : Sys} (h : Good env s) {name : String}
    (hno : ∀ row ∈ s.db.rows, row.1.set ≠ name) {sets : Dict String Af}
    {lists : Dict String MatchPrefixList}
    (hsets : ∀ n, n ≠ name → sets.get? n = s.db.sets.get? n)
    (hlists : ∀ n, n ≠ name → lists.get? n = s.state.daemon.prefixSetList.get? n)
    (haf : (lists.get? name).map (·.af) = sets.get? name)
    (hnil : ∀ l, lists.get? name = some l → l.entries = []) :
    Good env ⟨{ s.db with sets := sets },
      { s.state with daemon := { s.state.daemon with prefixSetList := lists } }⟩ := by
  refine ⟨⟨fun n => ?_, fun n l hl => ?_, fun x => ?_⟩, h.rows, fun row hrow => ?_, fun k a => ?_⟩
  · by_cases hn : n = name
    · rw [hn]
      exact haf
    · show (lists.get? n).map (·.af) = sets.get? n
      rw [hlists n hn, hsets n hn]
      exact h.tracks.sets n
  · replace hl : lists.get? n = some l := hl
    by_cases hn : n = name
    · subst hn
      have hfilter : (s.db.rows.filter fun row => row.1.set = n) = [] :=
        List.filter_eq_nil_iff.2 fun row hrow => by simp [hno row hrow]
      rw [hnil l hl, Db.entries, hfilter]
      split
      · exact List.Perm.refl _
      · exact List.Perm.refl _
    · rw [hlists n hn] at hl
      have hperm := h.tracks.entries n l hl
      rw [Db.entries] at hperm ⊢
      rw [hsets n hn]
      exact hperm
  · show x ∈ s.state.frr ↔
      ∃ l, lists.get? x.2.1 = some l ∧ l.af = x.1 ∧ ∃ p ∈ l.entries, p.line = x.2.2
    rw [h.tracks.frr]
    unfold Daemon.Holds
    by_cases hn : x.2.1 = name
    · refine iff_of_false ?_ ?_
      · rintro ⟨l, hl, -, p, hp, -⟩
        rw [hn] at hl
        rw [h.entries_nil hno l hl] at hp
        exact List.not_mem_nil hp
      · rintro ⟨l, hl, -, p, hp, -⟩
        rw [hn] at hl
        rw [hnil l hl] at hp
        exact List.not_mem_nil hp
    · rw [hlists _ hn]
  · show sets.get? row.1.set ≠ none
    rw [hsets _ (hno row hrow)]
    exact h.rowsSets row hrow
  · show s.state.daemon.cache.get? k = some a ↔
      s.db.rows.get? k = some a ∧ ∃ af ∈ sets.get? k.set, (entryOf env af (k, a)).isSome
    rw [h.cache]
    refine and_congr_right fun hk => ?_
    rw [hsets _ (hno _ (Dict.mem_of_get? hk))]

theorem Good.setPrefixSet {env : Env} {s : Sys} (h : Good env s) {name : String}
    {mode : Option String} (hok : ∀ af ∈ s.db.sets.get? name, mode.map afOfMode = some af) :
    Good env ⟨s.db.apply (.setPrefixSet name mode), setPrefixSet s.state name mode⟩ := by
  have haf := h.tracks.sets name
  unfold PrefixLists.setPrefixSet Db.apply
  cases hl : s.state.daemon.prefixSetList.get? name with
  | some l =>
    -- the mode of a set that is there is the one it has
    rw [hl] at haf
    obtain ⟨m, rfl, hm⟩ := Option.map_eq_some_iff.1 (hok l.af haf.symm)
    have hsame : s.db.sets.set name (afOfMode m) = s.db.sets := by
      rw [hm]
      exact Dict.set_of_get? haf.symm
    dsimp only
    rw [hsame]
    exact h
  | none =>
    rw [hl] at haf
    have hno : ∀ row ∈ s.db.rows, row.1.set ≠ name := by
      rintro row hrow rfl
      exact h.rowsSets row hrow haf.symm
    cases mode with
    | none =>
      dsimp only
      rw [Dict.erase_of_get?_none haf.symm]
      exact h
    | some m =>
      refine h.changeSet hno (fun n hn => Dict.get?_set_ne _ _ (Ne.symm hn))
        (fun n hn => Dict.get?_set_ne _ _ (Ne.symm hn)) ?_ fun l hl' => ?_
      · rw [Dict.get?_set, Dict.get?_set, if_pos rfl, if_pos rfl]
        rfl
      · rw [Dict.get?_set, if_pos rfl] at hl'
        rw [← Option.some.inj hl']

theorem Good.deletePrefixSet {env : Env} {s : Sys} (h : Good env s) {name : String}
    (hok : ∀ row ∈ s.db.rows, row.1.set ≠ name) :
    Good env ⟨s.db.apply (.delPrefixSet name), deletePrefixSet s.state name⟩ := by
  refine h.changeSet hok (fun n hn => Dict.get?_erase_ne _ (Ne.symm hn))
    (fun n hn => Dict.get?_erase_ne _ (Ne.symm hn)) ?_ fun l hl => ?_
  · rw [Dict.get?_erase, Dict.get?_erase, if_pos rfl, if_pos rfl]
    rfl
  · rw [Dict.get?_erase, if_pos rfl] at hl
    simp at hl

/-! ## Runs -/

theorem Good.step {env : Env} {s s' : Sys} {e : Event} (h : Good env s) (hok : Ok env s e)
    (hstep : Step env s e s') : Good env s' := by
  obtain rfl := Option.some.inj hstep
  cases e with
  | setPrefixSet name mode => exact h.setPrefixSet hok
  | delPrefixSet name => exact h.deletePrefixSet hok
  | setPrefix k action => exact h.updatePrefix (fun _ => hok.1) hok.2
  | delPrefix k => exact h.updatePrefix (fun hne => absurd rfl hne) fun hk _ => hok hk

theorem good_start (env : Env) : Good env start := by
  refine ⟨⟨fun _ => rfl, nofun, fun x => ?_⟩, List.nodup_nil, nofun, fun k a => ?_⟩
  · exact iff_of_false List.not_mem_nil nofun
  · exact iff_of_false nofun fun hand => absurd hand.1 nofun

/-- FRR holds the lines of the rows. -/
theorem Good.mem_frr_iff {env : Env} {s : Sys} (h : Good env s) (l : FrrLine) :
    l ∈ s.state.frr ↔ s.db.Wants env l := by
  rw [h.tracks.frr]
  obtain ⟨af, name, line⟩ := l
  have haf := h.tracks.sets name
  constructor
  · rintro ⟨lst, hl, rfl, p, hp, hline⟩
    rw [hl] at haf
    rw [(h.tracks.entries name lst hl).mem_iff, Db.entries, ← haf] at hp
    obtain ⟨row, hrow, hentry⟩ := List.mem_filterMap.1 hp
    obtain ⟨hrow, hset⟩ := List.mem_filter.1 hrow
    exact ⟨row, hrow, of_decide_eq_true hset, haf.symm, p, hentry, hline⟩
  · rintro ⟨row, hrow, hset, haf', p, hentry, hline⟩
    rw [haf'] at haf
    obtain ⟨lst, hl, hlaf⟩ := Option.map_eq_some_iff.1 haf
    refine ⟨lst, hl, hlaf, p, ?_, hline⟩
    rw [(h.tracks.entries name lst hl).mem_iff, Db.entries, haf']
    exact List.mem_filterMap.2 ⟨row, List.mem_filter.2 ⟨hrow, decide_eq_true hset⟩, hentry⟩

/-- FRR holds exactly the lines of the rows in the database, and exactly those of the daemon. -/
theorem prefixLists_of_run {env : Env} {es : List Event} {s : Sys}
    (hrun : Run (Step env) (Ok env) start es s) (l : FrrLine) :
    (l ∈ s.state.frr ↔ s.db.Wants env l) ∧ (l ∈ s.state.frr ↔ s.state.daemon.Holds l) := by
  have hgood : Good env s :=
    hrun.invariant (fun _ _ _ h hok hstep => h.step hok hstep) (good_start env)
  exact ⟨hgood.mem_frr_iff l, hgood.tracks.frr l⟩

/-! ## Two rows -/

/-- Decimal numbers, addresses with a dot, and the network that both prefixes below are in. -/
def sampleEnv : Env where
  int s :=
    if s ≠ "" ∧ s.toList.all Char.isDigit then
      some (s.toList.foldl (fun n c => 10 * n + (c.toNat - '0'.toNat)) 0)
    else none
  getIpAf ipPfx := some (if ipPfx.toList.contains '.' then .inet else .inet6)
  network _ ip _ := .ok (if ip = "10.0.0.1" then "10.0.0.0" else ip)

def network : RowKey := ⟨"PL", "10.0.0.0/24", "exact"⟩

def longer : RowKey := ⟨"PL", "10.0.0.0/24", "25..32"⟩

/-- The same network, with host bits. -/
def address : RowKey := ⟨"PL", "10.0.0.1/24", "exact"⟩

def lineOf (action : String) : FrrLine := ⟨.inet, "PL", action, "10.0.0.0", 24, none, none⟩

theorem mirror_two_rows :
    ∃ s, Run (Step sampleEnv) (Ok sampleEnv) start
        [.setPrefixSet "PL" (some "ipv4"), .setPrefix network (some "permit"),
          .setPrefix longer (some "permit"), .setPrefix network (some "deny"),
          .delPrefix longer] s ∧
      lineOf "deny" ∈ s.state.frr ∧ lineOf "permit" ∉ s.state.frr := by
  refine exists_run_imp (fun _ _ _ h => h) (fun s => s.db.Wants sampleEnv (lineOf "deny") ∧
    ¬s.db.Wants sampleEnv (lineOf "permit")) (by decide +kernel) ?_
  rintro s hrun ⟨hdeny, hpermit⟩
  refine ⟨(prefixLists_of_run hrun _).1.2 hdeny, fun hmem => hpermit ?_⟩
  exact (prefixLists_of_run hrun _).1.1 hmem

/-- The row that denies the network is deleted, and FRR loses the line that permits it. -/
theorem entry_of_other_row :
    ∃ s, Run (Step sampleEnv) (fun _ _ => True) start
        [.setPrefixSet "PL" (some "ipv4"), .setPrefix network (some "permit"),
          .setPrefix address (some "deny"), .delPrefix address] s ∧
      s.db.Wants sampleEnv (lineOf "permit") ∧ lineOf "permit" ∉ s.state.frr ∧
      ¬s.db.Wants sampleEnv (lineOf "deny") ∧ lineOf "deny" ∈ s.state.frr :=
  exists_run (fun _ _ _ h => h) (by decide +kernel)

end SonicBuildimage.Frrcfgd.PrefixLists
