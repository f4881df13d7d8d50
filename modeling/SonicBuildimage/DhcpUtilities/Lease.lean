/-
  dhcp_lease.py: the lease table in STATE_DB, which a handler of SIGUSR1 updates from the lease
  file of Kea.

  Model.  A signal starts an activation of `update_lease` on top of those that are not finished
  (`Lease.stack`); only the one on top runs.  The file may be rewritten and the clock set at any
  time.  The three `hset` of a lease are one step, since only the activation with the lock
  writes the table.  The rows of the file are behind its header; their numbers are written as
  Kea writes them.

  Proved: `table_of_run`.  In every run in which a signal that comes between the read of the file
  and the release of the lock finds the file as it was read, the table is in the end that of
  the file as it was at the last signal or later.  Otherwise the activation for the signal
  gives up at the lock, and the change it was sent for is not seen (`table_stale`).

  Not modelled: a lease file that does not exist.
-/
import SonicBuildimage.Lib.PyDict
import SonicBuildimage.Lib.PyStr
import SonicBuildimage.Lib.Run

namespace SonicBuildimage.DhcpUtilities

open SonicBuildimage.Lib

/-! ## The file -/

/-- A row of the lease file, as far as it is used. -/
structure LeaseRow where
  address : String
  hwaddr : String
  validLifetime : Int
  expire : Int
  subnetId : Nat
  deriving DecidableEq

inductive LeaseLine where
  | header
  | row (r : LeaseRow)
  deriving DecidableEq

/-- The rows behind the header. -/
abbrev LeaseFile := List LeaseRow

def LeaseFile.lines (f : LeaseFile) : List LeaseLine := .header :: f.map .row

/-- An entry of the table. -/
structure LeaseEntry where
  leaseStart : Int
  leaseEnd : Int
  ip : String
  deriving DecidableEq

/-- The key for a VLAN and a MAC address. -/
def leaseKey (subnetId : Nat) (hwaddr : String) : String :=
  "Vlan" ++ toString subnetId ++ "|" ++ hwaddr

namespace LeaseRow

def key (r : LeaseRow) : String := leaseKey r.subnetId r.hwaddr

def entry (r : LeaseRow) : LeaseEntry := ⟨r.expire - r.validLifetime, r.expire, r.address⟩

end LeaseRow

/-- The loop of `_read`; the lines are given from the last one on. -/
def readLoop : List LeaseLine → Dict String LeaseEntry → Dict String LeaseEntry
  | [], new => new
  | .header :: _, new => new
  | .row r :: dq, new =>
    readLoop dq (if r.key ∈ Dict.keys new then new else Dict.set new r.key r.entry)

/-- `_read` -/
def readLeases (f : LeaseFile) : Dict String LeaseEntry := readLoop f.lines.reverse []

/-- A time in microseconds. -/
abbrev Micros := Nat

/-- The lease is released, or expired at a time. -/
def LeaseEntry.over (v : LeaseEntry) (now : Micros) : Bool :=
  v.leaseStart = v.leaseEnd || v.leaseEnd * 1000000 ≤ now

/-! ## Activations -/

/-- Where an activation is before it has the lock. -/
inductive Waiting where
  | entered
  /-- with the `last_update_time` it has seen -/
  | looked (last : Option Micros)
  | asleep (last : Option Micros)
  | locking
  deriving DecidableEq

/-- Where an activation is that has the lock; `f` is the file that it has read. -/
inductive Holding where
  | locked
  | read (f : LeaseFile)
  | saving (f : LeaseFile) (old : List String) (todo : Dict String LeaseEntry)
  | pruning (f : LeaseFile) (todo : List String)
  | stamping (f : LeaseFile)
  | releasing (f : LeaseFile)
  deriving DecidableEq

inductive Frame where
  | waiting (w : Waiting)
  | holding (h : Holding)
  deriving DecidableEq

/-- The file that an activation has read. -/
def Holding.file? : Holding → Option LeaseFile
  | .locked => none
  | .read f => some f
  | .saving f _ _ => some f
  | .pruning f _ => some f
  | .stamping f => some f
  | .releasing f => some f

structure Lease where
  file : LeaseFile
  table : Dict String LeaseEntry
  now : Micros
  lastUpdateTime : Option Micros
  lock : Bool
  /-- the activations, the one on top first -/
  stack : List Frame
  /-- whether there was a signal, and what the file was at the last one and since then -/
  signalled : Bool
  since : List LeaseFile
  /-- the file of the last update that was completed -/
  shown : Option LeaseFile
  /-- when each key was evaluated last -/
  evaluated : String → Micros

inductive LeaseEvent where
  | signal
  | rewrite (f : LeaseFile)
  | clock (now : Micros)
  /-- the activation on top makes its next step -/
  | run

namespace Lease

/-- `lease_update_interval`, in seconds -/
def leaseUpdateInterval : Nat := 2

/-- `(curr_time - last_update_time).seconds < self.lease_update_interval`; a `timedelta` counts the
    days separately. -/
def recent (now : Micros) : Option Micros → Bool
  | none => false
  | some last => ((now : Int) - last) % (86400 * 1000000) / 1000000 < leaseUpdateInterval

def start (file : LeaseFile) (table : Dict String LeaseEntry) : Lease :=
  ⟨file, table, 0, none, false, [], false, [], none, fun _ => 0⟩

section Steps

variable (order : List String → List String)

/-- The next step of an activation that does not have the lock, with those below it. -/
def runWaiting (s : Lease) (rest : List Frame) : Waiting → Lease
  | .entered => { s with stack := .waiting (.looked s.lastUpdateTime) :: rest }
  | .looked last =>
    if recent s.now last then { s with stack := .waiting (.asleep last) :: rest }
    else { s with stack := .waiting .locking :: rest }
  | .asleep last =>
    if s.lastUpdateTime ≠ last then { s with stack := rest }
    else { s with stack := .waiting .locking :: rest }
  | .locking =>
    if s.lock then { s with stack := rest }
    else { s with lock := true, stack := .holding .locked :: rest }

/-- One lease of the file: it is deleted, skipped or saved. -/
def saveOne (s : Lease) (old : List String) (e : String × LeaseEntry) : Lease :=
  let s := { s with evaluated := Function.update s.evaluated e.1 s.now }
  if e.2.over s.now then
    if e.1 ∈ old then { s with table := Dict.erase s.table e.1 } else s
  else { s with table := Dict.set s.table e.1 e.2 }

/-- The next step of the activation that has the lock. -/
def runHolding (s : Lease) (rest : List Frame) : Holding → Lease
  | .locked => { s with stack := .holding (.read s.file) :: rest }
  | .read f =>
    { s with stack := .holding (.saving f (Dict.keys s.table) (readLeases f)) :: rest }
  | .saving f old [] => { s with stack := .holding (.pruning f (order old)) :: rest }
  | .saving f old (e :: todo) =>
    { s.saveOne old e with stack := .holding (.saving f old todo) :: rest }
  | .pruning f [] => { s with stack := .holding (.stamping f) :: rest }
  | .pruning f (key :: todo) =>
    { s with
      table := if key ∉ Dict.keys (readLeases f) then Dict.erase s.table key else s.table
      stack := .holding (.pruning f todo) :: rest }
  | .stamping f =>
    { s with
      lastUpdateTime := some s.now
      shown := some f
      stack := .holding (.releasing f) :: rest }
  | .releasing _ => { s with lock := false, stack := rest }

def next (s : Lease) : LeaseEvent → Option Lease
  | .signal =>
    some { s with stack := .waiting .entered :: s.stack, signalled := true, since := [s.file] }
  | .rewrite f => some { s with file := f, since := s.since ++ [f] }
  | .clock now => some { s with now := now }
  | .run =>
    match s.stack with
    | [] => none
    | .waiting w :: rest => some (s.runWaiting rest w)
    | .holding h :: rest => some (s.runHolding order rest h)

def Step (s : Lease) (e : LeaseEvent) (s' : Lease) : Prop := s.next order e = some s'

theorem step_next (s : Lease) (e : LeaseEvent) (s' : Lease) (h : s.next order e = some s') :
    Step order s e s' := h

end Steps

/-- A frame that has read the file has read it as it is now. -/
def Current (file : LeaseFile) : Frame → Prop
  | .waiting _ => True
  | .holding h => ∀ f ∈ h.file?, f = file

instance (file : LeaseFile) (fr : Frame) : Decidable (Current file fr) :=
  match fr with
  | .waiting _ => isTrue trivial
  | .holding h => inferInstanceAs (Decidable (∀ f ∈ h.file?, f = file))

/-- If an activation has read the file and has the lock, a signal finds the file unchanged. -/
def Ok (s : Lease) : LeaseEvent → Prop
  | .signal => ∀ fr ∈ s.stack, Current s.file fr
  | _ => True

instance (s : Lease) (e : LeaseEvent) : Decidable (s.Ok e) :=
  match e with
  | .signal => inferInstanceAs (Decidable (∀ fr ∈ s.stack, Current s.file fr))
  | .rewrite _ => isTrue trivial
  | .clock _ => isTrue trivial
  | .run => isTrue trivial

/-! ## What the table should be -/

/-- The last row of a file for a VLAN and a MAC address. -/
def lastRow (f : LeaseFile) (subnetId : Nat) (hwaddr : String) : Option LeaseRow :=
  f.reverse.find? fun r => r.subnetId = subnetId ∧ r.hwaddr = hwaddr

/-- The table has, for each VLAN and MAC address, the last row of the file for it, unless that is
    released or was expired when it was evaluated, and nothing else. -/
structure Reflects (f : LeaseFile) (evaluated : String → Micros) (table : Dict String LeaseEntry) :
    Prop where
  leases : ∀ subnetId hwaddr, Dict.get? table (leaseKey subnetId hwaddr) =
    (lastRow f subnetId hwaddr).bind fun r =>
      if r.entry.over (evaluated (leaseKey subnetId hwaddr)) then none else some r.entry
  others : ∀ key, Dict.get? table key ≠ none → ∃ subnetId hwaddr, key = leaseKey subnetId hwaddr

/-! ## Reading the file -/

theorem toList_leaseKey (subnetId : Nat) (hwaddr : String) :
    (leaseKey subnetId hwaddr).toList =
      "Vlan".toList ++ ((toString subnetId).toList ++ '|' :: hwaddr.toList) := by
  unfold leaseKey
  rw [String.toList_append, String.toList_append, String.toList_append, List.append_assoc,
    List.append_assoc]
  rfl

theorem leaseKey_inj {i i' : Nat} {m m' : String} (h : leaseKey i m = leaseKey i' m') :
    i = i' ∧ m = m' := by
  have hlist := congrArg String.toList h
  rw [toList_leaseKey, toList_leaseKey] at hlist
  obtain ⟨hi, hm⟩ := append_cons_inj (not_mem_toString (by decide) i)
    (not_mem_toString (by decide) i') (List.append_cancel_left hlist)
  exact ⟨Nat.repr_inj.1 (String.toList_inj.1 hi), String.toList_inj.1 hm⟩

/-- What was read first stays; behind it the first row for a key counts. -/
theorem get?_readLoop (rows : List LeaseRow) (new : Dict String LeaseEntry) (key : String) :
    Dict.get? (readLoop (rows.map .row ++ [.header]) new) key =
      (Dict.get? new key).or ((rows.find? fun r => r.key = key).map LeaseRow.entry) := by
  induction rows generalizing new with
  | nil => simp [readLoop]
  | cons r rows ih =>
    rw [List.map_cons, List.cons_append, readLoop, ih, List.find?_cons]
    by_cases hkey : r.key = key
    · subst hkey
      simp only [decide_true]
      split
      · next hmem =>
        obtain ⟨v, hv⟩ := Option.ne_none_iff_exists'.1 ((Dict.mem_keys_iff _ _).1 hmem)
        rw [hv, Option.some_or, Option.some_or]
      · next hmem =>
        rw [Dict.mem_keys_iff, not_not] at hmem
        rw [Dict.get?_set_self, hmem]
        rfl
    · simp only [hkey, decide_false]
      split
      · rfl
      · rw [Dict.get?_set_ne _ _ hkey]

theorem keys_readLoop_nodup (lines : List LeaseLine) (new : Dict String LeaseEntry)
    (h : (Dict.keys new).Nodup) : (Dict.keys (readLoop lines new)).Nodup := by
  induction lines generalizing new with
  | nil => exact h
  | cons line lines ih =>
    cases line with
    | header => exact h
    | row r =>
      rw [readLoop]
      split
      · exact ih _ h
      · exact ih _ (Dict.keys_set_nodup h _ _)

theorem keys_readLeases_nodup (f : LeaseFile) : (Dict.keys (readLeases f)).Nodup :=
  keys_readLoop_nodup _ _ List.nodup_nil

theorem get?_readLeases (f : LeaseFile) (key : String) :
    Dict.get? (readLeases f) key =
      (f.reverse.find? fun r => r.key = key).map LeaseRow.entry := by
  have hlines : f.lines.reverse = f.reverse.map .row ++ [.header] := by
    rw [LeaseFile.lines, List.reverse_cons, List.map_reverse]
  rw [readLeases, hlines, get?_readLoop]
  rfl

/-- `_read` gives the last row of the file for each VLAN and MAC address. -/
theorem get?_readLeases_leaseKey (f : LeaseFile) (i : Nat) (m : String) :
    Dict.get? (readLeases f) (leaseKey i m) = (lastRow f i m).map LeaseRow.entry := by
  rw [get?_readLeases, lastRow]
  congr 2
  funext r
  rw [decide_eq_decide]
  constructor
  · exact leaseKey_inj
  · rintro ⟨rfl, rfl⟩
    rfl

theorem exists_leaseKey_of_mem {f : LeaseFile} {key : String}
    (h : Dict.get? (readLeases f) key ≠ none) : ∃ i m, key = leaseKey i m := by
  rw [get?_readLeases, Ne, Option.map_eq_none_iff] at h
  obtain ⟨r, hr⟩ := Option.ne_none_iff_exists'.1 h
  have hkey : r.key = key := by simpa using List.find?_some hr
  exact ⟨r.subnetId, r.hwaddr, hkey.symm⟩

/-! ## The update by one activation -/

/-- What an update from a file leaves under a key. -/
def expected (f : LeaseFile) (evaluated : String → Micros) (key : String) : Option LeaseEntry :=
  (Dict.get? (readLeases f) key).bind fun v => if v.over (evaluated key) then none else some v

/-- The table is that of a file. -/
def Image (f : LeaseFile) (evaluated : String → Micros) (table : Dict String LeaseEntry) : Prop :=
  ∀ key, Dict.get? table key = expected f evaluated key

theorem Image.reflects {f : LeaseFile} {evaluated : String → Micros}
    {table : Dict String LeaseEntry} (h : Image f evaluated table) :
    Reflects f evaluated table where
  leases i m := by
    rw [h, expected, get?_readLeases_leaseKey]
    cases lastRow f i m with
    | none => rfl
    | some r => rfl
  others key hkey := by
    rw [h, expected] at hkey
    have hmem : Dict.get? (readLeases f) key ≠ none := by
      intro hnone
      rw [hnone] at hkey
      exact hkey rfl
    exact exists_leaseKey_of_mem hmem

theorem expected_of_not_mem {f : LeaseFile} {key : String}
    (h : key ∉ Dict.keys (readLeases f)) (evaluated : String → Micros) :
    expected f evaluated key = none := by
  rw [Dict.mem_keys_iff, not_not] at h
  rw [expected, h]
  rfl

theorem expected_update_ne (f : LeaseFile) (evaluated : String → Micros) {key key' : String}
    (now : Micros) (h : key' ≠ key) :
    expected f (Function.update evaluated key now) key' = expected f evaluated key' := by
  rw [expected, expected, Function.update_of_ne h]

/-- How far the activation with the lock is. -/
def Progress (table : Dict String LeaseEntry) (evaluated : String → Micros)
    (shown : Option LeaseFile) : Holding → Prop
  | .locked => True
  | .read _ => True
  | .saving f old todo =>
    ∃ done, readLeases f = done ++ todo ∧
      (∀ key ∈ Dict.keys done, Dict.get? table key = expected f evaluated key) ∧
      ∀ key, key ∉ Dict.keys done → Dict.get? table key ≠ none → key ∈ old
  | .pruning f todo =>
    (∀ key ∈ Dict.keys (readLeases f), Dict.get? table key = expected f evaluated key) ∧
      ∀ key, key ∉ Dict.keys (readLeases f) → Dict.get? table key ≠ none → key ∈ todo
  | .stamping f => Image f evaluated table
  | .releasing f => Image f evaluated table ∧ shown = some f

/-- Only the key of the lease changes, to what is expected of it. -/
theorem get?_saveOne {s : Lease} {old : List String} {e : String × LeaseEntry} {f : LeaseFile}
    (he : Dict.get? (readLeases f) e.1 = some e.2)
    (hold : Dict.get? s.table e.1 ≠ none → e.1 ∈ old) (key : String) :
    Dict.get? (s.saveOne old e).table key =
      if key = e.1 then expected f (s.saveOne old e).evaluated key else Dict.get? s.table key := by
  have hexp : expected f (Function.update s.evaluated e.1 s.now) e.1 =
      if e.2.over s.now then none else some e.2 := by
    rw [expected, he, Function.update_self]
    rfl
  unfold saveOne
  dsimp only
  split
  · next hover =>
    rw [if_pos hover] at hexp
    split
    · rw [Dict.get?_erase]
      by_cases hkey : key = e.1
      · rw [if_pos hkey.symm, if_pos hkey, hkey, hexp]
      · rw [if_neg (Ne.symm hkey), if_neg hkey]
    · next hmem =>
      split
      · next hkey =>
        rw [hkey, hexp]
        exact not_not.1 fun hne => hmem (hold hne)
      · rfl
  · next hover =>
    rw [if_neg hover] at hexp
    rw [Dict.get?_set]
    by_cases hkey : key = e.1
    · rw [if_pos hkey.symm, if_pos hkey, hkey, hexp]
    · rw [if_neg (Ne.symm hkey), if_neg hkey]

theorem evaluated_saveOne (s : Lease) (old : List String) (e : String × LeaseEntry) :
    (s.saveOne old e).evaluated = Function.update s.evaluated e.1 s.now := by
  unfold saveOne
  dsimp only
  split
  · split <;> rfl
  · rfl

/-- Nothing but the table and the times is written. -/
theorem runHolding_saving (order : List String → List String) (s : Lease) (rest : List Frame)
    (f : LeaseFile) (old : List String) (e : String × LeaseEntry)
    (todo : Dict String LeaseEntry) :
    s.runHolding order rest (.saving f old (e :: todo)) =
      { s with
        table := (s.saveOne old e).table
        evaluated := (s.saveOne old e).evaluated
        stack := .holding (.saving f old todo) :: rest } := by
  rw [Lease.runHolding]
  unfold saveOne
  dsimp only
  split
  · split <;> rfl
  · rfl

/-- The loop over the leases of the file. -/
theorem progress_saveOne {s : Lease} {f : LeaseFile} {old : List String} {e : String × LeaseEntry}
    {todo : Dict String LeaseEntry} {shown : Option LeaseFile}
    (h : Progress s.table s.evaluated s.shown (.saving f old (e :: todo))) :
    Progress (s.saveOne old e).table (s.saveOne old e).evaluated shown (.saving f old todo) := by
  obtain ⟨done, hsplit, hdone, hrest⟩ := h
  have hnodup := keys_readLeases_nodup f
  have hget : Dict.get? (readLeases f) e.1 = some e.2 := by
    rw [Dict.get?_eq_some_iff hnodup, hsplit]
    exact List.mem_append_right _ List.mem_cons_self
  have hnew : e.1 ∉ Dict.keys done := by
    rw [hsplit, Dict.keys, List.map_append, List.map_cons] at hnodup
    intro hmem
    exact (List.nodup_append.1 hnodup).2.2 _ hmem _ List.mem_cons_self rfl
  have htable : ∀ key, Dict.get? (s.saveOne old e).table key =
      if key = e.1 then expected f (s.saveOne old e).evaluated key else Dict.get? s.table key :=
    get?_saveOne hget (hrest e.1 hnew)
  refine ⟨done ++ [e], by rw [hsplit, List.append_assoc]; rfl, ?_, ?_⟩
  · intro key hkey
    rw [htable]
    split
    · rfl
    · next hne =>
      rw [Dict.keys, List.map_append, List.mem_append] at hkey
      rcases hkey with hkey | hkey
      · rw [evaluated_saveOne, expected_update_ne _ _ _ hne]
        exact hdone key hkey
      · exact absurd (List.mem_singleton.1 hkey) hne
  · intro key hkey
    have hboth : key ∉ Dict.keys done ∧ key ≠ e.1 := by
      simpa [Dict.keys] using hkey
    rw [htable, if_neg hboth.2]
    exact hrest key hboth.1

/-- The loop over the keys that were in the table. -/
theorem progress_prune {table : Dict String LeaseEntry} {evaluated : String → Micros}
    {shown shown' : Option LeaseFile} {f : LeaseFile} {key : String} {todo : List String}
    (h : Progress table evaluated shown (.pruning f (key :: todo))) :
    Progress (if key ∉ Dict.keys (readLeases f) then Dict.erase table key else table) evaluated
      shown' (.pruning f todo) := by
  obtain ⟨hnew, hold⟩ := h
  split
  · next hkey =>
    refine ⟨fun k hk => ?_, fun k hk hne => ?_⟩
    · have hne : key ≠ k := fun heq => hkey (heq ▸ hk)
      rw [Dict.get?_erase_ne _ hne]
      exact hnew k hk
    · by_cases heq : key = k
      · rw [heq, Dict.get?_erase_self] at hne
        exact absurd rfl hne
      · rw [Dict.get?_erase_ne _ heq] at hne
        exact (List.mem_cons.1 (hold k hk hne)).resolve_left (Ne.symm heq)
  · next hkey =>
    refine ⟨hnew, fun k hk hne => (List.mem_cons.1 (hold k hk hne)).resolve_left ?_⟩
    intro heq
    exact hkey (heq ▸ hk)

/-- With no key left, the table is that of the file. -/
theorem image_of_pruned {table : Dict String LeaseEntry} {evaluated : String → Micros}
    {shown : Option LeaseFile} {f : LeaseFile}
    (h : Progress table evaluated shown (.pruning f [])) : Image f evaluated table := by
  intro key
  by_cases hkey : key ∈ Dict.keys (readLeases f)
  · exact h.1 key hkey
  · rw [expected_of_not_mem hkey]
    by_contra hne
    exact absurd (h.2 key hkey hne) List.not_mem_nil

/-! ## The invariant -/

/-- The activations that have the lock. -/
def holders : List Frame → List Holding
  | [] => []
  | .waiting _ :: stack => holders stack
  | .holding h :: stack => h :: holders stack

theorem mem_of_mem_holders {stack : List Frame} {h : Holding} (hmem : h ∈ holders stack) :
    .holding h ∈ stack := by
  induction stack with
  | nil => exact absurd hmem List.not_mem_nil
  | cons fr stack ih =>
    cases fr with
    | waiting w => exact List.mem_cons_of_mem _ (ih hmem)
    | holding h' =>
      rcases List.mem_cons.1 hmem with rfl | hmem
      · exact List.mem_cons_self
      · exact List.mem_cons_of_mem _ (ih hmem)

/-- An activation that will not find the table changed behind its back. -/
def Waiting.Fresh (lastUpdateTime : Option Micros) : Waiting → Prop
  | .entered => True
  | .looked last => last = lastUpdateTime
  | .asleep last => last = lastUpdateTime
  | .locking => True

/-- There is an activation that will still see the last signal, or one has seen it. -/
inductive Covered (s : Lease) : Prop
  | shown {f : LeaseFile} (hshown : s.shown = some f) (hf : f ∈ s.since)
  | held (h : holders s.stack ≠ [])
  | waiting {w : Waiting} {rest : List Frame} (hstack : s.stack = .waiting w :: rest)
      (hw : Waiting.Fresh s.lastUpdateTime w)

/-- The file gets new contents, and nobody moves on. -/
theorem Covered.mono {s s' : Lease} (h : Covered s) (hshown : s'.shown = s.shown)
    (hstack : s'.stack = s.stack) (hlast : s'.lastUpdateTime = s.lastUpdateTime)
    (hsince : ∀ f ∈ s.since, f ∈ s'.since) : Covered s' := by
  rcases h with ⟨hs, hf⟩ | hheld | ⟨hs, hw⟩
  · exact .shown (hshown.trans hs) (hsince _ hf)
  · exact .held (hstack ▸ hheld)
  · exact .waiting (hstack.trans hs) (hlast ▸ hw)

structure Inv (s : Lease) : Prop where
  /-- at most one activation has the lock, and only if it is taken -/
  mutex : (holders s.stack).length = if s.lock then 1 else 0
  progress : ∀ h ∈ holders s.stack, Progress s.table s.evaluated s.shown h
  idle : holders s.stack = [] → ∀ f ∈ s.shown, Image f s.evaluated s.table
  current : s.signalled = true → s.file ∈ s.since
  read : s.signalled = true → ∀ h ∈ holders s.stack, ∀ f ∈ h.file?, f ∈ s.since
  covered : s.signalled = true → Covered s

theorem inv_start (file : LeaseFile) (table : Dict String LeaseEntry) :
    Inv (start file table) where
  mutex := rfl
  progress _ hmem := absurd hmem List.not_mem_nil
  idle _ f hf := absurd hf (by simp [start])
  current h := absurd h (by simp [start])
  read h := absurd h (by simp [start])
  covered h := absurd h (by simp [start])

/-- The activations on the stack change, but not the one with the lock. -/
theorem Inv.restack {s : Lease} (h : Inv s) {stack : List Frame}
    (hsame : holders stack = holders s.stack)
    (hcov : s.signalled = true → Covered { s with stack := stack }) :
    Inv { s with stack := stack } where
  mutex := by rw [hsame]; exact h.mutex
  progress := by rw [hsame]; exact h.progress
  idle := by rw [hsame]; exact h.idle
  current := h.current
  read := by rw [hsame]; exact h.read
  covered := hcov

theorem Inv.signal {s : Lease} (h : Inv s) (hok : s.Ok .signal) :
    Inv { s with
      stack := .waiting .entered :: s.stack, signalled := true, since := [s.file] } where
  mutex := h.mutex
  progress := h.progress
  idle := h.idle
  current _ := List.mem_cons_self
  read _ hd hmem f hf := by
    have hcurrent : f = s.file := hok _ (mem_of_mem_holders hmem) f hf
    rw [hcurrent]
    exact List.mem_cons_self
  covered _ := .waiting rfl trivial

theorem Inv.rewrite {s : Lease} (h : Inv s) (f : LeaseFile) :
    Inv { s with file := f, since := s.since ++ [f] } where
  mutex := h.mutex
  progress := h.progress
  idle := h.idle
  current _ := List.mem_append_right _ List.mem_cons_self
  read hs hd hmem f hf := List.mem_append_left _ (h.read hs hd hmem f hf)
  covered hs := (h.covered hs).mono rfl rfl rfl fun _ hf => List.mem_append_left _ hf

theorem Inv.clock {s : Lease} (h : Inv s) (now : Micros) : Inv { s with now := now } where
  mutex := h.mutex
  progress := h.progress
  idle := h.idle
  current := h.current
  read := h.read
  covered hs := (h.covered hs).mono rfl rfl rfl fun _ hf => hf

/-- An activation that waits goes on, or gives up. -/
theorem Inv.waiting {s : Lease} (h : Inv s) {w : Waiting} {rest stack : List Frame}
    (hstack : s.stack = .waiting w :: rest) (hsame : holders stack = holders rest)
    (hfresh : Waiting.Fresh s.lastUpdateTime w → Covered { s with stack := stack }) :
    Inv { s with stack := stack } := by
  have hholders : holders s.stack = holders rest := by rw [hstack]; rfl
  refine h.restack (hsame.trans hholders.symm) fun hs => ?_
  rcases h.covered hs with ⟨hshown, hf⟩ | hheld | ⟨hstack', hw⟩
  · exact .shown hshown hf
  · refine .held ?_
    rw [hsame, ← hholders]
    exact hheld
  · rw [hstack, List.cons.injEq, Frame.waiting.injEq] at hstack'
    exact hfresh (hstack'.1 ▸ hw)

theorem Inv.runWaiting {s : Lease} (h : Inv s) {w : Waiting} {rest : List Frame}
    (hstack : s.stack = .waiting w :: rest) : Inv (s.runWaiting rest w) := by
  cases w with
  | entered => exact h.waiting hstack rfl fun _ => .waiting rfl rfl
  | looked last =>
    rw [Lease.runWaiting]
    split
    · exact h.waiting hstack rfl fun hw => .waiting rfl hw
    · exact h.waiting hstack rfl fun _ => .waiting rfl trivial
  | asleep last =>
    rw [Lease.runWaiting]
    split
    · next hne =>
      -- the table was updated during the sleep, so this activation is not the one that counts
      exact h.waiting hstack rfl fun hw => absurd hw.symm hne
    · exact h.waiting hstack rfl fun _ => .waiting rfl trivial
  | locking =>
    have hmutex := h.mutex
    have hholders : holders s.stack = holders rest := by rw [hstack]; rfl
    rw [Lease.runWaiting]
    split
    · next hlock =>
      rw [if_pos hlock, hholders] at hmutex
      refine h.waiting hstack rfl fun _ => .held fun hnil => ?_
      rw [show holders rest = [] from hnil] at hmutex
      exact absurd hmutex (by decide)
    · next hlock =>
      rw [if_neg hlock, hholders, List.length_eq_zero_iff] at hmutex
      have hone : holders (.holding .locked :: rest) = [.locked] := by rw [holders, hmutex]
      constructor
      · rw [hone]
        rfl
      · intro hd hmem
        rw [hone, List.mem_singleton] at hmem
        rw [hmem]
        trivial
      · intro hnil
        exact absurd hnil (List.cons_ne_nil _ _)
      · exact h.current
      · intro _ hd hmem f hf
        rw [hone, List.mem_singleton] at hmem
        rw [hmem] at hf
        exact absurd hf (by simp [Holding.file?])
      · intro _
        exact .held (List.cons_ne_nil _ _)

/-- The activation with the lock is alone. -/
theorem Inv.alone {s : Lease} (h : Inv s) {hd : Holding} {rest : List Frame}
    (hstack : s.stack = .holding hd :: rest) : s.lock = true ∧ holders rest = [] := by
  have hmutex := h.mutex
  rw [hstack, holders, List.length_cons] at hmutex
  split at hmutex
  · next hlock =>
    exact ⟨hlock, List.length_eq_zero_iff.1 (by omega)⟩
  · omega

/-- The activation with the lock goes on. -/
theorem Inv.holding {s : Lease} (h : Inv s) {hd hd' : Holding} {rest : List Frame}
    (hstack : s.stack = .holding hd :: rest) {table : Dict String LeaseEntry}
    {evaluated : String → Micros} {last : Option Micros} {shown : Option LeaseFile}
    (hfile : ∀ f ∈ hd'.file?, f ∈ hd.file? ∨ f = s.file)
    (hprogress : Progress table evaluated shown hd') :
    Inv { s with
      table := table, evaluated := evaluated, lastUpdateTime := last, shown := shown,
      stack := .holding hd' :: rest } := by
  obtain ⟨hlock, hrest⟩ := h.alone hstack
  have hone : holders (.holding hd' :: rest) = [hd'] := by rw [holders, hrest]
  constructor
  · rw [hone, hlock]
    rfl
  · intro hd'' hmem
    rw [hone, List.mem_singleton] at hmem
    rw [hmem]
    exact hprogress
  · intro hnil
    exact absurd hnil (List.cons_ne_nil _ _)
  · exact h.current
  · intro hs hd'' hmem f hf
    rw [hone, List.mem_singleton] at hmem
    rcases hfile f (hmem ▸ hf) with hf | hf
    · refine h.read hs hd ?_ f hf
      rw [hstack]
      exact List.mem_cons_self
    · rw [hf]
      exact h.current hs
  · intro _
    exact .held (List.cons_ne_nil _ _)

theorem Inv.runHolding {order : List String → List String} (horder : IterOrder order) {s : Lease}
    (h : Inv s) {hd : Holding} {rest : List Frame} (hstack : s.stack = .holding hd :: rest) :
    Inv (s.runHolding order rest hd) := by
  have hmem : hd ∈ holders s.stack := by
    rw [hstack]
    exact List.mem_cons_self
  have hprogress := h.progress hd hmem
  cases hd with
  | locked => exact h.holding hstack (fun f hf => .inr (Option.some.inj hf).symm) trivial
  | read f =>
    refine h.holding hstack (fun _ hf => .inl hf) ⟨[], rfl, ?_, ?_⟩
    · intro key hkey
      exact absurd hkey List.not_mem_nil
    · intro key _ hne
      exact (Dict.mem_keys_iff _ _).2 hne
  | saving f old todo =>
    cases todo with
    | nil =>
      obtain ⟨done, hsplit, hdone, hrest⟩ := hprogress
      rw [List.append_nil] at hsplit
      refine h.holding hstack (fun _ hf => .inl hf) ⟨?_, ?_⟩
      · rw [hsplit]
        exact hdone
      · intro key hkey hne
        exact horder.mem.2 (hrest key (hsplit ▸ hkey) hne)
    | cons e todo =>
      rw [runHolding_saving]
      exact h.holding hstack (fun _ hf => .inl hf) (progress_saveOne hprogress)
  | pruning f todo =>
    cases todo with
    | nil => exact h.holding hstack (fun _ hf => .inl hf) (image_of_pruned hprogress)
    | cons key todo => exact h.holding hstack (fun _ hf => .inl hf) (progress_prune hprogress)
  | stamping f => exact h.holding hstack (fun _ hf => .inl hf) ⟨hprogress, rfl⟩
  | releasing f =>
    obtain ⟨himage, hshown⟩ := hprogress
    obtain ⟨_, hrest⟩ := h.alone hstack
    constructor
    · rw [Lease.runHolding, hrest]
      rfl
    · intro hd' hmem'
      rw [Lease.runHolding, hrest] at hmem'
      exact absurd hmem' List.not_mem_nil
    · intro _ g hg
      rw [show f = g from Option.some.inj (hshown.symm.trans hg)] at himage
      exact himage
    · exact h.current
    · intro _ hd' hmem'
      rw [Lease.runHolding, hrest] at hmem'
      exact absurd hmem' List.not_mem_nil
    · intro hs
      exact .shown hshown (h.read hs _ hmem f rfl)

theorem Inv.step {order : List String → List String} (horder : IterOrder order) {s s' : Lease}
    {e : LeaseEvent} (h : Inv s) (hok : s.Ok e) (hstep : Step order s e s') : Inv s' := by
  unfold Step at hstep
  cases e with
  | signal =>
    cases hstep
    exact h.signal hok
  | rewrite f =>
    cases hstep
    exact h.rewrite f
  | clock now =>
    cases hstep
    exact h.clock now
  | run =>
    rw [next] at hstep
    split at hstep
    · cases hstep
    · next w rest hstack =>
      cases hstep
      exact h.runWaiting hstack
    · next hd rest hstack =>
      cases hstep
      exact h.runHolding horder hstack

/-! ## The table after all activations -/

/-- When all activations are finished, the table is that of the file as it was at the last signal
    or since then. -/
theorem table_of_run {order : List String → List String} (horder : IterOrder order)
    (file : LeaseFile) (table : Dict String LeaseEntry) {es : List LeaseEvent} {s : Lease}
    (hrun : Run (Step order) Ok (start file table) es s) (hsignal : s.signalled = true)
    (hdone : s.stack = []) : ∃ f ∈ s.since, Reflects f s.evaluated s.table := by
  have hinv : Inv s :=
    hrun.invariant (fun _ _ _ h hok hstep => h.step horder hok hstep) (inv_start file table)
  rcases hinv.covered hsignal with ⟨hshown, hf⟩ | hheld | ⟨hstack, _⟩
  · exact ⟨_, hf, (hinv.idle (by rw [hdone]; rfl) _ hshown).reflects⟩
  · exact absurd (by rw [hdone]; rfl) hheld
  · rw [hdone] at hstack
    cases hstack

def sampleRow : LeaseRow := ⟨"192.168.0.131", "10:70:fd:b6:13:00", 3600, 7200, 1000⟩

/-- The same client, some time later. -/
def renewedRow : LeaseRow := { sampleRow with expire := 9000 }

/-- An update for each of two signals; the second activation sleeps first. -/
def twoUpdates : List LeaseEvent :=
  List.flatten [[.signal], List.replicate 10 .run, [.rewrite [sampleRow, renewedRow], .signal],
    List.replicate 12 .run]

theorem table_renewed :
    ∃ s : Lease, Run (Step id) Ok (start [sampleRow] []) twoUpdates s ∧
      s.stack = [] ∧ s.since = [[sampleRow, renewedRow]] ∧
      ∃ f ∈ s.since, Reflects f s.evaluated s.table := by
  obtain ⟨s, hrun, hsignal, hstack, hsince⟩ :
      ∃ s : Lease, Run (Step id) Ok (start [sampleRow] []) twoUpdates s ∧
        s.signalled = true ∧ s.stack = [] ∧ s.since = [[sampleRow, renewedRow]] :=
    exists_run (step_next id) (by decide +kernel)
  exact ⟨s, hrun, hstack, hsince, table_of_run iterOrder_id _ _ hrun hsignal hstack⟩

/-! ## A signal that is lost -/

/-- The file is rewritten when it has been read, and the activation for the signal finds the lock
    taken. -/
def lostSignal : List LeaseEvent :=
  List.flatten [[.signal], List.replicate 4 .run, [.rewrite [sampleRow, renewedRow], .signal],
    List.replicate 3 .run, List.replicate 6 .run]

/-- All activations are finished, and the table is that of the file before the last signal. -/
theorem table_stale :
    ∃ s : Lease, Run (Step id) (fun _ _ => True) (start [sampleRow] []) lostSignal s ∧
      s.signalled = true ∧ s.stack = [] ∧ s.since = [[sampleRow, renewedRow]] ∧
      ∀ f ∈ s.since, ¬ Reflects f s.evaluated s.table := by
  obtain ⟨s, hrun, hsignal, hstack, hsince, htable, htime⟩ :
      ∃ s : Lease, Run (Step id) (fun _ _ => True) (start [sampleRow] []) lostSignal s ∧
        s.signalled = true ∧ s.stack = [] ∧ s.since = [[sampleRow, renewedRow]] ∧
        s.table = [(sampleRow.key, sampleRow.entry)] ∧ s.evaluated sampleRow.key = 0 :=
    exists_run (step_next id) (by decide +kernel)
  refine ⟨s, hrun, hsignal, hstack, hsince, fun f hf hreflects => ?_⟩
  rw [hsince, List.mem_singleton] at hf
  have hlease := hreflects.leases 1000 "10:70:fd:b6:13:00"
  rw [hf, htable, show leaseKey 1000 "10:70:fd:b6:13:00" = sampleRow.key from rfl, htime] at hlease
  exact absurd hlease (by decide +kernel)

end Lease

end SonicBuildimage.DhcpUtilities
