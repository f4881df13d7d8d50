/-
  The `Manager` of bgpcfgd (`bgpcfgd/manager.py`) on top of the `Directory`
  (`bgpcfgd/directory.py`): SET messages wait in `set_queue` until the dependencies of the
  manager are in the directory, and while its `set_handler` rejects them.

  Model (read this before the theorems).
  * The manager is a parameter: a state, a `set_handler` that either applies the data of
    the key and returns true or leaves what is applied alone and returns false, and a
    `del_handler` that unapplies the key (`Handlers`). Both may read the directory.
  * `notify` counts how often the manager is subscribed to a path; a put calls
    `on_deps_change` once for each of them.
  * `accepted` is the list of the SETs that `set_handler` returned true for. No function
    of the source reads it.
  * `none` is an uncaught exception: `in` and `[]` on a value that is not a dictionary.

  A DEL is handled at once and leaves older SETs of its key in the queue, and so does a
  SET that is accepted while an older one was rejected. When the queue is replayed the
  older SET wins (`deleted_key_comes_back`). `last_operation_wins`: in every run in which
  nothing is applied past an older queued SET of its key (`NoOvertake`), once the
  dependencies are there and the queue is empty every key has the data of its last
  message. That no SET is lost or replayed holds in every run (`sets_accounted`).
-/
import SonicBuildimage.Lib.NestedDict
import SonicBuildimage.Lib.PyStr
import SonicBuildimage.Lib.Run

namespace SonicBuildimage.Bgpcfgd

open SonicBuildimage.Lib

/-! ## Directory -/

/-- A value in the directory. -/
inductive Val where
  | text (s : String)
  | dict (items : List (String × Val))
  /-- A value that has no `in`, such as a Boolean. -/
  | atom

/-- `self.data` by slot name, and the subscriptions of the manager by slot name and path. -/
structure Directory where
  data : Dict String (Dict String Val) := []
  notify : Dict String (Dict String Nat) := []

namespace Directory

/-- `get_slot_name`. -/
def getSlotName (db table : String) : String := db ++ "__" ++ table

/-- The loop of `path_traverse`; the outer `none` is a `TypeError`. -/
def traverse : Val → List String → Option (Option Val)
  | d, [] => some (some d)
  | .dict items, p :: ps =>
    match items.lookup p with
    | none => some none
    | some d => traverse d ps
  -- `p in d` looks for a substring, and `d[p]` raises
  | .text s, p :: _ => if p.toList <:+: s.toList then none else some none
  | .atom, _ :: _ => none

/-- `path_traverse`. -/
def pathTraverse (dir : Directory) (slot path : String) : Option (Option Val) :=
  match dir.data.get? slot with
  | none => some none
  | some d => if path = "" then some (some (.dict d)) else traverse (.dict d) (split '/' path)

/-- `path_exist`. -/
def pathExist (dir : Directory) (db table path : String) : Option Bool :=
  (dir.pathTraverse (getSlotName db table) path).map Option.isSome

/-- `available_deps`: `and` does not look at a path after a missing one. -/
def availableDeps (dir : Directory) (deps : List (String × String × String)) : Option Bool :=
  deps.foldlM (fun res dep => if res then dir.pathExist dep.1 dep.2.1 dep.2.2 else some false) true

/-- `subscribe`. -/
def subscribe (dir : Directory) (deps : List (String × String × String)) : Directory :=
  { dir with
    notify := deps.foldl (fun notify dep =>
      let slot := getSlotName dep.1 dep.2.1
      let paths := notify.getD slot []
      notify.set slot (paths.set dep.2.2 (paths.getD dep.2.2 0 + 1))) dir.notify }

/-- `self.data[slot][key] = value`. -/
def store (dir : Directory) (slot key : String) (value : Val) : Directory :=
  { dir with data := dir.data.set slot ((dir.data.getD slot []).set key value) }

/-- `remove`. -/
def remove (dir : Directory) (db table key : String) : Directory :=
  let slot := getSlotName db table
  match dir.data.get? slot with
  | none => dir
  | some d => { dir with data := dir.data.set slot (d.erase key) }

/-- `remove_slot`. -/
def removeSlot (dir : Directory) (db table : String) : Directory :=
  { dir with data := dir.data.erase (getSlotName db table) }

/-- `get_slot(db, table).get(key)`. -/
def lookup (dir : Directory) (db table key : String) : Option Val :=
  dir.data.lookup2 (getSlotName db table) key

theorem lookup_store (dir : Directory) (slot key db table key' : String) (value : Val) :
    (dir.store slot key value).lookup db table key' =
      if (slot, key) = (getSlotName db table, key') then some value
      else dir.lookup db table key' :=
  Dict.lookup2_set2 dir.data _ _ _ _ value

theorem lookup_remove (dir : Directory) (db table key db' table' key' : String) :
    (dir.remove db table key).lookup db' table' key' =
      if (getSlotName db table, key) = (getSlotName db' table', key') then none
      else dir.lookup db' table' key' := by
  unfold lookup Dict.lookup2
  cases hget : dir.data.get? (getSlotName db table) with
  | none =>
    have hremove : dir.remove db table key = dir := by simp only [remove, hget]
    by_cases hkeys : (getSlotName db table, key) = (getSlotName db' table', key')
    · rw [if_pos hkeys, ← (Prod.mk.inj hkeys).1, hremove, Dict.getD, hget]
      rfl
    · rw [if_neg hkeys, hremove]
  | some d =>
    have hremove : (dir.remove db table key).data =
        dir.data.set (getSlotName db table) (d.erase key) := by simp only [remove, hget]
    rw [hremove]
    by_cases hslot : getSlotName db table = getSlotName db' table'
    · have hgetD : Dict.getD dir.data (getSlotName db' table') [] = d := by
        rw [← hslot, Dict.getD, hget]; rfl
      simp only [hslot, hgetD, Dict.getD_set_self, Dict.get?_erase, Prod.mk.injEq, true_and]
    · rw [Dict.getD_set_ne _ _ _ hslot, if_neg fun h => hslot (Prod.mk.inj h).1]

end Directory

/-! ## Manager -/

/-- A manager: its state, its two handlers, and what is applied for each key. -/
structure Handlers (σ κ δ : Type) [DecidableEq κ] where
  setHandler : Directory → σ → κ → δ → σ × Bool
  delHandler : Directory → σ → κ → σ
  applied : σ → κ → Option δ
  set_applies : ∀ dir a k d, (setHandler dir a k d).2 = true → ∀ k',
    applied (setHandler dir a k d).1 k' = if k = k' then some d else applied a k'
  set_rejects : ∀ dir a k d, (setHandler dir a k d).2 = false →
    applied (setHandler dir a k d).1 = applied a
  del_unapplies : ∀ dir a k k',
    applied (delHandler dir a k) k' = if k = k' then none else applied a k'

/-- The manager with its queue, and the directory. -/
structure MgrState (σ κ δ : Type) where
  dir : Directory
  setQueue : List (κ × δ)
  app : σ
  accepted : List (κ × δ)

/-- `op` of a message. -/
inductive Op where
  | set
  | del
  | invalid
deriving DecidableEq

/-- A message for the manager, or a change of the directory by anyone. -/
inductive MgrEvent (κ δ : Type) where
  | message (key : κ) (op : Op) (data : δ)
  | put (db table key : String) (value : Val)
  | remove (db table key : String)
  | removeSlot (db table : String)

section Manager

variable {σ κ δ : Type} [DecidableEq κ] (H : Handlers σ κ δ)
  (deps : List (String × String × String))

/-- `Manager.handler`. -/
def handler (st : MgrState σ κ δ) (key : κ) (op : Op) (data : δ) : Option (MgrState σ κ δ) :=
  match op with
  | .set => do
    if ← st.dir.availableDeps deps then
      let (a, res) := H.setHandler st.dir st.app key data
      if res then return { st with app := a, accepted := st.accepted ++ [(key, data)] }
      else return { st with app := a, setQueue := st.setQueue ++ [(key, data)] }
    else
      return { st with setQueue := st.setQueue ++ [(key, data)] }
  | .del => some { st with app := H.delHandler st.dir st.app key }
  | .invalid => some st

/-- One iteration of the loop of `on_deps_change`: the state, `new_queue` and the accepted
    SETs. -/
def replayItem (dir : Directory) (acc : σ × List (κ × δ) × List (κ × δ)) (item : κ × δ) :
    σ × List (κ × δ) × List (κ × δ) :=
  let (a, newQueue, accepted) := acc
  let (a, res) := H.setHandler dir a item.1 item.2
  if res then (a, newQueue, accepted ++ [item]) else (a, newQueue ++ [item], accepted)

/-- `Manager.on_deps_change`. -/
def onDepsChange (st : MgrState σ κ δ) : Option (MgrState σ κ δ) := do
  if ← st.dir.availableDeps deps then
    let (a, newQueue, accepted) :=
      st.setQueue.foldl (replayItem H st.dir) (st.app, [], st.accepted)
    return { st with app := a, setQueue := newQueue, accepted := accepted }
  else
    return st

/-- The handlers of one path: `on_deps_change`, as often as it is subscribed. -/
def callHandlers : Nat → MgrState σ κ δ → Option (MgrState σ κ δ)
  | 0, st => some st
  | n + 1, st => (onDepsChange H deps st).bind (callHandlers n)

/-- One iteration over the paths of the slot. -/
def notifyPath (db table : String) (st : MgrState σ κ δ) (entry : String × Nat) :
    Option (MgrState σ κ δ) := do
  if ← st.dir.pathExist db table entry.1 then callHandlers H deps entry.2 st else return st

/-- `Directory.put`. -/
def put (st : MgrState σ κ δ) (db table key : String) (value : Val) :
    Option (MgrState σ κ δ) :=
  let slot := Directory.getSlotName db table
  let st := { st with dir := st.dir.store slot key value }
  match st.dir.notify.get? slot with
  | none => some st
  | some paths => paths.foldlM (notifyPath H deps db table) st

/-- One event. -/
def mgrHandle (st : MgrState σ κ δ) : MgrEvent κ δ → Option (MgrState σ κ δ)
  | .message key op data => handler H deps st key op data
  | .put db table key value => put H deps st db table key value
  | .remove db table key => some { st with dir := st.dir.remove db table key }
  | .removeSlot db table => some { st with dir := st.dir.removeSlot db table }

/-- `Manager.__init__` on a directory. -/
def mgrInit (dir : Directory) (a : σ) : MgrState σ κ δ :=
  ⟨dir.subscribe deps, [], a, []⟩

/-! ## What is expected -/

/-- The data of the last message of each key after one more event. -/
def record (last : κ → Option δ) : MgrEvent κ δ → κ → Option δ
  | .message key .set data => Function.update last key (some data)
  | .message key .del _ => Function.update last key none
  | _ => last

theorem record_set (last : κ → Option δ) (key : κ) (data : δ) :
    record last (.message key .set data) = Function.update last key (some data) := rfl

theorem record_del (last : κ → Option δ) (key : κ) (data : δ) :
    record last (.message key .del data) = Function.update last key none := rfl

/-- The data of the last message of each key; none after a DEL. -/
def lastData (es : List (MgrEvent κ δ)) : κ → Option δ := es.foldl record fun _ => none

/-- The SETs among the messages. -/
def setsOf (es : List (MgrEvent κ δ)) : List (κ × δ) :=
  es.filterMap fun e =>
    match e with
    | .message key .set data => some (key, data)
    | _ => none

/-! ## No overtaking -/

/-- No SET of the queue is accepted as the newest one of its key while an older one of the key
    has been rejected; `newQueue` holds the ones rejected so far. -/
def ReplayOk (dir : Directory) : σ → List (κ × δ) → List (κ × δ) → Prop
  | _, _, [] => True
  | a, newQueue, item :: queue =>
    ((H.setHandler dir a item.1 item.2).2 = true → item.1 ∉ queue.map Prod.fst →
      item.1 ∉ newQueue.map Prod.fst) ∧
    ReplayOk dir (H.setHandler dir a item.1 item.2).1
      (if (H.setHandler dir a item.1 item.2).2 then newQueue else newQueue ++ [item]) queue

instance decidableReplayOk (dir : Directory) :
    (a : σ) → (newQueue queue : List (κ × δ)) → Decidable (ReplayOk H dir a newQueue queue)
  | _, _, [] => inferInstanceAs (Decidable True)
  | a, newQueue, item :: queue =>
    have := decidableReplayOk dir (H.setHandler dir a item.1 item.2).1
      (if (H.setHandler dir a item.1 item.2).2 then newQueue else newQueue ++ [item]) queue
    inferInstanceAs (Decidable ((_ → _ → _) ∧ _))

/-- `ReplayOk` for one call of `on_deps_change`. -/
def DepsOk (st : MgrState σ κ δ) : Prop :=
  st.dir.availableDeps deps = some true → ReplayOk H st.dir st.app [] st.setQueue

instance (st : MgrState σ κ δ) : Decidable (DepsOk H deps st) :=
  inferInstanceAs (Decidable (_ → _))

/-- `DepsOk` for the calls of one path. -/
def CallsOk : Nat → MgrState σ κ δ → Prop
  | 0, _ => True
  | n + 1, st => DepsOk H deps st ∧ ∀ st' ∈ onDepsChange H deps st, CallsOk n st'

instance decidableCallsOk : (n : Nat) → (st : MgrState σ κ δ) → Decidable (CallsOk H deps n st)
  | 0, _ => inferInstanceAs (Decidable True)
  | n + 1, _ =>
    have := decidableCallsOk n
    inferInstanceAs (Decidable (_ ∧ ∀ st' ∈ _, _))

/-- `DepsOk` for all calls of a put. -/
def NotifyOk (db table : String) : List (String × Nat) → MgrState σ κ δ → Prop
  | [], _ => True
  | entry :: paths, st =>
    (st.dir.pathExist db table entry.1 = some true → CallsOk H deps entry.2 st) ∧
      ∀ st' ∈ notifyPath H deps db table st entry, NotifyOk db table paths st'

instance decidableNotifyOk (db table : String) : (paths : List (String × Nat)) →
    (st : MgrState σ κ δ) → Decidable (NotifyOk H deps db table paths st)
  | [], _ => inferInstanceAs (Decidable True)
  | _ :: paths, _ =>
    have := decidableNotifyOk db table paths
    inferInstanceAs (Decidable ((_ → _) ∧ ∀ st' ∈ _, _))

/-- Nothing is applied past an older queued SET of its key: a DEL finds none, a SET that is
    accepted at once finds none, and a replay accepts none past a rejected one. -/
def NoOvertake (st : MgrState σ κ δ) : MgrEvent κ δ → Prop
  | .message key .set data =>
    st.dir.availableDeps deps = some true → (H.setHandler st.dir st.app key data).2 = true →
      key ∉ st.setQueue.map Prod.fst
  | .message key .del _ => key ∉ st.setQueue.map Prod.fst
  | .put db table key value =>
    NotifyOk H deps db table (st.dir.notify.getD (Directory.getSlotName db table) [])
      { st with dir := st.dir.store (Directory.getSlotName db table) key value }
  | _ => True

instance (st : MgrState σ κ δ) (e : MgrEvent κ δ) : Decidable (NoOvertake H deps st e) :=
  match e with
  | .message _ .set _ => inferInstanceAs (Decidable (_ → _ → _))
  | .message _ .del _ => inferInstanceAs (Decidable (_ ∉ _))
  | .put _ _ _ _ => inferInstanceAs (Decidable (NotifyOk _ _ _ _ _ _))
  | .message _ .invalid _ | .remove _ _ _ | .removeSlot _ _ => inferInstanceAs (Decidable True)

/-! ## Queues of keyed data -/

/-- The data of the newest entry of the key. -/
def lastQueued : List (κ × δ) → κ → Option δ
  | [], _ => none
  | item :: queue, k => (lastQueued queue k).or (if item.1 = k then some item.2 else none)

theorem lastQueued_append (p q : List (κ × δ)) (k : κ) :
    lastQueued (p ++ q) k = (lastQueued q k).or (lastQueued p k) := by
  induction p with
  | nil => simp [lastQueued]
  | cons item p ih => rw [List.cons_append, lastQueued, ih, lastQueued, Option.or_assoc]

theorem lastQueued_eq_none {q : List (κ × δ)} {k : κ} :
    lastQueued q k = none ↔ k ∉ q.map Prod.fst := by
  induction q with
  | nil => simp [lastQueued]
  | cons item q ih =>
    rw [lastQueued, Option.or_eq_none_iff, ih, List.map_cons, List.mem_cons, not_or]
    by_cases h : item.1 = k
    · simp [h]
    · simp [h, Ne.symm h]

/-- What the key will have once the queue is applied in order. -/
def effective (a : σ) (q : List (κ × δ)) (k : κ) : Option δ :=
  (lastQueued q k).or (H.applied a k)

theorem effective_append (a : σ) (q : List (κ × δ)) (key : κ) (data : δ) (k : κ) :
    effective H a (q ++ [(key, data)]) k =
      if key = k then some data else effective H a q k := by
  unfold effective
  rw [lastQueued_append]
  by_cases h : key = k
  · simp [lastQueued, h]
  · simp [lastQueued, h]

/-! ## Loops -/

variable {H deps}

/-- An accepted SET leaves the queue: with nothing of its key before it, or something of its
    key after it, every key keeps what it will have. -/
theorem effective_accept {dir : Directory} {a : σ} {newQueue queue : List (κ × δ)}
    {item : κ × δ} (hres : (H.setHandler dir a item.1 item.2).2 = true)
    (hok : item.1 ∉ queue.map Prod.fst → item.1 ∉ newQueue.map Prod.fst) (k : κ) :
    effective H (H.setHandler dir a item.1 item.2).1 (newQueue ++ queue) k =
      effective H a (newQueue ++ item :: queue) k := by
  unfold effective
  rw [lastQueued_append, lastQueued_append, lastQueued, H.set_applies dir a _ _ hres]
  by_cases h : item.1 = k
  · subst h
    cases hq : lastQueued queue item.1 with
    | some d => simp
    | none =>
      rw [lastQueued_eq_none.2 (hok (lastQueued_eq_none.1 hq))]
      simp
  · simp [h]

theorem replayItem_accept {dir : Directory} {a : σ} {item : κ × δ}
    (h : (H.setHandler dir a item.1 item.2).2 = true) (newQueue accepted : List (κ × δ)) :
    replayItem H dir (a, newQueue, accepted) item =
      ((H.setHandler dir a item.1 item.2).1, newQueue, accepted ++ [item]) := by
  simp [replayItem, h]

theorem replayItem_reject {dir : Directory} {a : σ} {item : κ × δ}
    (h : (H.setHandler dir a item.1 item.2).2 = false) (newQueue accepted : List (κ × δ)) :
    replayItem H dir (a, newQueue, accepted) item =
      ((H.setHandler dir a item.1 item.2).1, newQueue ++ [item], accepted) := by
  simp [replayItem, h]

theorem replay_effective {dir : Directory} {queue newQueue accepted : List (κ × δ)} {a : σ}
    (hok : ReplayOk H dir a newQueue queue) (k : κ) :
    effective H (queue.foldl (replayItem H dir) (a, newQueue, accepted)).1
        (queue.foldl (replayItem H dir) (a, newQueue, accepted)).2.1 k =
      effective H a (newQueue ++ queue) k := by
  induction queue generalizing a newQueue accepted with
  | nil => simp
  | cons item queue ih =>
    obtain ⟨hitem, hrest⟩ := hok
    rw [List.foldl_cons]
    cases hres : (H.setHandler dir a item.1 item.2).2 with
    | true =>
      rw [hres, if_pos rfl] at hrest
      rw [replayItem_accept hres, ih hrest]
      exact effective_accept hres (hitem hres) k
    | false =>
      rw [hres, if_neg (by simp)] at hrest
      rw [replayItem_reject hres, ih hrest]
      unfold effective
      rw [H.set_rejects dir a _ _ hres, List.append_assoc, List.singleton_append]

/-- Every SET of the queue is accepted once or stays. -/
theorem replay_perm (H : Handlers σ κ δ) (dir : Directory) (queue newQueue accepted : List (κ × δ))
    (a : σ) :
    ((queue.foldl (replayItem H dir) (a, newQueue, accepted)).2.2 ++
      (queue.foldl (replayItem H dir) (a, newQueue, accepted)).2.1).Perm
      (accepted ++ newQueue ++ queue) := by
  induction queue generalizing a newQueue accepted with
  | nil => simp
  | cons item queue ih =>
    rw [List.foldl_cons]
    cases hres : (H.setHandler dir a item.1 item.2).2 with
    | true =>
      rw [replayItem_accept hres]
      refine (ih _ _ _).trans ?_
      rw [List.append_assoc, List.append_assoc, List.append_assoc, List.singleton_append]
      exact List.Perm.append_left _ List.perm_middle.symm
    | false =>
      rw [replayItem_reject hres]
      refine (ih _ _ _).trans ?_
      simp

/-- What replays of the queue do: every SET is accepted once or stays, and under `ok` every
    key keeps what it will have. -/
structure Replayed (H : Handlers σ κ δ) (ok : Prop) (st st' : MgrState σ κ δ) : Prop where
  perm : (st'.accepted ++ st'.setQueue).Perm (st.accepted ++ st.setQueue)
  eff : ok → ∀ k, effective H st'.app st'.setQueue k = effective H st.app st.setQueue k

theorem Replayed.refl (ok : Prop) (st : MgrState σ κ δ) : Replayed H ok st st :=
  ⟨List.Perm.refl _, fun _ _ => rfl⟩

theorem Replayed.trans {ok ok₁ ok₂ : Prop} {st st₁ st₂ : MgrState σ κ δ}
    (h : Replayed H ok₁ st st₁) (h' : Replayed H ok₂ st₁ st₂) (h₁ : ok → ok₁) (h₂ : ok → ok₂) :
    Replayed H ok st st₂ :=
  ⟨h'.perm.trans h.perm, fun hok k => (h'.eff (h₂ hok) k).trans (h.eff (h₁ hok) k)⟩

theorem onDepsChange_replayed {st st' : MgrState σ κ δ} (h : onDepsChange H deps st = some st') :
    Replayed H (DepsOk H deps st) st st' := by
  obtain ⟨ok, hdeps, h⟩ := Option.bind_eq_some_iff.1 h
  cases ok with
  | false =>
    rw [if_neg (by simp)] at h
    exact Option.some.inj h ▸ Replayed.refl _ st
  | true =>
    rw [if_pos rfl] at h
    obtain rfl := Option.some.inj h
    refine ⟨?_, fun hok k => ?_⟩
    · have hperm := replay_perm H st.dir st.setQueue [] st.accepted st.app
      rw [List.append_nil] at hperm
      exact hperm
    · exact replay_effective (hok hdeps) k

theorem callHandlers_replayed {n : Nat} {st st' : MgrState σ κ δ}
    (h : callHandlers H deps n st = some st') : Replayed H (CallsOk H deps n st) st st' := by
  induction n generalizing st with
  | zero => exact Option.some.inj h ▸ Replayed.refl _ st
  | succ n ih =>
    obtain ⟨st₁, h₁, h⟩ := Option.bind_eq_some_iff.1 h
    exact (onDepsChange_replayed h₁).trans (ih h) And.left fun hok => hok.2 st₁ h₁

theorem notifyPath_replayed {db table : String} {st st' : MgrState σ κ δ} {entry : String × Nat}
    (h : notifyPath H deps db table st entry = some st') :
    Replayed H (st.dir.pathExist db table entry.1 = some true → CallsOk H deps entry.2 st)
      st st' := by
  obtain ⟨ok, hex, h⟩ := Option.bind_eq_some_iff.1 h
  cases ok with
  | false =>
    rw [if_neg (by simp)] at h
    exact Option.some.inj h ▸ Replayed.refl _ st
  | true =>
    rw [if_pos rfl] at h
    have hr := callHandlers_replayed h
    exact ⟨hr.perm, fun hok => hr.eff (hok hex)⟩

theorem notify_replayed {db table : String} {paths : List (String × Nat)}
    {st st' : MgrState σ κ δ} (h : paths.foldlM (notifyPath H deps db table) st = some st') :
    Replayed H (NotifyOk H deps db table paths st) st st' := by
  induction paths generalizing st with
  | nil => exact Option.some.inj h ▸ Replayed.refl _ st
  | cons entry paths ih =>
    rw [List.foldlM_cons] at h
    obtain ⟨st₁, h₁, h⟩ := Option.bind_eq_some_iff.1 h
    exact (notifyPath_replayed h₁).trans (ih h) And.left fun hok => hok.2 st₁ h₁

theorem put_replayed {st st' : MgrState σ κ δ} {db table key : String} {value : Val}
    (h : put H deps st db table key value = some st') :
    Replayed H (NoOvertake H deps st (.put db table key value)) st st' := by
  unfold put at h
  dsimp only at h
  split at h
  · obtain rfl := Option.some.inj h
    exact ⟨List.Perm.refl _, fun _ _ => rfl⟩
  · next paths hpaths =>
    have hr := notify_replayed h
    refine ⟨hr.perm, fun hok => hr.eff ?_⟩
    have hget : st.dir.notify.getD (Directory.getSlotName db table) [] = paths := by
      unfold Dict.getD
      rw [show st.dir.notify.get? (Directory.getSlotName db table) = some paths from hpaths]
      rfl
    have hok : NotifyOk H deps db table (st.dir.notify.getD (Directory.getSlotName db table) [])
      { st with dir := st.dir.store (Directory.getSlotName db table) key value } := hok
    rw [hget] at hok
    exact hok

/-! ## Messages -/

/-- The outcomes of a SET: accepted, rejected, or the dependencies are not there. -/
theorem handler_set_cases {st st' : MgrState σ κ δ} {key : κ} {data : δ}
    (h : handler H deps st key .set data = some st') :
    (st.dir.availableDeps deps = some true ∧ (H.setHandler st.dir st.app key data).2 = true ∧
      st' = { st with
        app := (H.setHandler st.dir st.app key data).1
        accepted := st.accepted ++ [(key, data)] }) ∨
    (∃ a, H.applied a = H.applied st.app ∧
      st' = { st with app := a, setQueue := st.setQueue ++ [(key, data)] }) := by
  obtain ⟨ok, hdeps, h⟩ := Option.bind_eq_some_iff.1 h
  cases ok with
  | false =>
    rw [if_neg (by simp)] at h
    exact Or.inr ⟨st.app, rfl, (Option.some.inj h).symm⟩
  | true =>
    rw [if_pos rfl] at h
    dsimp only at h
    cases hres : (H.setHandler st.dir st.app key data).2 with
    | true =>
      rw [hres, if_pos rfl] at h
      exact Or.inl ⟨hdeps, rfl, (Option.some.inj h).symm⟩
    | false =>
      rw [hres, if_neg (by simp)] at h
      exact Or.inr ⟨_, H.set_rejects st.dir st.app key data hres, (Option.some.inj h).symm⟩

/-- One event keeps "every key will have the data of its last message". -/
theorem effective_step {st st' : MgrState σ κ δ} {e : MgrEvent κ δ} {last : κ → Option δ}
    (hinv : ∀ k, effective H st.app st.setQueue k = last k) (hok : NoOvertake H deps st e)
    (h : mgrHandle H deps st e = some st') (k : κ) :
    effective H st'.app st'.setQueue k = record last e k := by
  cases e with
  | message key op data =>
    cases op with
    | set =>
      rw [record_set, Function.update_apply]
      rcases handler_set_cases h with ⟨hdeps, hres, rfl⟩ | ⟨a, ha, rfl⟩
      · have hnone := lastQueued_eq_none.2 (hok hdeps hres)
        dsimp only
        rw [← hinv k]
        unfold effective
        rw [H.set_applies _ _ _ _ hres]
        by_cases hk : key = k
        · subst hk
          rw [hnone]
          simp
        · rw [if_neg hk, if_neg (Ne.symm hk)]
      · dsimp only
        rw [effective_append, ← hinv k]
        unfold effective
        rw [ha]
        simp only [eq_comm (a := k)]
    | del =>
      obtain rfl := Option.some.inj h
      have hnone := lastQueued_eq_none.2 hok
      dsimp only
      rw [record_del, Function.update_apply, ← hinv k]
      unfold effective
      rw [H.del_unapplies]
      by_cases hk : key = k
      · subst hk
        rw [hnone]
        simp
      · rw [if_neg hk, if_neg (Ne.symm hk)]
    | invalid =>
      obtain rfl := Option.some.inj h
      exact hinv k
  | put db table key value => exact ((put_replayed h).eff hok k).trans (hinv k)
  | remove db table key =>
    obtain rfl := Option.some.inj h
    exact hinv k
  | removeSlot db table =>
    obtain rfl := Option.some.inj h
    exact hinv k

/-- One event adds its SET to the accepted or the queued ones and changes nothing else. -/
theorem perm_step {st st' : MgrState σ κ δ} {e : MgrEvent κ δ}
    (h : mgrHandle H deps st e = some st') :
    (st'.accepted ++ st'.setQueue).Perm (st.accepted ++ st.setQueue ++ setsOf [e]) := by
  cases e with
  | message key op data =>
    cases op with
    | set =>
      rcases handler_set_cases h with ⟨_, _, rfl⟩ | ⟨a, _, rfl⟩
      · dsimp only
        rw [List.append_assoc, List.append_assoc]
        exact List.Perm.append_left _ (List.perm_append_comm : ([(key, data)] ++ _).Perm _)
      · dsimp only
        rw [← List.append_assoc]
        rfl
    | del =>
      obtain rfl := Option.some.inj h
      simp [setsOf]
    | invalid =>
      obtain rfl := Option.some.inj h
      simp [setsOf]
  | put db table key value =>
    have hperm := (put_replayed h).perm
    simpa [setsOf] using hperm
  | remove db table key =>
    obtain rfl := Option.some.inj h
    simp [setsOf]
  | removeSlot db table =>
    obtain rfl := Option.some.inj h
    simp [setsOf]

/-! ## Runs -/

/-- No SET is lost and none is replayed after it was accepted: the SETs received are those
    accepted, once each, and those in the queue. -/
theorem sets_accounted {ok : MgrState σ κ δ → MgrEvent κ δ → Prop} {dir : Directory} {a : σ}
    {es : List (MgrEvent κ δ)} {st : MgrState σ κ δ}
    (hrun : Run (fun s e s' => mgrHandle H deps s e = some s') ok (mgrInit deps dir a) es st) :
    (st.accepted ++ st.setQueue).Perm (setsOf es) := by
  refine hrun.history (P := fun es st => (st.accepted ++ st.setQueue).Perm (setsOf es))
    (fun es s e s' hperm _ h => ?_) (List.Perm.refl _)
  unfold setsOf at hperm ⊢
  rw [List.filterMap_append]
  exact (perm_step h).trans (hperm.append_right _)

/-- In every run of a manager in which nothing is applied past an older queued SET of its key,
    once the dependencies are there and the queue is empty every key has the data of its last
    message, none after a DEL; and every SET received was accepted exactly once or is queued. -/
theorem last_operation_wins (H : Handlers σ κ δ) (deps : List (String × String × String))
    {dir : Directory} {a : σ} (ha : ∀ k, H.applied a k = none) {es : List (MgrEvent κ δ)}
    {st : MgrState σ κ δ}
    (hrun : Run (fun s e s' => mgrHandle H deps s e = some s') (NoOvertake H deps)
      (mgrInit deps dir a) es st) :
    (st.dir.availableDeps deps = some true → st.setQueue = [] →
      ∀ k, H.applied st.app k = lastData es k) ∧
    (st.accepted ++ st.setQueue).Perm (setsOf es) := by
  have hinv : ∀ k, effective H st.app st.setQueue k = lastData es k := by
    refine hrun.history (P := fun es st => ∀ k, effective H st.app st.setQueue k = lastData es k)
      (fun es s e s' hs hok h k => ?_) (fun k => ?_)
    · unfold lastData
      rw [List.foldl_append]
      exact effective_step hs hok h k
    · exact ha k
  refine ⟨fun _ hq k => ?_, sets_accounted hrun⟩
  rw [← hinv k, hq]
  rfl

end Manager

/-! ## A manager that applies everything -/

/-- A table of texts. -/
def tableMgr : Handlers (Dict String String) String String where
  setHandler _ a k d := (a.set k d, true)
  delHandler _ a k := a.erase k
  applied a k := a.get? k
  set_applies _ a k d _ k' := Dict.get?_set a k k' d
  set_rejects _ _ _ _ h := absurd h (by simp)
  del_unapplies _ a k k' := Dict.get?_erase a k k'

/-- The dependency of most managers. -/
def asnDeps : List (String × String × String) :=
  [("CONFIG_DB", "DEVICE_METADATA", "localhost/bgp_asn")]

/-- The AS number becomes known. -/
def asnArrives : MgrEvent String String :=
  .put "CONFIG_DB" "DEVICE_METADATA" "localhost" (.dict [("bgp_asn", .text "65100")])

theorem last_operation_wins_queued :
    ∃ st, Run (fun s e s' => mgrHandle tableMgr asnDeps s e = some s')
        (NoOvertake tableMgr asnDeps) (mgrInit asnDeps {} [])
        [.message "k" .set "1", .message "k" .set "2", asnArrives] st ∧
      tableMgr.applied st.app "k" = some "2" := by
  refine exists_run_imp (fun _ _ _ h => h)
    (fun st => st.dir.availableDeps asnDeps = some true ∧ st.setQueue = []) (by decide +kernel) ?_
  rintro st hrun ⟨hdeps, hq⟩
  exact (last_operation_wins tableMgr asnDeps (fun _ => rfl) hrun).1 hdeps hq "k"

/-- A key whose SET waits for the dependencies is deleted, and comes back when they arrive. -/
theorem deleted_key_comes_back :
    ∃ st, Run (fun s e s' => mgrHandle tableMgr asnDeps s e = some s') (fun _ _ => True)
        (mgrInit asnDeps {} [])
        [.message "k" .set "1", .message "k" .del "", asnArrives] st ∧
      st.dir.availableDeps asnDeps = some true ∧ st.setQueue = [] ∧
      lastData [.message "k" .set "1", .message "k" .del "", asnArrives] "k" = none ∧
      tableMgr.applied st.app "k" = some "1" :=
  exists_run (fun _ _ _ h => h) (by decide +kernel)

end SonicBuildimage.Bgpcfgd
