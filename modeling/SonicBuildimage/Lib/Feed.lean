/-
  A table of a database with a subscriber that is told of its changes.

  A notification names a key and says that its row was set or deleted.  The subscriber takes
  the notifications later; a set is then delivered with the row that was set or with the row
  that is there at that time (`current`), and is dropped in the second case if there is none.
  Who subscribes is told of all rows first.

  What a subscriber can rely on, however the rows are delivered: for every key it is told of,
  one of the deliveries is what became of the row in the end (`mem_deliver`).
-/
import SonicBuildimage.Lib.PyDict

namespace SonicBuildimage.Lib

/-- What a notification says about a row. -/
inductive FeedOp (ν : Type) where
  | set (row : ν)
  | del
  deriving DecidableEq

def FeedOp.map {ν μ : Type} (f : ν → μ) : FeedOp ν → FeedOp μ
  | .set row => .set (f row)
  | .del => .del

structure Feed (κ ν : Type) where
  rows : Dict κ ν
  nodup : (Dict.keys rows).Nodup
  /-- the notifications that have not been taken yet; `none` without a subscriber -/
  queue : Option (List (κ × FeedOp ν))

namespace Feed

section Queue

variable {κ ν : Type}

/-! ## Subscribing -/

def subscribe (f : Feed κ ν) : Feed κ ν :=
  { f with queue := some (f.rows.map fun e => (e.1, .set e.2)) }

def unsubscribe (f : Feed κ ν) : Feed κ ν := { f with queue := none }

def subscribed (f : Feed κ ν) : Bool := f.queue.isSome

/-- Subscribe or unsubscribe, where that is not so yet. -/
def setSubscribed (f : Feed κ ν) (wanted : Bool) : Feed κ ν :=
  if wanted then if f.subscribed then f else f.subscribe
  else if f.subscribed then f.unsubscribe else f

/-- All notifications have been taken. -/
def drain (f : Feed κ ν) : Feed κ ν := { f with queue := f.queue.map fun _ => [] }

/-- The notifications to be taken. -/
def events (f : Feed κ ν) : List (κ × FeedOp ν) := f.queue.getD []

/-- The keys the subscriber will be told of. -/
def touched (f : Feed κ ν) : List κ := f.events.map Prod.fst

@[simp] theorem rows_subscribe (f : Feed κ ν) : f.subscribe.rows = f.rows := rfl

@[simp] theorem rows_unsubscribe (f : Feed κ ν) : f.unsubscribe.rows = f.rows := rfl

@[simp] theorem rows_drain (f : Feed κ ν) : f.drain.rows = f.rows := rfl

@[simp] theorem events_drain (f : Feed κ ν) : f.drain.events = [] := by
  unfold drain events
  cases f.queue with
  | none => rfl
  | some q => rfl

@[simp] theorem subscribed_drain (f : Feed κ ν) : f.drain.subscribed = f.subscribed := by
  unfold drain subscribed
  cases f.queue with
  | none => rfl
  | some q => rfl

theorem setSubscribed_cases (f : Feed κ ν) (wanted : Bool) :
    f.setSubscribed wanted = f ∨ (f.subscribed = false ∧ f.setSubscribed wanted = f.subscribe) ∨
      (wanted = false ∧ f.setSubscribed wanted = f.unsubscribe) := by
  unfold setSubscribed
  cases wanted with
  | true =>
    cases hsub : f.subscribed with
    | true => exact Or.inl rfl
    | false => exact Or.inr (Or.inl ⟨rfl, rfl⟩)
  | false =>
    cases hsub : f.subscribed with
    | true => exact Or.inr (Or.inr ⟨rfl, rfl⟩)
    | false => exact Or.inl rfl

@[simp] theorem rows_setSubscribed (f : Feed κ ν) (wanted : Bool) :
    (f.setSubscribed wanted).rows = f.rows := by
  rcases f.setSubscribed_cases wanted with h | ⟨-, h⟩ | ⟨-, h⟩
  · rw [h]
  · rw [h, rows_subscribe]
  · rw [h, rows_unsubscribe]

theorem events_of_not_subscribed {f : Feed κ ν} (h : f.subscribed = false) : f.events = [] := by
  unfold subscribed at h
  unfold events
  rw [Option.isSome_eq_false_iff, Option.isNone_iff_eq_none] at h
  rw [h]
  rfl

end Queue

variable {κ ν : Type} [DecidableEq κ]

/-! ## Changes -/

/-- Tell the subscriber, if there is one. -/
def notify (f : Feed κ ν) (k : κ) (op : FeedOp ν) : Option (List (κ × FeedOp ν)) :=
  f.queue.map fun q => q ++ [(k, op)]

def put (f : Feed κ ν) (k : κ) (row : ν) : Feed κ ν where
  rows := Dict.set f.rows k row
  nodup := Dict.keys_set_nodup f.nodup k row
  queue := f.notify k (.set row)

/-- There is a notification only if there is a row to delete. -/
def remove (f : Feed κ ν) (k : κ) : Feed κ ν where
  rows := Dict.erase f.rows k
  nodup := Dict.keys_filter_nodup f.nodup _
  queue := if k ∈ Dict.keys f.rows then f.notify k .del else f.queue

/-- A change of one row. -/
def change (f : Feed κ ν) (k : κ) : Option ν → Feed κ ν
  | some row => f.put k row
  | none => f.remove k

/-- What became of the row of a key. -/
def current (f : Feed κ ν) (k : κ) : FeedOp ν :=
  match Dict.get? f.rows k with
  | some row => .set row
  | none => .del

@[simp] theorem rows_put (f : Feed κ ν) (k : κ) (row : ν) :
    (f.put k row).rows = Dict.set f.rows k row := rfl

@[simp] theorem rows_remove (f : Feed κ ν) (k : κ) :
    (f.remove k).rows = Dict.erase f.rows k := rfl

theorem subscribed_change (f : Feed κ ν) (k : κ) (row : Option ν) :
    (f.change k row).subscribed = f.subscribed := by
  have hnotify : ∀ op, (f.notify k op).isSome = f.queue.isSome := by
    intro op
    unfold notify
    rw [Option.isSome_map]
  cases row with
  | some row => exact hnotify _
  | none =>
    unfold change remove subscribed
    dsimp only
    split
    · exact hnotify _
    · rfl

/-- The rows of other keys are not changed. -/
theorem get?_change_ne (f : Feed κ ν) {k k' : κ} (row : Option ν) (h : k ≠ k') :
    Dict.get? (f.change k row).rows k' = Dict.get? f.rows k' := by
  cases row with
  | some row => exact Dict.get?_set_ne _ _ h
  | none => exact Dict.get?_erase_ne _ h

theorem get?_change_self (f : Feed κ ν) (k : κ) (row : Option ν) :
    Dict.get? (f.change k row).rows k = row := by
  cases row with
  | some row => exact Dict.get?_set_self _ _ _
  | none => exact Dict.get?_erase_self _ _

theorem current_change_ne (f : Feed κ ν) {k k' : κ} (row : Option ν) (h : k ≠ k') :
    (f.change k row).current k' = f.current k' := by
  unfold current
  rw [get?_change_ne f row h]

/-- What a change does to the notifications: a subscriber is told what became of the row, unless
    a row is deleted that is not there. -/
theorem events_change (f : Feed κ ν) (k : κ) (row : Option ν) :
    (f.subscribed = true ∧
      (f.change k row).events = f.events ++ [(k, (f.change k row).current k)]) ∨
    (f.subscribed = false ∧ (f.change k row).events = []) ∨
    ((f.change k row).events = f.events ∧ (f.change k row).rows = f.rows ∧
      Dict.get? f.rows k = none) := by
  have hnotify : ∀ op, f.notify k op = f.queue.map fun q => q ++ [(k, op)] := fun _ => rfl
  unfold events subscribed
  cases row with
  | some row =>
    have hcurrent : (f.change k (some row)).current k = .set row := by
      unfold current
      rw [change, rows_put, Dict.get?_set_self]
    rw [hcurrent]
    change _ ∧ (f.notify k (.set row)).getD [] = _ ∨ _ ∧ (f.notify k (.set row)).getD [] = _ ∨ _
    rw [hnotify]
    cases f.queue with
    | none => exact Or.inr (Or.inl ⟨rfl, rfl⟩)
    | some q => exact Or.inl ⟨rfl, rfl⟩
  | none =>
    by_cases hk : k ∈ Dict.keys f.rows
    · have hcurrent : (f.change k none).current k = .del := by
        unfold current
        rw [change, rows_remove, Dict.get?_erase_self]
      have hqueue : (f.change k none).queue = f.queue.map fun q => q ++ [(k, .del)] := if_pos hk
      rw [hcurrent, hqueue]
      cases f.queue with
      | none => exact Or.inr (Or.inl ⟨rfl, rfl⟩)
      | some q => exact Or.inl ⟨rfl, rfl⟩
    · have hqueue : (f.change k none).queue = f.queue := if_neg hk
      have hrows : (f.change k none).rows = f.rows :=
        List.filter_eq_self.2 fun e he => by
          have hne : e.1 ≠ k := fun h => hk (h ▸ List.mem_map_of_mem he)
          simpa using hne
      rw [Dict.mem_keys_iff, not_not] at hk
      exact Or.inr (Or.inr ⟨by rw [hqueue], hrows, hk⟩)

theorem touched_change {f : Feed κ ν} {k k' : κ} (row : Option ν) (h : k' ∈ f.touched) :
    k' ∈ (f.change k row).touched := by
  unfold touched at *
  rcases f.events_change k row with ⟨-, hevents⟩ | ⟨hsub, -⟩ | ⟨hevents, -⟩
  · rw [hevents, List.map_append]
    exact List.mem_append_left _ h
  · rw [events_of_not_subscribed hsub] at h
    exact absurd h List.not_mem_nil
  · rw [hevents]
    exact h

/-- A subscriber is told of a change. -/
theorem told_of_change {f : Feed κ ν} (hsub : f.subscribed = true) (k : κ) (row : Option ν) :
    k ∈ (f.change k row).touched ∨
      ((f.change k row).rows = f.rows ∧ (f.change k row).events = f.events) := by
  unfold touched
  rcases f.events_change k row with ⟨-, hevents⟩ | ⟨hsub', -⟩ | ⟨hevents, hrows, -⟩
  · rw [hevents]
    exact Or.inl (by simp)
  · exact absurd (hsub.symm.trans hsub') (by decide)
  · exact Or.inr ⟨hrows, hevents⟩

/-! ## Deliveries -/

/-- A notification as it is delivered with the row that is there at that time. -/
def late (f : Feed κ ν) : κ × FeedOp ν → Option (κ × FeedOp ν)
  | (k, .set _) => (Dict.get? f.rows k).map fun row => (k, .set row)
  | (k, .del) => some (k, .del)

/-- What the subscriber gets; `fresh` says which of the notifications are delivered late. -/
def deliver (f : Feed κ ν) (fresh : Nat → Bool) : List (κ × FeedOp ν) :=
  f.events.zipIdx.filterMap fun e => if fresh e.2 then f.late e.1 else some e.1

/-- For every key with a notification there is one that says what became of its row. -/
def Reflects (f : Feed κ ν) : Prop := ∀ k ∈ f.touched, (k, f.current k) ∈ f.events

theorem late_current (f : Feed κ ν) (k : κ) : f.late (k, f.current k) = some (k, f.current k) := by
  unfold current
  cases h : Dict.get? f.rows k with
  | none => rfl
  | some row => simp [late, h]

theorem mem_deliver {f : Feed κ ν} (hf : f.Reflects) {k : κ} (hk : k ∈ f.touched)
    (fresh : Nat → Bool) : (k, f.current k) ∈ f.deliver fresh := by
  obtain ⟨i, hi⟩ := List.mem_iff_getElem?.1 (hf k hk)
  refine List.mem_filterMap.2
    ⟨((k, f.current k), i), List.mk_mem_zipIdx_iff_getElem?.2 hi, ?_⟩
  dsimp only
  split
  · exact f.late_current k
  · rfl

theorem reflects_change {f : Feed κ ν} (hf : f.Reflects) (k : κ) (row : Option ν) :
    (f.change k row).Reflects := by
  intro k' hk'
  unfold touched at hk'
  rcases f.events_change k row with ⟨-, hevents⟩ | ⟨-, hevents⟩ | ⟨hevents, hrows, -⟩
  · by_cases hkk : k = k'
    · subst hkk
      rw [hevents]
      exact List.mem_append_right _ List.mem_cons_self
    · rw [hevents, List.map_append, List.mem_append] at hk'
      have hmem : k' ∈ f.touched := hk'.resolve_right (by simpa using Ne.symm hkk)
      rw [hevents, current_change_ne f row hkk]
      exact List.mem_append_left _ (hf k' hmem)
  · rw [hevents] at hk'
    exact absurd hk' List.not_mem_nil
  · rw [hevents] at hk'
    unfold current
    rw [hevents, hrows]
    exact hf k' hk'

theorem reflects_subscribe (f : Feed κ ν) : f.subscribe.Reflects := by
  intro k hk
  have hmem : k ∈ Dict.keys f.rows := by
    unfold touched events subscribe at hk
    simpa [Dict.keys] using hk
  obtain ⟨row, hrow⟩ := Option.ne_none_iff_exists'.1 ((Dict.mem_keys_iff _ _).1 hmem)
  have hcurrent : f.subscribe.current k = .set row := by
    unfold current
    rw [rows_subscribe, hrow]
  rw [hcurrent]
  exact List.mem_map.2 ⟨(k, row), Dict.mem_of_get? hrow, rfl⟩

theorem reflects_of_events {f : Feed κ ν} (h : f.events = []) : f.Reflects := by
  intro k hk
  unfold touched at hk
  rw [h] at hk
  exact absurd hk List.not_mem_nil

theorem reflects_setSubscribed {f : Feed κ ν} (hf : f.Reflects) (wanted : Bool) :
    (f.setSubscribed wanted).Reflects := by
  rcases f.setSubscribed_cases wanted with h | ⟨-, h⟩ | ⟨-, h⟩
  · rw [h]
    exact hf
  · rw [h]
    exact reflects_subscribe f
  · rw [h]
    exact reflects_of_events rfl

end Feed

end SonicBuildimage.Lib
