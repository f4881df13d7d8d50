/-
  Failed commands of prefix lists: a row of PREFIX in `__update_bgp` of frrcfgd.py, delivered again
  after a delivery in which a command had failed.

  Model.  `PrefixLists`, with an outcome for each of the two commands of a delivery.  A command that
  fails leaves FRR as it was, and the row is not put into the cache (`STAT_FAIL`).  An entry whose
  command has failed is taken out of the list again, by a search that ignores the action.  `Sys.db`
  holds the rows of the deliveries in which no command failed.

  The change of an action is a deletion and an addition.  If only the addition fails, the entry is
  gone and the cache still has the old action: the row delivered again is a change of an entry that
  is not found, and nothing is added (`change_left_half`).

  Proved: `redelivery_agrees`.  In every run with any failures in which a row comes after its set
  and is delivered while no other row of the set stands for the same entry, a set keeps its mode,
  and no change is left between its deletion and its addition, a row that is then delivered with all
  its commands succeeding has its line and its entry with its action, and none if it is deleted.
-/
import SonicBuildimage.Frrcfgd.PrefixLists

namespace SonicBuildimage.Frrcfgd.PrefixLists.Retry

open SonicBuildimage.Lib

/-! ## Commands that fail -/

/-- What came of a command: not run, run and failed, or run and succeeded. -/
inductive Tried (α : Type) where
  | skipped
  | failed (s : State)
  | done (a : α)

def tryDelete (env : Env) (s : State) (k : RowKey) (l : MatchPrefixList) (succeeds : Bool) :
    Tried (State × MatchPrefixList) :=
  match deleteEntry env s k l with
  | none => .skipped
  | some r => if succeeds then .done r else .failed s

/-- `revert cached update on failure` -/
def revert (env : Env) (s : State) (k : RowKey) : State :=
  match s.daemon.prefixSetList.get? k.set with
  | none => s
  | some l =>
    match matchOf env l.af k.ipPfx k.range with
    | .error _ => s
    | .ok m => setEntries s k.set l (l.entries.eraseP (·.key = m))

def tryAdd (env : Env) (s : State) (k : RowKey) (l : MatchPrefixList) (action : String)
    (succeeds : Bool) : Tried State :=
  match addEntry env s k l action with
  | none => .skipped
  | some s' => if succeeds then .done s' else .failed (revert env { s' with frr := s.frr } k)

/-- The end of a row: the state, and whether no command failed. -/
def finish (s : State) (k : RowKey) (data : String) (op : Op) : Tried State → State × Bool
  | .skipped => (s, true)
  | .failed s' => (s', false)
  | .done s' => (updateCache s' k data op, true)

/-- A row of PREFIX, with the outcomes of the command that deletes and of the one that adds. -/
def updatePrefix (env : Env) (s : State) (k : RowKey) (action : Option String)
    (deletes adds : Bool) : State × Bool :=
  match s.daemon.prefixSetList.get? k.set with
  | none => (s, true)
  | some l =>
    match opOf (s.daemon.cache.get? k) action with
    | none => (s, true)
    | some (_, .none) => (s, true)
    | some (data, .add) => finish s k data .add (tryAdd env s k l data adds)
    | some (data, .delete) =>
      match tryDelete env s k l deletes with
      | .skipped => (s, true)
      | .failed s' => (s', false)
      | .done (s', _) => (updateCache s' k data .delete, true)
    | some (data, .update) =>
      match tryDelete env s k l deletes with
      | .skipped => (s, true)
      | .failed s' => (s', false)
      | .done (s', l') => finish s' k data .update (tryAdd env s' k l' data adds)

/-- A message with the outcomes of its commands. -/
structure Delivery where
  event : Event
  deletes : Bool
  adds : Bool

def handle (env : Env) (s : State) (d : Delivery) : State × Bool :=
  match d.event with
  | .setPrefixSet name mode => (setPrefixSet s name mode, true)
  | .delPrefixSet name => (deletePrefixSet s name, true)
  | .setPrefix k action => updatePrefix env s k action d.deletes d.adds
  | .delPrefix k => updatePrefix env s k none d.deletes d.adds

def next (env : Env) (s : Sys) (d : Delivery) : Option Sys :=
  let r := handle env s.state d
  some ⟨if r.2 then s.db.apply d.event else s.db, r.1⟩

def Step (env : Env) (s : Sys) (d : Delivery) (s' : Sys) : Prop := next env s d = some s'

/-- The row that a message is about, with its action. -/
def rowOf : Event → Option (RowKey × Option String)
  | .setPrefix k action => some (k, action)
  | .delPrefix k => some (k, none)
  | _ => none

/-- No change of an action is left between its two commands. -/
def Whole (db : Db) (k : RowKey) (action : Option String) (deletes adds : Bool) : Prop :=
  db.rows.get? k ≠ none → action ≠ none → deletes = true → adds = true

/-- A row is delivered after its set and while it is alone, and its change is not left half done. -/
def Ok (env : Env) (s : Sys) (d : Delivery) : Prop :=
  PrefixLists.Ok env s d.event ∧
    ∀ r ∈ rowOf d.event, Alone env s.db r.1 ∧ Whole s.db r.1 r.2 d.deletes d.adds

instance (db : Db) (k : RowKey) (action : Option String) (deletes adds : Bool) :
    Decidable (Whole db k action deletes adds) :=
  inferInstanceAs (Decidable (_ → _ → _ → _))

instance (env : Env) (s : Sys) (d : Delivery) : Decidable (Ok env s d) :=
  inferInstanceAs (Decidable (_ ∧ _))

/-! ## A delivery is an update, or changes nothing -/

/-- What came of a deletion; a failure leaves the state. -/
theorem tryDelete_cases (env : Env) (s : State) (k : RowKey) (l : MatchPrefixList)
    (succeeds : Bool) :
    (tryDelete env s k l succeeds = .skipped ∧ deleteEntry env s k l = none) ∨
      ∃ r, deleteEntry env s k l = some r ∧
        ((tryDelete env s k l succeeds = .done r ∧ succeeds = true) ∨
          (tryDelete env s k l succeeds = .failed s ∧ succeeds = false)) := by
  unfold tryDelete
  cases deleteEntry env s k l with
  | none => exact .inl ⟨rfl, rfl⟩
  | some r =>
    cases succeeds with
    | true => exact .inr ⟨r, rfl, .inl ⟨rfl, rfl⟩⟩
    | false => exact .inr ⟨r, rfl, .inr ⟨rfl, rfl⟩⟩

/-- What came of an addition; a failure reverts it. -/
theorem tryAdd_cases (env : Env) (s : State) (k : RowKey) (l : MatchPrefixList) (action : String)
    (succeeds : Bool) :
    (tryAdd env s k l action succeeds = .skipped ∧ addEntry env s k l action = none) ∨
      ∃ s₁, addEntry env s k l action = some s₁ ∧
        ((tryAdd env s k l action succeeds = .done s₁ ∧ succeeds = true) ∨
          (tryAdd env s k l action succeeds = .failed (revert env { s₁ with frr := s.frr } k) ∧
            succeeds = false)) := by
  unfold tryAdd
  cases addEntry env s k l action with
  | none => exact .inl ⟨rfl, rfl⟩
  | some s₁ =>
    cases succeeds with
    | true => exact .inr ⟨s₁, rfl, .inl ⟨rfl, rfl⟩⟩
    | false => exact .inr ⟨s₁, rfl, .inr ⟨rfl, rfl⟩⟩

/-- Without a failure the row is handled as if commands always succeeded. -/
theorem updatePrefix_succeeded {env : Env} {s : State} {k : RowKey} {action : Option String}
    {deletes adds : Bool} (h : (updatePrefix env s k action deletes adds).2 = true) :
    (updatePrefix env s k action deletes adds).1 = PrefixLists.updatePrefix env s k action := by
  unfold updatePrefix at h ⊢
  unfold PrefixLists.updatePrefix
  cases hl : s.daemon.prefixSetList.get? k.set with
  | none => rfl
  | some l =>
    simp only [hl] at h ⊢
    cases hop : opOf (s.daemon.cache.get? k) action with
    | none => rfl
    | some r =>
      obtain ⟨data, op⟩ := r
      cases op with
      | none => rfl
      | add =>
        simp only [hop] at h ⊢
        obtain ⟨ht, hadd⟩ | ⟨s₁, hadd, ⟨ht, -⟩ | ⟨ht, -⟩⟩ := tryAdd_cases env s k l data adds
        · rw [ht, hadd, finish]
        · rw [ht, hadd, finish]
        · simp [ht, finish] at h
      | delete =>
        simp only [hop] at h ⊢
        obtain ⟨ht, hdel⟩ | ⟨r, hdel, ⟨ht, -⟩ | ⟨ht, -⟩⟩ := tryDelete_cases env s k l deletes
        · rw [ht, hdel]
        · rw [ht, hdel]
        · simp [ht] at h
      | update =>
        simp only [hop] at h ⊢
        obtain ⟨ht, hdel⟩ | ⟨⟨s', l'⟩, hdel, ⟨ht, -⟩ | ⟨ht, -⟩⟩ := tryDelete_cases env s k l deletes
        · rw [ht, hdel]
        · simp only [ht, hdel] at h ⊢
          obtain ⟨ht', hadd⟩ | ⟨s₁, hadd, ⟨ht', -⟩ | ⟨ht', -⟩⟩ := tryAdd_cases env s' k l' data adds
          · rw [ht', hadd, finish]
          · rw [ht', hadd, finish]
          · simp [ht', finish] at h
        · simp [ht] at h

section Row

variable {env : Env} {s : Sys} {k : RowKey} {l : MatchPrefixList}

/-- The entry of a failed addition is found again, as no other is equal to it. -/
theorem revert_eq (h : Good env s) (hl : s.state.daemon.prefixSetList.get? k.set = some l)
    (hc : s.state.daemon.cache.get? k = none) (halone : Alone env s.db k) {action : String}
    {state : State} (hadd : addEntry env s.state k l action = some state) :
    revert env { state with frr := s.state.frr } k = s.state := by
  obtain ⟨m, hm⟩ : ∃ m, Fits env l.af k m := by
    by_contra hno
    rw [addEntry_not_fits (not_exists.1 hno)] at hadd
    cases hadd
  unfold addEntry at hadd
  rw [if_neg (not_not.2 hm.1), hm.2] at hadd
  obtain rfl := Option.some.inj hadd
  have hl' : (s.state.daemon.prefixSetList.set k.set
      { l with entries := l.entries ++ [⟨m, action⟩] }).get? k.set =
        some { l with entries := l.entries ++ [⟨m, action⟩] } := Dict.get?_set_self _ _ _
  -- the entries before were those of the other rows
  have hother : ∀ p ∈ l.entries, ¬p.key = m := by
    intro p hp
    rw [(h.tracks.entries k.set l hl).mem_iff] at hp
    rw [← setRow_of_get? ((h.cache_fits hl hm).symm.trans hc)] at hp
    exact halone.entries (h.af hl) hm p hp
  have herase : (l.entries ++ [(⟨m, action⟩ : MatchPrefix)]).eraseP (·.key = m) = l.entries := by
    rw [List.eraseP_append_right _ (by simpa using hother)]
    simp
  simp only [revert, setEntries, hl', hm.2, herase, Dict.set_set]
  rw [Dict.set_of_get? hl]

/-- After a failure the daemon and FRR are as before. -/
theorem updatePrefix_failed (h : Good env s) {action : Option String} {deletes adds : Bool}
    (halone : Alone env s.db k) (hwhole : Whole s.db k action deletes adds)
    (hfailed : (updatePrefix env s.state k action deletes adds).2 = false) :
    (updatePrefix env s.state k action deletes adds).1 = s.state := by
  unfold updatePrefix at hfailed ⊢
  cases hl : s.state.daemon.prefixSetList.get? k.set with
  | none => rfl
  | some l =>
    simp only [hl] at hfailed ⊢
    cases hc : s.state.daemon.cache.get? k with
    | none =>
      cases action with
      | none => rfl
      | some v =>
        simp only [hc, opOf] at hfailed ⊢
        obtain ⟨ht, -⟩ | ⟨s₁, hadd, ⟨ht, -⟩ | ⟨ht, -⟩⟩ := tryAdd_cases env s.state k l v adds
        · simp [ht, finish] at hfailed
        · simp [ht, finish] at hfailed
        · rw [ht]
          exact revert_eq h hl hc halone hadd
    | some c =>
      have hrow : s.db.rows.get? k ≠ none := by
        rw [((h.cache k c).1 hc).1]
        simp
      cases action with
      | none =>
        simp only [hc, opOf] at hfailed ⊢
        obtain ⟨ht, -⟩ | ⟨r, -, ⟨ht, -⟩ | ⟨ht, -⟩⟩ := tryDelete_cases env s.state k l deletes
        · simp [ht] at hfailed
        · simp [ht] at hfailed
        · rw [ht]
      | some v =>
        by_cases hv : v = c
        · simp [hc, opOf, hv] at hfailed
        · simp only [hc, opOf, if_neg hv] at hfailed ⊢
          obtain ⟨ht, -⟩ | ⟨⟨s', l'⟩, -, ⟨ht, hdeletes⟩ | ⟨ht, -⟩⟩ :=
            tryDelete_cases env s.state k l deletes
          · simp [ht] at hfailed
          · -- the deletion has succeeded, and so does the addition
            have hadds := hwhole hrow (by simp) hdeletes
            simp only [ht] at hfailed
            obtain ⟨ht', -⟩ | ⟨s₁, -, ⟨ht', -⟩ | ⟨-, hfalse⟩⟩ := tryAdd_cases env s' k l' v adds
            · simp [ht', finish] at hfailed
            · simp [ht', finish] at hfailed
            · rw [hadds] at hfalse
              exact absurd hfalse (by decide)
          · rw [ht]

end Row

/-! ## Runs -/

theorem handle_succeeded {env : Env} {s : State} {d : Delivery} (h : (handle env s d).2 = true) :
    (handle env s d).1 = PrefixLists.handle env s d.event := by
  unfold handle at h ⊢
  unfold PrefixLists.handle
  cases he : d.event with
  | setPrefixSet name mode => rfl
  | delPrefixSet name => rfl
  | setPrefix k action =>
    rw [he] at h
    exact updatePrefix_succeeded h
  | delPrefix k =>
    rw [he] at h
    exact updatePrefix_succeeded h

theorem handle_failed {env : Env} {s : Sys} {d : Delivery} (h : Good env s) (hok : Ok env s d)
    (hfailed : (handle env s.state d).2 = false) : (handle env s.state d).1 = s.state := by
  unfold handle at hfailed ⊢
  cases he : d.event with
  | setPrefixSet name mode => simp [he] at hfailed
  | delPrefixSet name => simp [he] at hfailed
  | setPrefix k action =>
    rw [he] at hfailed
    obtain ⟨halone, hwhole⟩ := hok.2 (k, action) (by rw [he]; rfl)
    exact updatePrefix_failed h halone hwhole hfailed
  | delPrefix k =>
    rw [he] at hfailed
    obtain ⟨halone, hwhole⟩ := hok.2 (k, none) (by rw [he]; rfl)
    exact updatePrefix_failed h halone hwhole hfailed

theorem good_step {env : Env} {s s' : Sys} {d : Delivery} (h : Good env s) (hok : Ok env s d)
    (hstep : Step env s d s') : Good env s' := by
  obtain rfl := Option.some.inj hstep
  cases hsucc : (handle env s.state d).2 with
  | true =>
    rw [if_pos rfl, handle_succeeded hsucc]
    exact h.step hok.1 rfl
  | false =>
    rw [if_neg (by decide), handle_failed h hok hsucc]
    exact h

/-- No command fails when its commands succeed. -/
theorem updatePrefix_commands (env : Env) (s : State) (k : RowKey) (action : Option String) :
    (updatePrefix env s k action true true).2 = true := by
  unfold updatePrefix
  cases s.daemon.prefixSetList.get? k.set with
  | none => rfl
  | some l =>
    dsimp only
    have hadd : ∀ s data l op, (finish s k data op (tryAdd env s k l data true)).2 = true := by
      intro s data l op
      unfold tryAdd
      cases addEntry env s k l data <;> rfl
    cases opOf (s.daemon.cache.get? k) action with
    | none => rfl
    | some r =>
      obtain ⟨data, op⟩ := r
      cases op with
      | none => rfl
      | add => exact hadd s data l .add
      | delete =>
        unfold tryDelete
        cases deleteEntry env s k l <;> rfl
      | update =>
        unfold tryDelete
        cases deleteEntry env s k l with
        | none => rfl
        | some r => exact hadd r.1 data r.2 .update

/-- The lines of the match of a row that is alone are those of its action. -/
theorem wants_iff {env : Env} {db : Db} (hrows : db.rows.keys.Nodup) {k : RowKey} {af : Af}
    {m : Match} (halone : Alone env db k) (haf : db.sets.get? k.set = some af)
    (hm : Fits env af k m) (action : Option String) (a : String) :
    (db.setRow k action).Wants env (af, k.set, ⟨a, m⟩) ↔ action.map String.toLower = some a := by
  have hmem : ∀ row, row ∈ (db.setRow k action).rows ↔
      (if k = row.1 then action else db.rows.get? row.1) = some row.2 := by
    intro row
    rw [← get?_setRow]
    exact (Dict.get?_eq_some_iff (rows_setRow_nodup hrows k action)).symm
  constructor
  · rintro ⟨row, hrow, hset, -, p, hentry, hline⟩
    rw [hmem] at hrow
    by_cases hk : k = row.1
    · rw [if_pos hk] at hrow
      rw [show row = (k, row.2) from Prod.ext hk.symm rfl, entryOf_fits hm] at hentry
      rw [← Option.some.inj hentry] at hline
      rw [hrow]
      exact congrArg some (congrArg Line.action hline)
    · rw [if_neg hk] at hrow
      have hmatch : m ∈ (matchOf env af k.ipPfx k.range).toOption := by
        rw [hm.2]
        rfl
      exact absurd (congrArg Line.key hline)
        (halone af haf row (Dict.mem_of_get? hrow) hset (Ne.symm hk) m hmatch p hentry)
  · intro ha
    obtain ⟨v, rfl, rfl⟩ := Option.map_eq_some_iff.1 ha
    refine ⟨(k, v), (hmem _).2 (if_pos rfl), rfl, ?_, ⟨m, v⟩, entryOf_fits hm v, rfl⟩
    rw [sets_setRow]
    exact haf

/-- What a row that is delivered again, with all its commands succeeding, leaves behind. -/
theorem redelivery_agrees {env : Env} {ds : List Delivery} {s : Sys}
    (hrun : Run (Step env) (Ok env) start ds s) {e : Event} {k : RowKey} {action : Option String}
    (he : rowOf e = some (k, action)) (hok : Ok env s ⟨e, true, true⟩) {af : Af} {m : Match}
    (haf : s.db.sets.get? k.set = some af) (hm : Fits env af k m) :
    ∃ s', Step env s ⟨e, true, true⟩ s' ∧ ∀ a,
      ((af, k.set, ⟨a, m⟩) ∈ s'.state.frr ↔ action.map String.toLower = some a) ∧
      (s'.state.daemon.Holds (af, k.set, ⟨a, m⟩) ↔ action.map String.toLower = some a) := by
  have hgood : Good env s :=
    hrun.invariant (fun _ _ _ h hok hstep => good_step h hok hstep) (good_start env)
  have hsucc := updatePrefix_commands env s.state k action
  have hstep : Step env s ⟨e, true, true⟩
      ⟨s.db.setRow k action, (updatePrefix env s.state k action true true).1⟩ := by
    cases e with
    | setPrefixSet name mode => simp [rowOf] at he
    | delPrefixSet name => simp [rowOf] at he
    | setPrefix k' action' =>
      obtain ⟨rfl, rfl⟩ := Prod.mk.inj (Option.some.inj he)
      simp [Step, next, handle, hsucc, Db.apply]
    | delPrefix k' =>
      obtain ⟨rfl, rfl⟩ := Prod.mk.inj (Option.some.inj he)
      simp [Step, next, handle, hsucc, Db.apply]
  have hgood' := good_step hgood hok hstep
  refine ⟨_, hstep, fun a => ?_⟩
  have hwants := wants_iff hgood.rows (hok.2 (k, action) he).1 haf hm action a
  have hfrr := (hgood'.mem_frr_iff (af, k.set, ⟨a, m⟩)).trans hwants
  exact ⟨hfrr, (hgood'.tracks.frr _).symm.trans hfrr⟩

/-! ## Rows delivered again -/

/-- An addition, a deletion and a change that fail and are delivered again. -/
theorem redelivered_change :
    ∃ s s', Run (Step sampleEnv) (Ok sampleEnv) start
        [⟨.setPrefixSet "PL" (some "ipv4"), true, true⟩,
          ⟨.setPrefix network (some "permit"), true, false⟩,
          ⟨.setPrefix network (some "permit"), true, true⟩, ⟨.delPrefix network, false, true⟩,
          ⟨.setPrefix network (some "deny"), false, true⟩] s ∧
      Step sampleEnv s ⟨.setPrefix network (some "deny"), true, true⟩ s' ∧
      lineOf "permit" ∈ s.state.frr ∧ lineOf "deny" ∈ s'.state.frr := by
  obtain ⟨s, hrun, hpermit, haf, hok⟩ :
      ∃ s, Run (Step sampleEnv) (Ok sampleEnv) start
          [⟨.setPrefixSet "PL" (some "ipv4"), true, true⟩,
            ⟨.setPrefix network (some "permit"), true, false⟩,
            ⟨.setPrefix network (some "permit"), true, true⟩, ⟨.delPrefix network, false, true⟩,
            ⟨.setPrefix network (some "deny"), false, true⟩] s ∧
        lineOf "permit" ∈ s.state.frr ∧ s.db.sets.get? "PL" = some .inet ∧
        Ok sampleEnv s ⟨.setPrefix network (some "deny"), true, true⟩ :=
    exists_run (fun _ _ _ h => h) (by decide +kernel)
  have hm : Fits sampleEnv .inet network ⟨"10.0.0.0", 24, none, none⟩ :=
    ⟨by decide +kernel, by rfl⟩
  obtain ⟨s', hstep, hagree⟩ := redelivery_agrees hrun rfl hok haf hm
  refine ⟨s, s', hrun, hstep, hpermit, (hagree "deny").1.2 (by decide +kernel)⟩

/-- Only the addition of a change fails; the row delivered again is not added. -/
theorem change_left_half :
    ∃ s, Run (Step sampleEnv) (fun _ _ => True) start
        [⟨.setPrefixSet "PL" (some "ipv4"), true, true⟩,
          ⟨.setPrefix network (some "permit"), true, true⟩,
          ⟨.setPrefix network (some "deny"), true, false⟩,
          ⟨.setPrefix network (some "deny"), true, true⟩] s ∧
      s.db.rows.get? network = some "deny" ∧ s.state.frr = [] ∧
      (s.state.daemon.prefixSetList.get? "PL").map (·.entries) = some [] :=
  exists_run (fun _ _ _ h => h) (by decide +kernel)

end SonicBuildimage.Frrcfgd.PrefixLists.Retry
