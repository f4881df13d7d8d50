/-
  Rows of tables as commands: `CachedDataWithOp` and `BGPKeyMapList.run_command` of frrcfgd.py.

  Model.  A row that is to be applied maps its fields to values with an operation (compared
  with the row applied before) and a status.  A key map lists which fields a command needs.
  Its strings are given in parsed form: `+a&b` is the optional token with the alternatives `a`
  and `b`, `++a` the one that may be left out in the middle, `a|v` the field `a` for rows of
  the kind `v`.  `run_command` goes through the key map, makes commands of the fields of the
  row, runs them and marks the fields of the entries that have not failed.

  The texts of the commands are a parameter (`getCommand`), since the functions behind it
  (`get_command_cmn` and the `hdl_...` functions) neither read nor write the operations and the
  statuses.  Whether a command succeeds is given by the list of all results to come (`Vty`).

  Proved: only statuses change, and only to success (`marked_foldl_runEntry`); which calls of its
  function an entry makes (`handlerCalls_slots`, `handlerCalls_single`).
-/
import SonicBuildimage.Lib.PyDict
import Mathlib.Tactic.Common

namespace SonicBuildimage.Frrcfgd

open SonicBuildimage.Lib

/-! ## Rows -/

/-- A value of CONFIG_DB. -/
inductive Val where
  | str (s : String)
  | list (l : List String)
  deriving DecidableEq

inductive Op where
  | none
  | add
  | delete
  | update
  deriving DecidableEq

inductive Status where
  | succ
  | fail
  deriving DecidableEq

structure CachedDataWithOp where
  data : Val
  op : Op
  status : Status
  deriving DecidableEq

/-- `CachedDataWithOp(data, op)` -/
def CachedDataWithOp.new (data : Val) (op : Op) : CachedDataWithOp := ⟨data, op, .fail⟩

/-- A row that is being applied. -/
abbrev Data := Dict String CachedDataWithOp

/-- A row as it is in the database or in the cache. -/
abbrev Row := Dict String Val

/-! ## Key maps -/

/-- A token of an entry, `+` as often as `plus` says. -/
structure Token where
  plus : Nat
  alts : List String
  variant : Option String
  deriving DecidableEq

/-- The fields of an entry; `merge` if they stand in a tuple. -/
structure DbField where
  tokens : List Token
  merge : Bool
  deriving DecidableEq

abbrev KeyMap := List DbField

/-! ## Commands -/

/-- A command, split at the blanks; `ignoreFail` if its failure does not count. -/
structure Command where
  tokens : List String
  ignoreFail : Bool
  deriving DecidableEq

/-- The values for a command, one after the other or by index (with whether they changed). -/
inductive CmdVals where
  | tuple (l : List Val)
  | merged (l : List (Nat × Val × Bool))

/-- The text of the command of an entry, for an operation, the values from the row's key and
    those from its fields. -/
abbrev GetCommand := DbField → Op → List String → CmdVals → Option (List Command)

/-- The results of the commands, those to come included. -/
structure Vty where
  results : Nat → Bool
  count : Nat

namespace Vty

def next (v : Vty) : Bool := v.results v.count

def step (v : Vty) : Vty := { v with count := v.count + 1 }

end Vty

section Run

variable (data : Data)

/-- The fields of a token that the row has. -/
def Token.present (t : Token) : List String := t.alts.filter fun k => Dict.get? data k ≠ none

/-- The loop over the tokens puts the fields of one more token behind each list. -/
def extendKeyLists (keyListList : List (List (Option String))) (keyList : List String) :
    List (List (Option String)) :=
  match keyList, keyListList with
  | [], [] => [[none]]
  | [], _ => keyListList.map (· ++ [none])
  | _, [] => keyList.map fun k => [some k]
  | [k], _ => keyListList.map (· ++ [some k])
  | _, _ => keyListList.flatMap fun l => keyList.map fun k => l ++ [some k]

/-- The lists of fields of an entry; `none` if a required token has no field in the row. -/
def keyLists : List Token → List (List (Option String)) → Option (List (List (Option String)))
  | [], keyListList => some keyListList
  | t :: ts, keyListList =>
    if t.plus = 0 ∧ t.present data = [] then none
    else keyLists ts (extendKeyLists keyListList (t.present data))

/-- The indices of the fields with one of some operations. -/
def idList (keyList : List (Option String)) (ops : List Op) : List Nat :=
  (List.range keyList.length).filter fun i =>
    match keyList[i]? with
    | some (some k) => (Dict.get? data k).any fun d => ops.contains d.op
    | _ => false

def valueAt (keyList : List (Option String)) (i : Nat) : Option Val :=
  match keyList[i]? with
  | some (some k) => (Dict.get? data k).map CachedDataWithOp.data
  | _ => none

/-- The loop of `get_cmd_data` over the indices, up to the first value that is missing. -/
def collectVals (keyList : List (Option String)) (take : Nat → Bool) (optIdx : List Nat) :
    List Nat → List Val
  | [] => []
  | i :: is =>
    if take i then
      (valueAt data keyList i).getD (.str "") :: collectVals keyList take optIdx is
    else if i ∈ optIdx then .str "" :: collectVals keyList take optIdx is
    else []

/-- `get_cmd_data` -/
def getCmdData (keyList : List (Option String)) (reqIdx optIdx chg noChg : List Nat)
    (merge isDel : Bool) : Option (CmdVals × Op) :=
  if reqIdx.any fun i => i ∉ chg ∧ i ∉ noChg then none
  else if merge then
    let pick (changed : Bool) (i : Nat) := (valueAt data keyList i).map fun v => (i, v, changed)
    some (.merged (chg.filterMap (pick true) ++ noChg.filterMap (pick false)),
      if isDel then .delete else .update)
  else
    let minIdChged : Bool :=
      match chg.min?, noChg.min? with
      | none, _ => false
      | some c, n =>
        if c ∈ optIdx then noChg.isEmpty
        else match n with
          | none => true
          | some n => decide (c < n)
    let op := if isDel ∧ minIdChged then Op.delete else Op.update
    let take (i : Nat) : Bool :=
      ((¬ isDel ∨ op = .delete) ∧ (i ∈ chg ∨ i ∈ noChg)) ∨
        (isDel ∧ op = .update ∧ i ∈ noChg)
    let vals := collectVals data keyList take optIdx (List.range keyList.length)
    if vals = [] then none
    else some (.tuple (vals ++ List.replicate (keyList.length - vals.length) (.str "")), op)

/-- `is_cmd_covered` -/
def isCmdCovered (src dst : Command) : Bool :=
  src.tokens.length < dst.tokens.length && src.tokens.isPrefixOf dst.tokens

/-- `is_cmd_list_covered` -/
def isCmdListCovered (src dst : List Command) : Bool :=
  src.length ≤ dst.length && (src.zip dst).all fun p => isCmdCovered p.1 p.2

/-- The commands for one list of fields: first what is deleted, then what is set. -/
def commandsFor (getCommand : GetCommand) (f : DbField) (upper : List String)
    (keyList : List (Option String)) : List Command :=
  let idx := List.range f.tokens.length
  let reqIdx := idx.filter fun i => (f.tokens[i]?.map Token.plus) = some 0
  let optIdx := idx.filter fun i => ((f.tokens[i]?.map Token.plus).getD 0) ≥ 2
  let noChg := idList data keyList [.none]
  let upd := idList data keyList [.add, .update]
  let del := idList data keyList [.delete]
  let part (chg : List Nat) (isDel : Bool) : List Command :=
    if chg = [] then []
    else
      match getCmdData data keyList reqIdx optIdx chg noChg f.merge isDel with
      | some (vals, op) => (getCommand f op upper vals).getD []
      | none => []
  part del true ++ part upd false

/-- The longest of the command lists. -/
def pickCommands (lists : List (List Command)) : List Command :=
  (lists.filter (· ≠ [] : List Command → Bool)).foldl
    (fun cur chk => if isCmdListCovered cur chk then chk else cur) []

end Run

/-- The commands of an entry, up to the first one that fails; whether one did. -/
def runAll (v : Vty) : List Command → Bool × Vty
  | [] => (false, v)
  | c :: cs => if v.next ∨ c.ignoreFail then runAll v.step cs else (true, v.step)

/-- Mark a field as applied. -/
def markField (data : Data) (k : Option String) : Data :=
  match k with
  | none => data
  | some k =>
    match Dict.get? data k with
    | some d => Dict.set data k { d with status := .succ }
    | none => data

/-- What `run_command` keeps from entry to entry. -/
structure RunState where
  data : Data
  retVal : Bool
  runCmdCnt : Nat
  vty : Vty

/-- One round of the loop in `run_command`. -/
def runEntry (getCommand : GetCommand) (upper : List String) (s : RunState) (f : DbField) :
    RunState :=
  match keyLists s.data f.tokens [] with
  | none => s
  | some lists =>
    let cmds := pickCommands (lists.map (commandsFor s.data getCommand f upper))
    let (failed, vty) := runAll s.vty cmds
    { data := if failed then s.data else lists.flatten.foldl markField s.data
      retVal := s.retVal || (!failed && !cmds.isEmpty)
      runCmdCnt := if cmds.isEmpty then s.runCmdCnt else s.runCmdCnt + 1
      vty := vty }

/-- What `run_command` leaves behind: the row with its statuses, the result, the terminal. -/
structure RunResult where
  data : Data
  ret : Bool
  vty : Vty

def runCommand (getCommand : GetCommand) (keyMap : KeyMap) (upper : List String) (data : Data)
    (vty : Vty) : RunResult :=
  let s := keyMap.foldl (runEntry getCommand upper) ⟨data, false, 0, vty⟩
  ⟨s.data, s.runCmdCnt = 0 || s.retVal, s.vty⟩

/-! ## What `run_command` does to a row -/

/-- `data'` is `data` with some fields marked as applied. -/
def Marked (data data' : Data) : Prop :=
  ∀ k, Dict.get? data' k = Dict.get? data k ∨
    ∃ d, Dict.get? data k = some d ∧ Dict.get? data' k = some { d with status := .succ }

theorem Marked.refl (data : Data) : Marked data data := fun _ => Or.inl rfl

theorem Marked.trans {data data' data'' : Data} (h : Marked data data') (h' : Marked data' data'') :
    Marked data data'' := by
  intro k
  rcases h' k with heq' | ⟨d', hd', hset'⟩
  · rw [heq']
    exact h k
  · rcases h k with heq | ⟨d, hd, hset⟩
    · rw [heq] at hd'
      exact Or.inr ⟨d', hd', hset'⟩
    · rw [hset] at hd'
      obtain rfl := Option.some.inj hd'
      exact Or.inr ⟨d, hd, hset'⟩

theorem get_markField (data : Data) (k : Option String) (k' : String) :
    Dict.get? (markField data k) k' =
      if k = some k' then (Dict.get? data k').map fun d => { d with status := .succ }
      else Dict.get? data k' := by
  unfold markField
  cases k with
  | none => rfl
  | some k =>
    dsimp only
    by_cases hk : k = k'
    · subst hk
      cases hd : Dict.get? data k with
      | none => simp [hd]
      | some d => simp
    · have hk' : ¬ some k = some k' := fun h => hk (Option.some.inj h)
      rw [if_neg hk']
      split
      · exact Dict.get?_set_ne data _ hk
      · rfl

theorem marked_markField (data : Data) (k : Option String) : Marked data (markField data k) := by
  intro k'
  rw [get_markField]
  split
  · cases hd : Dict.get? data k' with
    | none => exact Or.inl rfl
    | some d => exact Or.inr ⟨d, rfl, rfl⟩
  · exact Or.inl rfl

theorem marked_foldl (ks : List (Option String)) (data : Data) :
    Marked data (ks.foldl markField data) := by
  induction ks generalizing data with
  | nil => exact Marked.refl data
  | cons k ks ih => exact (marked_markField data k).trans (ih _)

theorem marked_runEntry (getCommand : GetCommand) (upper : List String) (s : RunState)
    (f : DbField) : Marked s.data (runEntry getCommand upper s f).data := by
  unfold runEntry
  split
  · exact Marked.refl _
  · dsimp only
    split
    · exact Marked.refl _
    · exact marked_foldl _ _

theorem marked_foldl_runEntry (getCommand : GetCommand) (upper : List String) (fs : KeyMap)
    (s : RunState) : Marked s.data (fs.foldl (runEntry getCommand upper) s).data := by
  induction fs generalizing s with
  | nil => exact Marked.refl _
  | cons f fs ih => exact (marked_runEntry getCommand upper s f).trans (ih _)

/-! ## The commands of an entry -/

theorem foldl_pick_cases (lists : List (List Command)) (cur : List Command) :
    let pick := fun cur chk : List Command => if isCmdListCovered cur chk then chk else cur
    lists.foldl pick cur = cur ∨ lists.foldl pick cur ∈ lists := by
  intro pick
  induction lists generalizing cur with
  | nil => exact Or.inl rfl
  | cons l lists ih =>
    rw [List.foldl_cons]
    rcases ih (pick cur l) with h | h
    · rw [h]
      by_cases hc : isCmdListCovered cur l
      · exact Or.inr (by simp [pick, hc])
      · exact Or.inl (by simp [pick, hc])
    · exact Or.inr (List.mem_cons_of_mem _ h)

theorem pickCommands_cases (lists : List (List Command)) :
    pickCommands lists = [] ∨ pickCommands lists ∈ lists := by
  rcases foldl_pick_cases (lists.filter (· ≠ [] : List Command → Bool)) [] with h | h
  · exact Or.inl h
  · exact Or.inr (List.mem_of_mem_filter h)

/-- The commands of an entry, for the lists of fields that the row has. -/
def DbField.commands (getCommand : GetCommand) (upper : List String) (data : Data) (f : DbField) :
    List Command :=
  ((keyLists data f.tokens []).map fun lists =>
    pickCommands (lists.map (commandsFor data getCommand f upper))).getD []

/-! ## Entries with one token -/

section Single

variable {getCommand : GetCommand} {upper : List String} {data : Data}

theorem keyLists_single (t : Token) (h : t.present data ≠ []) :
    keyLists data [t] [] = some ((t.present data).map fun k => [some k]) := by
  unfold keyLists
  rw [if_neg fun hc => h hc.2]
  unfold keyLists extendKeyLists
  split
  · contradiction
  · contradiction
  · rfl
  · contradiction
  · contradiction

theorem idList_single {k : String} {d : CachedDataWithOp} (hd : Dict.get? data k = some d)
    (ops : List Op) : idList data [some k] ops = if ops.contains d.op then [0] else [] := by
  unfold idList
  have hrange : List.range ([some k] : List (Option String)).length = [0] := rfl
  rw [hrange]
  simp only [List.filter_cons, List.filter_nil, List.getElem?_cons_zero, hd, Option.any_some]

theorem getCmdData_single {k : String} {d : CachedDataWithOp} (hd : Dict.get? data k = some d)
    (isDel : Bool) :
    getCmdData data [some k] [0] [] [0] [] false isDel =
      some (.tuple [d.data], if isDel then .delete else .update) := by
  have hval : valueAt data [some k] 0 = some d.data := by simp [valueAt, hd]
  cases isDel with
  | false => simp [getCmdData, List.range_succ, collectVals, hval]
  | true => simp [getCmdData, List.range_succ, collectVals, hval]

end Single

/-! ## Calls of a handler -/

/-- The calls of the function behind an entry, for one list of fields: the values and the
    operation. -/
def handlerCalls (data : Data) (f : DbField) (keyList : List (Option String)) :
    List (CmdVals × Op) :=
  let idx := List.range f.tokens.length
  let reqIdx := idx.filter fun i => (f.tokens[i]?.map Token.plus) = some 0
  let optIdx := idx.filter fun i => ((f.tokens[i]?.map Token.plus).getD 0) ≥ 2
  let noChg := idList data keyList [.none]
  let part (chg : List Nat) (isDel : Bool) : Option (CmdVals × Op) :=
    if chg = [] then none
    else getCmdData data keyList reqIdx optIdx chg noChg f.merge isDel
  (part (idList data keyList [.delete]) true).toList ++
    (part (idList data keyList [.add, .update]) false).toList

/-- The commands of an entry are those of its calls. -/
theorem commandsFor_eq (data : Data) (getCommand : GetCommand) (f : DbField) (upper : List String)
    (keyList : List (Option String)) :
    commandsFor data getCommand f upper keyList =
      (handlerCalls data f keyList).flatMap fun c => (getCommand f c.2 upper c.1).getD [] := by
  have hpart : ∀ (chg reqIdx optIdx noChg : List Nat) (isDel : Bool),
      (if chg = [] then [] else
        match getCmdData data keyList reqIdx optIdx chg noChg f.merge isDel with
        | some (vals, op) => (getCommand f op upper vals).getD []
        | none => []) =
      ((if chg = [] then none
        else getCmdData data keyList reqIdx optIdx chg noChg f.merge isDel).toList).flatMap
          fun c => (getCommand f c.2 upper c.1).getD [] := by
    intro chg reqIdx optIdx noChg isDel
    by_cases hchg : chg = []
    · rw [if_pos hchg, if_pos hchg]
      rfl
    · rw [if_neg hchg, if_neg hchg]
      cases getCmdData data keyList reqIdx optIdx chg noChg f.merge isDel with
      | none => rfl
      | some r => simp
  unfold commandsFor handlerCalls
  dsimp only
  rw [List.flatMap_append, hpart, hpart]

/-! ## Entries with one required field and fields that may be left out -/

section Slots

variable {data : Data}

/-- The place of a field in a list of fields. -/
def slot (data : Data) (n : String) : Option String :=
  if Dict.get? data n = none then none else some n

/-- The value of a field for a command; a field that is deleted counts as empty. -/
def fieldVal (data : Data) (n : String) : Val :=
  match Dict.get? data n with
  | some d => if d.op = .delete then .str "" else d.data
  | none => .str ""

/-- The entry `[k|variant, '++n', ...]`. -/
def slotEntry (k : String) (variant : Option String) (ns : List String) : DbField :=
  ⟨⟨0, [k], variant⟩ :: ns.map fun n => ⟨2, [n], none⟩, false⟩

theorem keyLists_slots (acc : List (Option String)) (ns : List String) :
    keyLists data (ns.map fun n => ⟨2, [n], none⟩) [acc] = some [acc ++ ns.map (slot data)] := by
  induction ns generalizing acc with
  | nil => simp [keyLists]
  | cons n ns ih =>
    have hextend : extendKeyLists [acc] (Token.present data ⟨2, [n], none⟩) =
        [acc ++ [slot data n]] := by
      unfold Token.present slot
      cases hd : Dict.get? data n <;> simp [hd, extendKeyLists]
    rw [List.map_cons, keyLists, if_neg (by simp), hextend, ih]
    simp

theorem keyLists_slotEntry {k : String} (hk : Dict.get? data k ≠ none) (variant : Option String)
    (ns : List String) :
    keyLists data (slotEntry k variant ns).tokens [] = some [(k :: ns).map (slot data)] := by
  have hpresent : Token.present data ⟨0, [k], variant⟩ = [k] := by
    simp [Token.present, hk]
  have hslot : slot data k = some k := if_neg hk
  rw [slotEntry, keyLists, hpresent, if_neg (by simp)]
  rw [show extendKeyLists [] [k] = [[some k]] from rfl, keyLists_slots, List.map_cons, hslot]
  rfl

theorem mem_idList_slots {ns : List String} {ops : List Op} {i : Nat} :
    i ∈ idList data (ns.map (slot data)) ops ↔
      ∃ n ∈ ns[i]?, ∃ d ∈ Dict.get? data n, d.op ∈ ops := by
  unfold idList
  rw [List.mem_filter, List.mem_range, List.length_map, List.getElem?_map]
  cases hn : ns[i]? with
  | none => simp
  | some n =>
    have hlt : i < ns.length := (List.getElem?_eq_some_iff.1 hn).1
    unfold slot
    cases hd : Dict.get? data n <;> simp [hd, hlt]

/-- With every value there or optional, no value ends the list. -/
theorem collectVals_eq_map {keyList : List (Option String)} {take : Nat → Bool}
    {optIdx is : List Nat}
    (h : ∀ i ∈ is, take i = true ∨ i ∈ optIdx) :
    collectVals data keyList take optIdx is =
      is.map fun i => if take i then (valueAt data keyList i).getD (.str "") else .str "" := by
  induction is with
  | nil => rfl
  | cons i is ih =>
    have hrest := ih fun j hj => h j (List.mem_cons_of_mem _ hj)
    rw [collectVals, List.map_cons]
    by_cases ht : take i = true
    · rw [if_pos ht, if_pos ht, hrest]
    · rw [if_neg ht, if_neg ht, if_pos ((h i List.mem_cons_self).resolve_left ht), hrest]

theorem valueAt_slots {ns : List String} {i : Nat} {n : String} (hn : ns[i]? = some n) :
    valueAt data (ns.map (slot data)) i = (Dict.get? data n).map CachedDataWithOp.data := by
  unfold valueAt slot
  rw [List.getElem?_map, hn]
  cases hd : Dict.get? data n <;> simp [hd]

/-- Without its required field an entry has no values. -/
theorem getCmdData_of_missing {keyList : List (Option String)} {reqIdx chg noChg : List Nat}
    {i : Nat}
    (hi : i ∈ reqIdx) (hchg : i ∉ chg) (hnoChg : i ∉ noChg) (optIdx : List Nat)
    (merge isDel : Bool) :
    getCmdData data keyList reqIdx optIdx chg noChg merge isDel = none := by
  unfold getCmdData
  rw [if_pos (List.any_eq_true.2 ⟨i, hi, decide_eq_true ⟨hchg, hnoChg⟩⟩)]

/-- The values of the fields that are not deleted, the others empty. -/
theorem collectVals_slots {ns : List String} {take : Nat → Bool} {optIdx : List Nat}
    (htake : ∀ i, take i = true ↔ i ∈ idList data (ns.map (slot data)) [.add, .update] ∨
      i ∈ idList data (ns.map (slot data)) [.none])
    (hopt : ∀ i < ns.length, take i = true ∨ i ∈ optIdx) :
    collectVals data (ns.map (slot data)) take optIdx (List.range (ns.map (slot data)).length) =
      ns.map (fieldVal data) := by
  rw [List.length_map, collectVals_eq_map fun i hi => hopt i (List.mem_range.1 hi)]
  refine List.ext_getElem? fun i => ?_
  rw [List.getElem?_map, List.getElem?_map]
  cases hn : ns[i]? with
  | none =>
    have hle : ns.length ≤ i := List.getElem?_eq_none_iff.1 hn
    rw [List.getElem?_eq_none (by rw [List.length_range]; exact hle)]
    rfl
  | some n =>
    have hlt : i < ns.length := (List.getElem?_eq_some_iff.1 hn).1
    rw [List.getElem?_range hlt, Option.map_some, Option.map_some, valueAt_slots hn]
    have hset : take i = true ↔ ∃ d ∈ Dict.get? data n, d.op ≠ .delete := by
      rw [htake, mem_idList_slots, mem_idList_slots, hn]
      cases hd : Dict.get? data n with
      | none => simp [hd]
      | some d => cases hop : d.op <;> simp [hd, hop]
    unfold fieldVal
    cases hd : Dict.get? data n with
    | none => simp
    | some d =>
      rw [hd] at hset
      by_cases hop : d.op = .delete
      · simp [hset, hop]
      · simp [hset, hop]

theorem getCmdData_slots {ns : List String} (hns : ns ≠ []) {reqIdx optIdx : List Nat}
    (hreq : ∀ i ∈ reqIdx, i ∈ idList data (ns.map (slot data)) [.add, .update])
    (hopt : ∀ i < ns.length, i ∈ reqIdx ∨ i ∈ optIdx) :
    getCmdData data (ns.map (slot data)) reqIdx optIdx
      (idList data (ns.map (slot data)) [.add, .update]) (idList data (ns.map (slot data)) [.none])
      false false = some (.tuple (ns.map (fieldVal data)), .update) := by
  have hany : ¬(reqIdx.any fun i => i ∉ idList data (ns.map (slot data)) [.add, .update] ∧
      i ∉ idList data (ns.map (slot data)) [.none]) = true := by
    rw [List.any_eq_true]
    rintro ⟨i, hi, hmiss⟩
    exact (of_decide_eq_true hmiss).1 (hreq i hi)
  unfold getCmdData
  rw [if_neg hany, if_neg Bool.false_ne_true]
  dsimp only
  rw [collectVals_slots]
  · rw [if_neg (by simpa using hns)]
    simp
  · intro i
    simp
  · intro i hi
    refine (hopt i hi).imp_left fun hr => ?_
    simp [hreq i hr]

/-- A field that is set, with the values of the others. -/
theorem handlerCalls_slots {k : String} {d : CachedDataWithOp} (hd : Dict.get? data k = some d)
    (hop : d.op = .update) (variant : Option String) (ns : List String) :
    handlerCalls data (slotEntry k variant ns) ((k :: ns).map (slot data)) =
      [(.tuple ((k :: ns).map (fieldVal data)), .update)] := by
  have hfirst : ∀ ops, 0 ∈ idList data ((k :: ns).map (slot data)) ops ↔ Op.update ∈ ops := by
    intro ops
    rw [mem_idList_slots, ← hop]
    simp [hd]
  have hupd := (hfirst [.add, .update]).2 (by decide)
  have hreq : ∀ i, i ∈ (List.range (slotEntry k variant ns).tokens.length).filter (fun i =>
      ((slotEntry k variant ns).tokens[i]?.map Token.plus) = some 0) ↔ i = 0 := by
    intro i
    rw [List.mem_filter, List.mem_range]
    cases i with
    | zero => simp [slotEntry]
    | succ i => simp [slotEntry]
  unfold handlerCalls
  dsimp only
  rw [getCmdData_of_missing ((hreq 0).2 rfl) (fun h => absurd ((hfirst _).1 h) (by decide))
    (fun h => absurd ((hfirst _).1 h) (by decide)), ite_self]
  rw [if_neg (List.ne_nil_of_mem hupd)]
  have hopt : ∀ i < (k :: ns).length,
      i ∈ (List.range (slotEntry k variant ns).tokens.length).filter (fun i =>
        ((slotEntry k variant ns).tokens[i]?.map Token.plus) = some 0) ∨
      i ∈ (List.range (slotEntry k variant ns).tokens.length).filter (fun i =>
        (((slotEntry k variant ns).tokens[i]?.map Token.plus).getD 0) ≥ 2) := by
    intro i hi
    cases i with
    | zero => exact .inl ((hreq 0).2 rfl)
    | succ i =>
      rw [List.length_cons] at hi
      refine .inr ?_
      simp [slotEntry, hi]
  rw [show (slotEntry k variant ns).merge = false from rfl,
    getCmdData_slots (List.cons_ne_nil k ns) (fun i hi => by rw [(hreq i).1 hi]; exact hupd) hopt]
  rfl

end Slots

/-! ## The commands that are accepted -/

/-- The commands that succeed, up to the first failure that counts. -/
def acceptedOf (v : Vty) : List Command → List Command
  | [] => []
  | c :: cs =>
    if v.next then c :: acceptedOf v.step cs
    else if c.ignoreFail then acceptedOf v.step cs else []

/-- The commands of `run_command` that succeed, entry by entry. -/
def runLog (getCommand : GetCommand) (upper : List String) : KeyMap → RunState → List Command
  | [], _ => []
  | f :: fs, s =>
    acceptedOf s.vty (f.commands getCommand upper s.data) ++
      runLog getCommand upper fs (runEntry getCommand upper s f)

section Log

variable {getCommand : GetCommand} {upper : List String}

theorem mem_of_mem_acceptedOf {v : Vty} {cs : List Command} {c : Command}
    (h : c ∈ acceptedOf v cs) :
    c ∈ cs := by
  induction cs generalizing v with
  | nil => exact h
  | cons c' cs ih =>
    unfold acceptedOf at h
    split at h
    · exact List.mem_cons.2 ((List.mem_cons.1 h).imp_right ih)
    · split at h
      · exact List.mem_cons_of_mem _ (ih h)
      · exact absurd h List.not_mem_nil

theorem length_acceptedOf_le (v : Vty) (cs : List Command) :
    (acceptedOf v cs).length ≤ cs.length := by
  induction cs generalizing v with
  | nil => exact Nat.le_refl 0
  | cons c cs ih =>
    unfold acceptedOf
    split
    · exact Nat.succ_le_succ (ih _)
    · split
      · exact (ih _).trans (Nat.le_succ _)
      · exact Nat.zero_le _

/-- If every command is accepted, none has failed. -/
theorem runAll_of_acceptedOf {v : Vty} {cs : List Command} (h : acceptedOf v cs = cs) :
    (runAll v cs).1 = false := by
  induction cs generalizing v with
  | nil => rfl
  | cons c cs ih =>
    unfold acceptedOf at h
    unfold runAll
    by_cases hv : v.next = true
    · rw [if_pos hv] at h
      rw [if_pos (.inl hv)]
      exact ih (List.cons.inj h).2
    · rw [if_neg hv] at h
      by_cases hi : c.ignoreFail = true
      · rw [if_pos hi] at h
        -- fewer commands are left than there were
        have hlen := length_acceptedOf_le v.step cs
        rw [h, List.length_cons] at hlen
        omega
      · rw [if_neg hi] at h
        exact absurd h.symm (List.cons_ne_nil _ _)

theorem runLog_append (fs gs : KeyMap) (s : RunState) :
    runLog getCommand upper (fs ++ gs) s =
      runLog getCommand upper fs s ++
        runLog getCommand upper gs (fs.foldl (runEntry getCommand upper) s) := by
  induction fs generalizing s with
  | nil => rfl
  | cons f fs ih =>
    rw [List.cons_append, runLog, ih, runLog, List.append_assoc, List.foldl_cons]

/-- A command of an entry comes from the function behind it. -/
theorem DbField.mem_commands {data : Data} {f : DbField} {c : Command}
    (h : c ∈ f.commands getCommand upper data) :
    ∃ op vals cs, getCommand f op upper vals = some cs ∧ c ∈ cs := by
  unfold DbField.commands at h
  cases hl : keyLists data f.tokens [] with
  | none => simp [hl] at h
  | some lists =>
    rw [hl, Option.map_some, Option.getD_some] at h
    rcases pickCommands_cases (lists.map (commandsFor data getCommand f upper)) with hnil | hmem
    · rw [hnil] at h
      exact absurd h List.not_mem_nil
    · obtain ⟨keyList, -, hpick⟩ := List.mem_map.1 hmem
      rw [← hpick, commandsFor_eq] at h
      obtain ⟨⟨vals, op⟩, -, hc⟩ := List.mem_flatMap.1 h
      cases hg : getCommand f op upper vals with
      | none => simp [hg] at hc
      | some cs =>
        rw [hg, Option.getD_some] at hc
        exact ⟨op, vals, cs, hg, hc⟩

theorem retVal_runEntry (s : RunState) (f : DbField) :
    (runEntry getCommand upper s f).retVal =
      (s.retVal || (!(runAll s.vty (f.commands getCommand upper s.data)).1 &&
        !(f.commands getCommand upper s.data).isEmpty)) := by
  unfold runEntry DbField.commands
  cases keyLists s.data f.tokens [] with
  | none => simp
  | some lists => rfl

theorem retVal_foldl {fs : KeyMap} {s : RunState} (h : s.retVal = true) :
    (fs.foldl (runEntry getCommand upper) s).retVal = true := by
  induction fs generalizing s with
  | nil => exact h
  | cons f fs ih =>
    refine ih ?_
    rw [retVal_runEntry, h, Bool.true_or]

theorem ret_runCommand_of_retVal {keyMap : KeyMap} {data : Data} {v : Vty}
    (h : (keyMap.foldl (runEntry getCommand upper) ⟨data, false, 0, v⟩).retVal = true) :
    (runCommand getCommand keyMap upper data v).ret = true := by
  unfold runCommand
  dsimp only
  rw [h, Bool.or_true]

/-- The call of an entry with one field. -/
theorem handlerCalls_single {data : Data} {k : String} {d : CachedDataWithOp}
    (hd : Dict.get? data k = some d) (variant : Option String) :
    handlerCalls data ⟨[⟨0, [k], variant⟩], false⟩ [some k] =
      if d.op = .none then []
      else [(.tuple [d.data], if d.op = .delete then .delete else .update)] := by
  have hreq : (List.range [(⟨0, [k], variant⟩ : Token)].length).filter
      (fun i => [(⟨0, [k], variant⟩ : Token)][i]?.map Token.plus = some 0) = [0] := rfl
  have hopt : (List.range [(⟨0, [k], variant⟩ : Token)].length).filter
      (fun i => ([(⟨0, [k], variant⟩ : Token)][i]?.map Token.plus).getD 0 ≥ 2) = [] := rfl
  unfold handlerCalls
  dsimp only
  rw [hreq, hopt, idList_single hd, idList_single hd, idList_single hd]
  cases hop : d.op with
  | none => simp
  | add => simp [getCmdData_single hd]
  | update => simp [getCmdData_single hd]
  | delete => simp [getCmdData_single hd]

/-- The commands of an entry with one field are those of its call. -/
theorem commands_single {data : Data} {k : String} {d : CachedDataWithOp}
    (hd : Dict.get? data k = some d) (variant : Option String) :
    DbField.commands getCommand upper data ⟨[⟨0, [k], variant⟩], false⟩ =
      (handlerCalls data ⟨[⟨0, [k], variant⟩], false⟩ [some k]).flatMap fun c =>
        (getCommand ⟨[⟨0, [k], variant⟩], false⟩ c.2 upper c.1).getD [] := by
  have hpresent : Token.present data ⟨0, [k], variant⟩ = [k] := by simp [Token.present, hd]
  have hpick : ∀ cs : List Command, pickCommands [cs] = cs := by
    intro cs
    unfold pickCommands
    by_cases hcs : cs = []
    · simp [hcs]
    · simp [hcs, isCmdListCovered]
  unfold DbField.commands
  rw [keyLists_single _ (by rw [hpresent]; simp), hpresent, Option.map_some, Option.getD_some,
    List.map_singleton, List.map_singleton, hpick, commandsFor_eq]

end Log

end SonicBuildimage.Frrcfgd
