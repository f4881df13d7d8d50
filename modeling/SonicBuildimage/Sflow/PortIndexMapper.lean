/-
  The interface indexes of sflow: docker-sflow/port_index_mapper.py.

  Model.  `cur_interfaces` and the rows of `PORT_INDEX_TABLE`, both by the name of the interface.
  An event of the port or the VLAN table comes with what `if_nametoindex` says when it is handled.
  `none` is a KeyError.  `populate` starts with an empty `PORT_INDEX_TABLE` and gets SETs only.

  Proved: `mirrors_of_run`.  If at every DEL of a listed interface the kernel does not have the
  index that is listed, then after every event the table and `cur_interfaces` have the same
  entries and no interface whose last event was a DEL.  The filter for repeated SETs is evaluated
  for a DEL too: while the kernel still has the interface, the entry stays (`deleted_listed`).
-/
import SonicBuildimage.Lib.PyDict
import SonicBuildimage.Lib.PyInt
import SonicBuildimage.Lib.Run

namespace SonicBuildimage.Sflow

open SonicBuildimage.Lib

/-- The patterns of `get_index_from_str`, a name followed by digits, with their `BaseIdx`. -/
def patterns : List (String × Nat) :=
  [("Ethernet", 1), ("Ethernet-BP", 9000), ("Vlan", 2000), ("PortChannel", 1000), ("eth", 10000),
    ("Ethernet-IB", 11000), ("Ethernet-Rec", 12000)]

/-- `(\d+)` of a pattern that ends there; its `$` also stands before a newline at the end. -/
def digitsAtEnd (rest : List Char) : Option (List Char) :=
  let ds := if rest.getLast? = some '\n' then rest.dropLast else rest
  if ds ≠ [] ∧ ds.all fun c => (digitValue c).isSome then some ds else none

/-- `get_index_from_str` -/
def getIndexFromStr (ifName : String) : Option Nat :=
  patterns.findSome? fun p =>
    if startswith ifName p.1 then
      ((digitsAtEnd (dropLen ifName p.1).toList).bind digits).map (· + p.2)
    else none

structure Mapper where
  curInterfaces : Dict String (Nat × Nat) := []
  portIndexTable : Dict String (Dict String String) := []
  deriving DecidableEq

inductive Op
  | set
  | del
  deriving DecidableEq

/-- An event, with the kernel's index of the interface when it is handled. -/
structure Event where
  key : String
  op : Op
  ifindex : Option Nat

/-- `set_port_index_table_entry` -/
def setPortIndexTableEntry (table : Dict String (Dict String String)) (key index ifindex : String) :
    Dict String (Dict String String) :=
  let table := Dict.set table key (Dict.set (Dict.getD table key []) "index" index)
  Dict.set table key (Dict.set (Dict.getD table key []) "ifindex" ifindex)

namespace Mapper

/-- `ifname in self.cur_interfaces and self.cur_interfaces[ifname] == (index, ifindex)` -/
def unchanged (m : Mapper) (ifname : String) (ifindex : Option Nat) : Bool :=
  match Dict.get? m.curInterfaces ifname with
  | none => false
  | some cur => getIndexFromStr ifname = some cur.1 ∧ ifindex = some cur.2

/-- `update_db` -/
def updateDb (m : Mapper) (ifname : String) (op : Op) (ifindex : Option Nat) : Option Mapper :=
  match op with
  | .set =>
    match getIndexFromStr ifname, ifindex with
    | some index, some kernel =>
      if m.unchanged ifname ifindex then some m
      else some
        { curInterfaces := Dict.set m.curInterfaces ifname (index, kernel)
          portIndexTable := setPortIndexTableEntry m.portIndexTable ifname (toString index)
            (toString kernel) }
    | _, _ => some m
  | .del =>
    if m.unchanged ifname ifindex then some m
    else if ifname ∈ Dict.keys m.curInterfaces then some
      { curInterfaces := Dict.erase m.curInterfaces ifname
        portIndexTable := Dict.erase m.portIndexTable ifname }
    else none

/-- One event in `listen`. -/
def listen (m : Mapper) (e : Event) : Option Mapper :=
  match e.op with
  | .del => if e.key ∈ Dict.keys m.curInterfaces then m.updateDb e.key .del e.ifindex else some m
  | .set =>
    if e.key ≠ "PortInitDone" ∧ e.key ≠ "PortConfigDone" ∧ e.key ∉ Dict.keys m.curInterfaces then
      m.updateDb e.key .set e.ifindex
    else some m

/-- `populate`, for what the tables hold at the start. -/
def populate (content : List (String × Option Nat)) : Option Mapper :=
  content.foldlM (fun m c =>
    if c.1 ≠ "" ∧ c.1 ≠ "PortInitDone" ∧ c.1 ≠ "PortConfigDone" then m.updateDb c.1 .set c.2
    else some m) {}

end Mapper

/-! ### What an event can do -/

/-- What an entry of `cur_interfaces` is in the table. -/
def row (cur : Nat × Nat) : Dict String String :=
  [("index", toString cur.1), ("ifindex", toString cur.2)]

/-- The table and `cur_interfaces` have the same entries. -/
def Mirrors (m : Mapper) : Prop :=
  ∀ k, Dict.get? m.portIndexTable k = (Dict.get? m.curInterfaces k).map row

theorem get?_setPortIndexTableEntry {m : Mapper} (h : Mirrors m) (key : String) (cur : Nat × Nat)
    (k : String) :
    Dict.get? (setPortIndexTableEntry m.portIndexTable key (toString cur.1) (toString cur.2)) k =
      if key = k then some (row cur) else Dict.get? m.portIndexTable k := by
  have hrow : Dict.set (Dict.set (Dict.getD m.portIndexTable key []) "index" (toString cur.1))
      "ifindex" (toString cur.2) = row cur := by
    rw [Dict.getD, h key]
    cases Dict.get? m.curInterfaces key with
    | none => rfl
    | some old => rfl
  simp only [setPortIndexTableEntry, Dict.getD_set_self, hrow, Dict.set_set]
  exact Dict.get?_set _ _ _ _

/-- A SET never fails; the entry it may write has the current indexes. -/
theorem updateDb_set {m : Mapper} (h : Mirrors m) (ifname : String) (ifindex : Option Nat) :
    ∃ m', m.updateDb ifname .set ifindex = some m' ∧ Mirrors m' ∧
      ∀ k ≠ ifname, Dict.get? m'.curInterfaces k = Dict.get? m.curInterfaces k := by
  simp only [Mapper.updateDb]
  split
  · next index kernel _ =>
    split
    · exact ⟨m, rfl, h, fun _ _ => rfl⟩
    · refine ⟨_, rfl, fun k => ?_, fun k hk => Dict.get?_set_ne _ _ hk.symm⟩
      simp only [get?_setPortIndexTableEntry h ifname (index, kernel), Dict.get?_set]
      split
      · rfl
      · exact h k
  · exact ⟨m, rfl, h, fun _ _ => rfl⟩

/-- A DEL of a listed interface never fails; it removes the entry, unless it is taken for a
    repeated SET. -/
theorem updateDb_del {m : Mapper} (h : Mirrors m) {ifname : String}
    (hk : ifname ∈ Dict.keys m.curInterfaces) (ifindex : Option Nat) :
    ∃ m', m.updateDb ifname .del ifindex = some m' ∧ Mirrors m' ∧
      (∀ k ≠ ifname, Dict.get? m'.curInterfaces k = Dict.get? m.curInterfaces k) ∧
      (m.unchanged ifname ifindex = false → Dict.get? m'.curInterfaces ifname = none) := by
  unfold Mapper.updateDb
  dsimp only
  split
  · next hu =>
    exact ⟨m, rfl, h, fun _ _ => rfl, fun hf => by simp [hf] at hu⟩
  · refine ⟨_, rfl, fun k => ?_, fun k hk => Dict.get?_erase_ne _ hk.symm,
      fun _ => Dict.get?_erase_self _ _⟩
    simp only [Dict.get?_erase]
    split
    · rfl
    · exact h k

/-- At a DEL of a listed interface the kernel does not have the index that is listed. -/
def Gone (m : Mapper) (e : Event) : Prop :=
  e.op = .del → ∀ cur, Dict.get? m.curInterfaces e.key = some cur → e.ifindex ≠ some cur.2

theorem unchanged_of_gone {m : Mapper} {e : Event} (h : Gone m e) (hdel : e.op = .del) :
    m.unchanged e.key e.ifindex = false := by
  unfold Mapper.unchanged
  split
  · rfl
  · next cur hcur =>
    simp [h hdel cur hcur]

/-- No event fails, and the table mirrors `cur_interfaces` after it, on any condition; a DEL whose
    interface is gone removes the entry. -/
theorem listen_spec {m : Mapper} (h : Mirrors m) (e : Event) :
    ∃ m', m.listen e = some m' ∧ Mirrors m' ∧
      (∀ k ≠ e.key, Dict.get? m'.curInterfaces k = Dict.get? m.curInterfaces k) ∧
      (e.op = .del → Gone m e → Dict.get? m'.curInterfaces e.key = none) := by
  obtain ⟨key, op, ifindex⟩ := e
  cases op with
  | set =>
    simp only [Mapper.listen]
    split
    · obtain ⟨m', hm', hmir, hother⟩ := updateDb_set h key ifindex
      exact ⟨m', hm', hmir, hother, fun h => Op.noConfusion h⟩
    · exact ⟨m, rfl, h, fun _ _ => rfl, fun h => Op.noConfusion h⟩
  | del =>
    simp only [Mapper.listen]
    split
    · next hk =>
      obtain ⟨m', hm', hmir, hother, hgone⟩ := updateDb_del h hk ifindex
      exact ⟨m', hm', hmir, hother, fun _ hok => hgone (unchanged_of_gone hok rfl)⟩
    · next hk =>
      exact ⟨m, rfl, h, fun _ _ => rfl, fun _ _ => by simpa [Dict.mem_keys_iff] using hk⟩

theorem mirrors_populate {content : List (String × Option Nat)} {m : Mapper}
    (h : Mapper.populate content = some m) : Mirrors m := by
  refine foldlM_invariant (P := Mirrors) ?_ h fun k => rfl
  intro m c m' _ hm hstep
  split at hstep
  · obtain ⟨m₁, h₁, hmir, -⟩ := updateDb_set hm c.1 c.2
    exact Option.some.inj (h₁.symm.trans hstep) ▸ hmir
  · exact Option.some.inj hstep ▸ hm

/-! ### Runs -/

def Step (m : Mapper) (e : Event) (m' : Mapper) : Prop := m.listen e = some m'

/-- The last event of an interface. -/
def lastOp (es : List Event) (k : String) : Option Op :=
  ((es.filter fun e => e.key = k).getLast?).map Event.op

theorem lastOp_append (es : List Event) (e : Event) (k : String) :
    lastOp (es ++ [e]) k = if e.key = k then some e.op else lastOp es k := by
  unfold lastOp
  rw [List.filter_append]
  by_cases h : e.key = k
  · simp [h]
  · simp [h]

/-- After start-up, while no DEL of a listed interface finds the listed index in the kernel: the
    table mirrors `cur_interfaces`, no interface whose last event was a DEL is listed, the next
    event does not fail, and a DEL leaves no entry. -/
theorem mirrors_of_run {content : List (String × Option Nat)} {m₀ m : Mapper} {es : List Event}
    (hstart : Mapper.populate content = some m₀) (hrun : Run Step Gone m₀ es m) :
    Mirrors m ∧
      (∀ k, lastOp es k = some .del → Dict.get? m.portIndexTable k = none) ∧
      ∀ e, ∃ m', m.listen e = some m' ∧
        (e.op = .del → Gone m e → Dict.get? m'.portIndexTable e.key = none) := by
  have hinv : Mirrors m ∧ ∀ k, lastOp es k = some .del → Dict.get? m.curInterfaces k = none := by
    refine hrun.history (P := fun es m => Mirrors m ∧
      ∀ k, lastOp es k = some .del → Dict.get? m.curInterfaces k = none) ?_
      ⟨mirrors_populate hstart, fun k hk => by simp [lastOp] at hk⟩
    rintro es m e m' ⟨hmir, hdel⟩ hok hstep
    obtain ⟨m₁, h₁, hmir', hother, hgone⟩ := listen_spec hmir e
    obtain rfl : m₁ = m' := Option.some.inj (h₁.symm.trans hstep)
    refine ⟨hmir', fun k hk => ?_⟩
    rw [lastOp_append] at hk
    split at hk
    · next heq =>
      exact heq ▸ hgone (Option.some.inj hk) hok
    · next hne =>
      rw [hother k fun h => hne h.symm]
      exact hdel k hk
  obtain ⟨hmir, hdel⟩ := hinv
  refine ⟨hmir, fun k hk => by rw [hmir k, hdel k hk]; rfl, fun e => ?_⟩
  obtain ⟨m', h', hmir', -, hgone⟩ := listen_spec hmir e
  exact ⟨m', h', fun ho hok => by rw [hmir' e.key, hgone ho hok]; rfl⟩

/-- A port in both tables. -/
def onePort : Mapper :=
  { curInterfaces := [("Ethernet0", 1, 70)]
    portIndexTable := [("Ethernet0", [("index", "1"), ("ifindex", "70")])] }

/-- Its DEL is handled when the kernel interface is gone. -/
theorem gone_removed : ∃ m, onePort.listen ⟨"Ethernet0", .del, none⟩ = some m ∧
    Mirrors m ∧ Dict.get? m.portIndexTable "Ethernet0" = none := by
  have hstart : Mapper.populate [("Ethernet0", some 70)] = some onePort := by decide +kernel
  have hstep : onePort.listen ⟨"Ethernet0", .del, none⟩ = some {} := by decide +kernel
  have hok : Gone onePort ⟨"Ethernet0", .del, none⟩ := fun _ cur _ => by simp
  obtain ⟨hmir, hlast, -⟩ := mirrors_of_run hstart (.cons hok hstep (.nil _))
  exact ⟨_, hstep, hmir, hlast "Ethernet0" rfl⟩

/-- Its DEL is handled while the kernel still has the interface. -/
theorem deleted_listed :
    Mapper.populate [("Ethernet0", some 70)] = some onePort ∧
      onePort.listen ⟨"Ethernet0", .del, some 70⟩ = some onePort := by
  decide +kernel

end SonicBuildimage.Sflow
