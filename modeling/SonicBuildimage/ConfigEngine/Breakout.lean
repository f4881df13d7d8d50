/-
  Port breakout: `BreakoutCfg` and `parse_platform_json_file` of portconfig.py.

  Model.  The two files after `readJson`, with the lanes and indexes of an interface already split
  at the commas.  `BRKOUT_PATTERN` is read group by group: what follows a group never makes it
  shorter, since no digit is an `x`, and after the first speed everything is optional.  `none` is
  an exception.

  Proved: `ports_of_modes_iff`.  The result has as many ports as the modes say, with different names
  and disjoint lanes, and the ports of an entry have lanes of its block, if and only if (`Fits`) no
  entry of a mode has more ports than lanes, and in every entry but the last the ports divide the
  lanes.  The lane counter advances by the rounded quotient: otherwise the next entry starts inside
  the block before it, or the ports have one name and no lanes (`lanes_rounded`).
-/
import SonicBuildimage.Lib.PyDict
import SonicBuildimage.Lib.PyInt
import SonicBuildimage.Lib.PyStr

namespace SonicBuildimage.ConfigEngine.Breakout

open SonicBuildimage.Lib

/-! ### The modes -/

/-- What `BRKOUT_PATTERN` finds, without the brackets. -/
structure Groups where
  numPorts : List Char
  defaultSpeed : List Char
  supportedSpeed : Option (List Char)
  numAssignedLanes : Option (List Char)

/-- `\d{0,n}`, and the rest of the text. -/
def takeDigits : ℕ → List Char → List Char × List Char
  | 0, cs => ([], cs)
  | _ + 1, [] => ([], [])
  | n + 1, c :: cs =>
    if (digitValue c).isSome then (c :: (takeDigits n cs).1, (takeDigits n cs).2)
    else ([], c :: cs)

/-- `\d{1,6}` -/
def number (cs : List Char) : Option (List Char × List Char) :=
  if (takeDigits 6 cs).1 = [] then none else some (takeDigits 6 cs)

/-- `G?` after a number. -/
def takeG : List Char × List Char → List Char × List Char
  | (ds, 'G' :: cs) => (ds ++ ['G'], cs)
  | r => r

/-- `(\d{1,6}G?,?)*\]`: digits of any number, `G` after a digit, and a comma after one of them;
    `digit` and `comma` say whether `G` and the comma can be next. -/
def speeds : (digit comma : Bool) → List Char → Option (List Char × List Char)
  | _, _, [] => none
  | digit, comma, c :: cs =>
    if c = ']' then some ([], cs)
    else
      let rest :=
        if (digitValue c).isSome then speeds true true cs
        else if c = 'G' ∧ digit then speeds false true cs
        else if c = ',' ∧ comma then speeds false false cs
        else none
      rest.map fun r => (c :: r.1, r.2)

/-- `(\[(\d{1,6}G?,?)*\])?` -/
def takeSpeeds : List Char → Option (List Char) × List Char
  | '[' :: cs =>
    match speeds false false cs with
    | some (text, rest) => (some text, rest)
    | none => (none, '[' :: cs)
  | cs => (none, cs)

/-- `(\((\d{1,6})\))?` -/
def takeLanes : List Char → Option (List Char)
  | '(' :: cs =>
    match number cs with
    | some (ds, ')' :: _) => some ds
    | _ => none
  | _ => none

/-- `re.match(BRKOUT_PATTERN, i).groups()` -/
def brkoutGroups (i : String) : Option Groups :=
  match number i.toList with
  | some (numPorts, 'x' :: cs) =>
    (number cs).map fun speed =>
      let (defaultSpeed, cs) := takeG speed
      let (supportedSpeed, cs) := takeSpeeds cs
      ⟨numPorts, defaultSpeed, supportedSpeed, takeLanes cs⟩
  | _ => none

/-- `BreakoutModeEntry` -/
structure Entry where
  numPorts : ℕ
  defaultSpeed : ℤ
  supportedSpeed : List ℤ
  numAssignedLanes : ℕ
  deriving DecidableEq

/-- `_speed_to_int` -/
def speedToInt (speed : String) : Option ℤ :=
  if endswith speed "G" then (int (remove "G" speed)).map (· * 1000) else int speed

/-- `_parse_supported_speed`, of what is between the brackets. -/
def parseSupportedSpeed : Option (List Char) → Option (List ℤ)
  | none => some []
  | some text => (split ',' (String.ofList text)).mapM fun s => speedToInt (strip s)

/-- `_re_group_to_entry`; a number of the pattern has digits only. -/
def reGroupToEntry (lanes : List String) (g : Groups) : Option Entry :=
  (digits g.numPorts).bind fun numPorts =>
    (speedToInt (String.ofList g.defaultSpeed)).bind fun defaultSpeed =>
      (parseSupportedSpeed g.supportedSpeed).bind fun supportedSpeed =>
        (g.numAssignedLanes.elim (some lanes.length) digits).map fun numAssignedLanes =>
          ⟨numPorts, defaultSpeed, defaultSpeed :: supportedSpeed, numAssignedLanes⟩

/-- `_str_to_entries` -/
def strToEntries (lanes : List String) (bmode : String) : Option (List Entry) :=
  (split '+' bmode).mapM fun i => (brkoutGroups i).bind (reGroupToEntry lanes)

/-- `BreakoutModeEntry.__eq__` -/
def Entry.same (a b : Entry) : Bool :=
  a.numPorts = b.numPorts ∧ a.supportedSpeed.toFinset = b.supportedSpeed.toFinset ∧
    a.numAssignedLanes = b.numAssignedLanes

/-- An interface of platform.json. -/
structure Properties where
  lanes : List String
  index : List String
  breakoutModes : Dict String (List String)

/-- A child port, with the fields that hwsku.json may add. -/
structure Port where
  aliasName : String
  lanes : List String
  speed : ℤ
  index : String
  subport : ℕ
  optional : Dict String String := []

/-- An interface of hwsku.json: its mode and its other fields. -/
structure HwskuEntry where
  defaultBrkoutMode : String
  fields : Dict String String

/-- The search of `__init__` for the mode among the supported ones. -/
def findCapabilities (lanes : List String) (entries : List Entry) :
    Dict String (List String) → Option (List String)
  | [] => none
  | (mode, capabilities) :: modes =>
    (strToEntries lanes mode).bind fun supported =>
      if entries.length = supported.length ∧ (entries.zip supported).all fun p => p.1.same p.2 then
        if capabilities = [] then none else some capabilities
      else findCapabilities lanes entries modes

/-- `BreakoutCfg` -/
structure BreakoutCfg where
  interfaceBaseId : ℤ
  lanes : List String
  indexes : List String
  entries : List Entry
  capabilities : List String
  deriving DecidableEq

/-- `BreakoutCfg.__init__` -/
def BreakoutCfg.init (name bmode : String) (p : Properties) : Option BreakoutCfg :=
  (int (remove "Ethernet" name)).bind fun base =>
    (strToEntries p.lanes bmode).bind fun entries =>
      (findCapabilities p.lanes entries p.breakoutModes).map fun capabilities =>
        ⟨base, p.lanes, p.index, entries, capabilities⟩

/-- `PORT_STR + str(id)` -/
def interfaceName (id : ℤ) : String := "Ethernet" ++ toString id

def totalNumPorts (entries : List Entry) : ℕ := (entries.map Entry.numPorts).sum

def lanesUsed (entries : List Entry) : ℕ := (entries.map Entry.numAssignedLanes).sum

/-- `xs[lo:lo + n]` -/
def slice (xs : List String) (lo n : ℕ) : List String := (xs.drop lo).take n

/-- `ports`, `lane_id` and `alias_id`. -/
structure Loop where
  ports : Dict String Port := []
  laneId : ℕ := 0
  aliasId : ℕ := 0

/-- The body of the loop over the ports of an entry. -/
def portStep (c : BreakoutCfg) (speed : ℤ) (lanesPerPort : ℕ) (s : Loop) (_port : ℕ) :
    Option Loop :=
  c.capabilities[s.aliasId]?.bind fun aliasName =>
    c.indexes[s.laneId]?.map fun index =>
      { ports := Dict.set s.ports (interfaceName (c.interfaceBaseId + s.laneId))
          { aliasName := aliasName
            lanes := slice c.lanes s.laneId lanesPerPort
            speed := speed
            index := index
            subport := if totalNumPorts c.entries = 1 then 0 else s.aliasId + 1 }
        laneId := s.laneId + lanesPerPort
        aliasId := s.aliasId + 1 }

/-- The body of the loop over the entries; a division by zero is an exception. -/
def entryStep (c : BreakoutCfg) (s : Loop) (e : Entry) : Option Loop :=
  if e.numPorts = 0 then none
  else (List.range e.numPorts).foldlM
    (portStep c e.defaultSpeed (e.numAssignedLanes / e.numPorts)) s

/-- `get_config` -/
def BreakoutCfg.getConfig (c : BreakoutCfg) : Option (Dict String Port) :=
  if lanesUsed c.entries > c.lanes.length then none
  else (c.entries.foldlM (entryStep c) {}).map Loop.ports

/-- `OPTIONAL_HWSKU_ATTRIBUTES` -/
def optionalHwskuAttributes : List String := ["fec", "autoneg", "role"]

/-- The optional fields of hwsku.json for a child port. -/
def addOptional (hwsku : Dict String HwskuEntry) (child : String × Port) : String × Port :=
  match Dict.get? hwsku child.1 with
  | none => child
  | some entry =>
    (child.1, { child.2 with
      optional := Dict.setAll child.2.optional
        (entry.fields.filter fun e => e.1 ∈ optionalHwskuAttributes) })

/-- The mode of hwsku.json for an interface, and its `BreakoutCfg`. -/
def breakoutCfg (hwsku : Dict String HwskuEntry) (intf : String × Properties) :
    Option BreakoutCfg :=
  (Dict.get? hwsku intf.1).bind fun entry =>
    BreakoutCfg.init intf.1 entry.defaultBrkoutMode intf.2

/-- The body of the loop of `parse_platform_json_file`. -/
def interfaceStep (hwsku : Dict String HwskuEntry) (ports : Dict String Port)
    (intf : String × Properties) : Option (Dict String Port) :=
  (breakoutCfg hwsku intf).bind fun c =>
    c.getConfig.map fun children => Dict.setAll ports (children.map (addOptional hwsku))

/-- `parse_platform_json_file`, the ports. -/
def parsePlatformJsonFile (platform : Dict String Properties)
    (hwsku : Dict String HwskuEntry) : Option (Dict String Port) :=
  platform.foldlM (interfaceStep hwsku) []

/-! ### The lanes of the ports -/

def Entry.lanesPerPort (e : Entry) : ℕ := e.numAssignedLanes / e.numPorts

theorem Entry.mul_le (e : Entry) : e.numPorts * e.lanesPerPort ≤ e.numAssignedLanes :=
  Nat.mul_div_le _ _

/-- The first lane and the number of lanes of each port of an entry, from lane `start` on. -/
def Entry.slots (start : ℕ) (e : Entry) : List (ℕ × ℕ) :=
  (List.range e.numPorts).map fun j => (start + j * e.lanesPerPort, e.lanesPerPort)

/-- Those of the ports of a mode; the lane counter goes on from entry to entry. -/
def slots : ℕ → List Entry → List (ℕ × ℕ)
  | _, [] => []
  | start, e :: es => e.slots start ++ slots (start + e.numPorts * e.lanesPerPort) es

theorem length_slots (start : ℕ) (es : List Entry) :
    (slots start es).length = totalNumPorts es := by
  induction es generalizing start with
  | nil => rfl
  | cons e es ih => simp [slots, Entry.slots, ih, totalNumPorts]

theorem lanesUsed_cons (e : Entry) (es : List Entry) :
    lanesUsed (e :: es) = e.numAssignedLanes + lanesUsed es := by
  simp [lanesUsed]

theorem mem_entrySlots {start : ℕ} {e : Entry} {a : ℕ × ℕ} (ha : a ∈ e.slots start) :
    a.2 = e.lanesPerPort ∧ start ≤ a.1 ∧ a.1 + a.2 ≤ start + e.numPorts * e.lanesPerPort := by
  obtain ⟨j, hj, rfl⟩ := List.mem_map.1 ha
  have hmul : (j + 1) * e.lanesPerPort ≤ e.numPorts * e.lanesPerPort :=
    Nat.mul_le_mul_right _ (List.mem_range.1 hj)
  rw [Nat.add_mul, Nat.one_mul] at hmul
  exact ⟨rfl, Nat.le_add_right _ _, by dsimp only; omega⟩

theorem mem_slots {start : ℕ} {es : List Entry} {a : ℕ × ℕ} (ha : a ∈ slots start es) :
    (∃ e ∈ es, a.2 = e.lanesPerPort) ∧ start ≤ a.1 ∧ a.1 + a.2 ≤ start + lanesUsed es := by
  induction es generalizing start with
  | nil => exact absurd ha List.not_mem_nil
  | cons e es ih =>
    have hused := lanesUsed_cons e es
    have hmul := e.mul_le
    rcases List.mem_append.1 ha with ha | ha
    · obtain ⟨hw, hstart, hend⟩ := mem_entrySlots ha
      exact ⟨⟨e, List.mem_cons_self, hw⟩, hstart, by omega⟩
    · obtain ⟨⟨e', he', hw⟩, hstart, hend⟩ := ih ha
      exact ⟨⟨e', List.mem_cons_of_mem _ he', hw⟩, by omega, by omega⟩

theorem exists_slot (start : ℕ) {es : List Entry} {e : Entry} (he : e ∈ es)
    (h0 : e.numPorts ≠ 0) : ∃ a ∈ slots start es, a.2 = e.lanesPerPort := by
  induction es generalizing start with
  | nil => exact absurd he List.not_mem_nil
  | cons e' es ih =>
    rcases List.mem_cons.1 he with rfl | he
    · exact ⟨(start + 0 * e.lanesPerPort, e.lanesPerPort), List.mem_append_left _ (List.mem_map.2
        ⟨0, List.mem_range.2 (Nat.pos_of_ne_zero h0), rfl⟩), rfl⟩
    · obtain ⟨a, ha, hw⟩ := ih _ he
      exact ⟨a, List.mem_append_right _ ha, hw⟩

/-- The slots of a mode follow one another. -/
theorem slots_pairwise (start : ℕ) (es : List Entry) :
    (slots start es).Pairwise fun a b => a.1 + a.2 ≤ b.1 := by
  induction es generalizing start with
  | nil => exact List.Pairwise.nil
  | cons e es ih =>
    refine List.pairwise_append.2 ⟨?_, ih _, fun a ha b hb => ?_⟩
    · refine List.pairwise_map.2 (List.pairwise_lt_range.imp fun {i j} hij => ?_)
      have hmul : (i + 1) * e.lanesPerPort ≤ j * e.lanesPerPort := Nat.mul_le_mul_right _ hij
      rw [Nat.add_mul, Nat.one_mul] at hmul
      dsimp only
      omega
    · have ha' := mem_entrySlots ha
      have hb' := mem_slots hb
      omega

/-! ### The loops -/

/-- What the loops write for a slot: the name and the lanes of its port. -/
def BreakoutCfg.placed (c : BreakoutCfg) (a : ℕ × ℕ) : String × List String :=
  (interfaceName (c.interfaceBaseId + a.1), slice c.lanes a.1 a.2)

/-- The names and lanes of all ports of a mode. -/
def BreakoutCfg.written (c : BreakoutCfg) : List (String × List String) :=
  (slots 0 c.entries).map c.placed

/-- The name and the lanes of a port. -/
def nameLanes (p : String × Port) : String × List String := (p.1, p.2.lanes)

theorem keys_eq_map_nameLanes (ports : Dict String Port) :
    Dict.keys ports = (ports.map nameLanes).map Prod.fst := by
  rw [List.map_map]
  rfl

theorem portStep_some {c : BreakoutCfg} {speed : ℤ} {w j : ℕ} {s s' : Loop}
    (h : portStep c speed w s j = some s') :
    ∃ p : String × Port, s'.ports = Dict.set s.ports p.1 p.2 ∧ s'.laneId = s.laneId + w ∧
      nameLanes p = c.placed (s.laneId, w) := by
  obtain ⟨aliasName, -, h⟩ := Option.bind_eq_some_iff.1 h
  obtain ⟨index, -, rfl⟩ := Option.map_eq_some_iff.1 h
  exact ⟨(_, _), rfl, rfl, rfl⟩

theorem foldlM_portStep {c : BreakoutCfg} {speed : ℤ} {w n : ℕ} {s s' : Loop}
    (h : (List.range n).foldlM (portStep c speed w) s = some s') :
    ∃ ps : Dict String Port, s'.ports = Dict.setAll s.ports ps ∧ s'.laneId = s.laneId + n * w ∧
      ps.map nameLanes = ((List.range n).map fun j => (s.laneId + j * w, w)).map c.placed := by
  induction n generalizing s' with
  | zero =>
    obtain rfl := Option.some.inj h
    exact ⟨[], rfl, by simp, rfl⟩
  | succ n ih =>
    rw [List.range_succ, List.foldlM_append] at h
    obtain ⟨s₁, hs₁, h⟩ := Option.bind_eq_some_iff.1 h
    obtain ⟨ps, hports, hlane, hmap⟩ := ih hs₁
    obtain ⟨p, hp, hl, hplaced⟩ := portStep_some (by simpa using h)
    refine ⟨ps ++ [p], ?_, ?_, ?_⟩
    · rw [hp, hports, Dict.setAll, Dict.setAll, List.foldl_append]
      rfl
    · rw [hl, hlane, Nat.add_assoc, Nat.add_mul, Nat.one_mul]
    · rw [List.range_succ, List.map_append, List.map_append, List.map_append, hmap,
        List.map_singleton, hplaced, hlane]
      rfl

theorem foldlM_entryStep {c : BreakoutCfg} {es : List Entry} {s s' : Loop}
    (h : es.foldlM (entryStep c) s = some s') :
    (∀ e ∈ es, e.numPorts ≠ 0) ∧ ∃ ps : Dict String Port, s'.ports = Dict.setAll s.ports ps ∧
      ps.map nameLanes = (slots s.laneId es).map c.placed := by
  induction es generalizing s with
  | nil =>
    obtain rfl := Option.some.inj h
    exact ⟨by simp, [], rfl, rfl⟩
  | cons e es ih =>
    obtain ⟨s₁, hs₁, h⟩ := Option.bind_eq_some_iff.1 h
    unfold entryStep at hs₁
    split at hs₁
    · simp at hs₁
    · next hne =>
      obtain ⟨ps, hports, hlane, hmap⟩ := foldlM_portStep hs₁
      obtain ⟨hpos, ps', hports', hmap'⟩ := ih h
      refine ⟨List.forall_mem_cons.2 ⟨hne, hpos⟩, ps ++ ps', ?_, ?_⟩
      · rw [hports', hports, Dict.setAll, Dict.setAll, Dict.setAll, List.foldl_append]
      · rw [List.map_append, hmap, hmap', hlane, slots, List.map_append]
        rfl

theorem interfaceName_inj {m n : ℤ} : interfaceName m = interfaceName n ↔ m = n := by
  refine ⟨fun h => Int.repr_inj.1 ?_, congrArg interfaceName⟩
  have h' := congrArg String.toList h
  simp only [interfaceName, String.toList_append, List.append_cancel_left_eq] at h'
  exact String.toList_inj.1 h'

/-- `get_config` writes the ports of the mode one after the other. -/
theorem getConfig_some {c : BreakoutCfg} {ports : Dict String Port}
    (h : c.getConfig = some ports) :
    lanesUsed c.entries ≤ c.lanes.length ∧ (∀ e ∈ c.entries, e.numPorts ≠ 0) ∧
      ∃ ps : Dict String Port, ports = Dict.setAll [] ps ∧ ps.map nameLanes = c.written := by
  unfold BreakoutCfg.getConfig at h
  split at h
  · simp at h
  · next hle =>
    obtain ⟨s, hs, rfl⟩ := Option.map_eq_some_iff.1 h
    obtain ⟨hpos, ps, hports, hmap⟩ := foldlM_entryStep hs
    exact ⟨not_lt.1 hle, hpos, ps, hports, hmap⟩

theorem nameLanes_addOptional (hwsku : Dict String HwskuEntry) (p : String × Port) :
    nameLanes (addOptional hwsku p) = nameLanes p := by
  unfold addOptional
  split
  · rfl
  · rfl

/-- The first interface and the others. -/
theorem exists_children {hwsku : Dict String HwskuEntry} {intf : String × Properties}
    {platform : Dict String Properties} {cs : List BreakoutCfg} {ports₀ ports : Dict String Port}
    (hcs : (intf :: platform).mapM (breakoutCfg hwsku) = some cs)
    (h : (intf :: platform).foldlM (interfaceStep hwsku) ports₀ = some ports) :
    ∃ c cs' children, c :: cs' = cs ∧ platform.mapM (breakoutCfg hwsku) = some cs' ∧
      c.getConfig = some children ∧ platform.foldlM (interfaceStep hwsku)
        (Dict.setAll ports₀ (children.map (addOptional hwsku))) = some ports := by
  rw [List.mapM_cons] at hcs
  obtain ⟨c, hc, hcs⟩ := Option.bind_eq_some_iff.1 hcs
  obtain ⟨cs', hcs', hcons⟩ := Option.bind_eq_some_iff.1 hcs
  obtain ⟨ports₁, h₁, h⟩ := Option.bind_eq_some_iff.1 h
  rw [interfaceStep, hc, Option.bind_some] at h₁
  obtain ⟨children, hchildren, rfl⟩ := Option.map_eq_some_iff.1 h₁
  exact ⟨c, cs', children, Option.some.inj hcons, hcs', hchildren, h⟩

/-- Every mode that is accepted fits its lanes, and its entries have ports. -/
theorem accepted {hwsku : Dict String HwskuEntry} {platform : Dict String Properties}
    {cs : List BreakoutCfg} {ports₀ ports : Dict String Port}
    (hcs : platform.mapM (breakoutCfg hwsku) = some cs)
    (h : platform.foldlM (interfaceStep hwsku) ports₀ = some ports) :
    ∀ c ∈ cs, lanesUsed c.entries ≤ c.lanes.length ∧ ∀ e ∈ c.entries, e.numPorts ≠ 0 := by
  induction platform generalizing cs ports₀ with
  | nil =>
    obtain rfl := Option.some.inj hcs
    simp
  | cons intf platform ih =>
    obtain ⟨c, cs', children, rfl, hcs', hchildren, h⟩ := exists_children hcs h
    obtain ⟨hused, hpos, -⟩ := getConfig_some hchildren
    exact List.forall_mem_cons.2 ⟨⟨hused, hpos⟩, ih hcs' h⟩

/-- All interfaces: the result is what their modes write, one after the other, if no name comes
    twice or no port is lost. -/
theorem parse_written {hwsku : Dict String HwskuEntry} {platform : Dict String Properties}
    {cs : List BreakoutCfg} {ports₀ ports : Dict String Port}
    (hcs : platform.mapM (breakoutCfg hwsku) = some cs)
    (h : platform.foldlM (interfaceStep hwsku) ports₀ = some ports) :
    ∃ ps : Dict String Port, ps.map nameLanes = cs.flatMap BreakoutCfg.written ∧
      ports.length ≤ ports₀.length + ps.length ∧
      ((Dict.keys (ports₀ ++ ps)).Nodup ∨ ports.length = ports₀.length + ps.length →
        ports = ports₀ ++ ps) := by
  induction platform generalizing cs ports₀ with
  | nil =>
    obtain rfl := Option.some.inj h
    obtain rfl := Option.some.inj hcs
    exact ⟨[], rfl, le_rfl, fun _ => (List.append_nil _).symm⟩
  | cons intf platform ih =>
    obtain ⟨c, cs', children, rfl, hcs', hchildren, h⟩ := exists_children hcs h
    obtain ⟨-, -, ps, rfl, hmap⟩ := getConfig_some hchildren
    obtain ⟨ps', hmap', hle, heq⟩ := ih hcs' h
    have hfirst : ((Dict.setAll [] ps).map (addOptional hwsku)).length ≤ ps.length := by
      simpa using Dict.length_setAll_le [] ps
    have hsecond := Dict.length_setAll_le ports₀ ((Dict.setAll [] ps).map (addOptional hwsku))
    refine ⟨ps.map (addOptional hwsku) ++ ps', ?_, ?_, fun hall => ?_⟩
    · rw [List.map_append, hmap', List.flatMap_cons, List.map_map, ← hmap]
      congr 1
      exact List.map_congr_left fun p _ => nameLanes_addOptional hwsku p
    · rw [List.length_append, List.length_map]
      omega
    · -- nothing is lost within the interface, nor when its ports are added
      have hkeys : Dict.keys (ps.map (addOptional hwsku)) = Dict.keys ps := by
        rw [keys_eq_map_nameLanes, keys_eq_map_nameLanes, List.map_map, List.map_map, List.map_map]
        exact List.map_congr_left fun p _ => congrArg Prod.fst (nameLanes_addOptional hwsku p)
      obtain ⟨hps, hport⟩ : Dict.setAll [] ps = ps ∧
          Dict.setAll ports₀ (ps.map (addOptional hwsku)) =
            ports₀ ++ ps.map (addOptional hwsku) := by
        rcases hall with hnodup | hlen
        · rw [← List.append_assoc, Dict.keys, List.map_append, ← Dict.keys] at hnodup
          have hfirst := (List.nodup_append.1 hnodup).1
          have hown : (Dict.keys ps).Nodup := by
            rw [Dict.keys, List.map_append, ← Dict.keys, ← Dict.keys, hkeys] at hfirst
            exact (List.nodup_append.1 hfirst).2.1
          exact ⟨Dict.foldl_set_of_nodup ps [] hown, Dict.foldl_set_of_nodup _ _ hfirst⟩
        · rw [List.length_append, List.length_map] at hlen
          have hps : Dict.setAll [] ps = ps := Dict.setAll_eq_append (by
            rw [List.length_map] at hfirst hsecond
            simp only [List.length_nil]
            omega)
          rw [hps] at hsecond hle
          refine ⟨hps, Dict.setAll_eq_append ?_⟩
          rw [List.length_map] at hsecond ⊢
          omega
      rw [hps, hport] at heq
      rw [← List.append_assoc]
      refine heq (hall.imp (fun hnodup => by rwa [List.append_assoc]) fun hlen => ?_)
      rw [hlen, List.length_append, List.length_append, Nat.add_assoc]

/-! ### Names and lanes of all ports -/

theorem mem_slice {xs : List String} {lo n : ℕ} {x : String} (h : x ∈ slice xs lo n) :
    x ∈ xs.take (lo + n) ∧ x ∈ xs.drop lo := by
  refine ⟨?_, List.mem_of_mem_take h⟩
  rw [slice, List.take_drop] at h
  exact List.mem_of_mem_drop h

theorem disjoint_slice {xs : List String} (h : xs.Nodup) {lo n lo' n' : ℕ} (hle : lo + n ≤ lo') :
    List.Disjoint (slice xs lo n) (slice xs lo' n') := fun _ hx hx' =>
  List.disjoint_take_drop h hle (mem_slice hx).1 (mem_slice hx').2

theorem slice_ne_nil {xs : List String} {lo n : ℕ} (hn : 0 < n) (h : lo < xs.length) :
    slice xs lo n ≠ [] := by
  rw [← List.length_pos_iff, slice, List.length_take, List.length_drop]
  omega

theorem slice_slice (xs : List String) {a m b n : ℕ} (h : b + n ≤ m) :
    slice (slice xs a m) b n = slice xs (a + b) n := by
  rw [slice, slice, slice, List.drop_take, List.take_take, List.drop_drop]
  congr 1
  omega

theorem slice_subset {xs : List String} {lo n lo' n' : ℕ} (hlo : lo' ≤ lo)
    (hhi : lo + n ≤ lo' + n') : slice xs lo n ⊆ slice xs lo' n' := by
  have heq : slice (slice xs lo' n') (lo - lo') n = slice xs lo n := by
    rw [slice_slice xs (by omega), Nat.add_sub_cancel' hlo]
  rw [← heq]
  exact fun x hx => List.mem_of_mem_drop (mem_slice hx).2

/-- A slice inside another one does not start before it. -/
theorem le_of_slice_subset {xs : List String} (h : xs.Nodup) {lo n lo' n' : ℕ} (hn : 0 < n)
    (hlo : lo < xs.length) (hsub : slice xs lo n ⊆ slice xs lo' n') : lo' ≤ lo := by
  by_contra hlt
  obtain ⟨x, hx⟩ := List.exists_mem_of_ne_nil _ (slice_ne_nil Nat.one_pos hlo)
  exact disjoint_slice h (by omega) hx (hsub (slice_subset le_rfl (by omega) hx))

/-- The blocks of lanes of the entries, one for each port. -/
def blocks (lanes : List String) : ℕ → List Entry → List (List String)
  | _, [] => []
  | start, e :: es =>
    List.replicate e.numPorts (slice lanes start e.numAssignedLanes) ++
      blocks lanes (start + e.numAssignedLanes) es

theorem length_blocks (lanes : List String) (start : ℕ) (es : List Entry) :
    (blocks lanes start es).length = totalNumPorts es := by
  induction es generalizing start with
  | nil => rfl
  | cons e es ih => simp [blocks, ih, totalNumPorts]

/-- The ports of the modes: as many as they say, under different names, with lanes of their own, and
    one after the other in the blocks of their entries. -/
structure Correct (cs : List BreakoutCfg) (ports : Dict String Port) : Prop where
  names : (Dict.keys ports).Nodup
  count : ports.length = (cs.map fun c => totalNumPorts c.entries).sum
  nonempty : ∀ p ∈ ports, p.2.lanes ≠ []
  disjoint : ports.Pairwise fun p q => List.Disjoint p.2.lanes q.2.lanes
  inside : List.Forall₂ (fun p block => p.2.lanes ⊆ block) ports
    (cs.flatMap fun c => blocks c.lanes 0 c.entries)

/-- The interfaces of a platform: lanes without repetition, none of them in two interfaces, and the
    numbers of the names as far apart as there are lanes. -/
structure Separate (cs : List BreakoutCfg) : Prop where
  nodup : ∀ c ∈ cs, c.lanes.Nodup
  lanes : cs.Pairwise fun c c' => List.Disjoint c.lanes c'.lanes
  spaced : cs.Pairwise fun c c' => c.interfaceBaseId + (c.lanes.length : ℤ) ≤ c'.interfaceBaseId ∨
    c'.interfaceBaseId + (c'.lanes.length : ℤ) ≤ c.interfaceBaseId

/-- No entry has more ports than lanes, and in every entry but the last the ports divide the
    lanes. -/
def Fits (es : List Entry) : Prop :=
  (∀ e ∈ es, e.numPorts ≤ e.numAssignedLanes) ∧
    ∀ e ∈ es.dropLast, e.numPorts ∣ e.numAssignedLanes

theorem Entry.lanesPerPort_pos {e : Entry} (h0 : e.numPorts ≠ 0) :
    0 < e.lanesPerPort ↔ e.numPorts ≤ e.numAssignedLanes :=
  Nat.div_pos_iff.trans (and_iff_right (Nat.pos_of_ne_zero h0))

section lists

variable {α β γ : Type} {R : α → β → Prop}

theorem forall₂_append {l₁ l₂ : List α} {m₁ m₂ : List β} (hlen : l₁.length = m₁.length) :
    List.Forall₂ R (l₁ ++ l₂) (m₁ ++ m₂) ↔ List.Forall₂ R l₁ m₁ ∧ List.Forall₂ R l₂ m₂ := by
  induction l₁ generalizing m₁ with
  | nil =>
    obtain rfl := List.length_eq_zero_iff.1 hlen.symm
    simp
  | cons a l₁ ih =>
    cases m₁ with
    | nil => simp at hlen
    | cons b m₁ => simp [List.forall₂_cons, ih (Nat.succ.inj hlen), and_assoc]

theorem forall₂_flatMap {cs : List γ} {f : γ → List α} {g : γ → List β}
    (hlen : ∀ c ∈ cs, (f c).length = (g c).length) :
    List.Forall₂ R (cs.flatMap f) (cs.flatMap g) ↔ ∀ c ∈ cs, List.Forall₂ R (f c) (g c) := by
  induction cs with
  | nil => simp
  | cons c cs ih =>
    obtain ⟨hc, hcs⟩ := List.forall_mem_cons.1 hlen
    rw [List.flatMap_cons, List.flatMap_cons, forall₂_append hc, ih hcs, List.forall_mem_cons]

theorem forall₂_replicate {l : List α} {b : β} {n : ℕ} (hlen : l.length = n) :
    List.Forall₂ R l (List.replicate n b) ↔ ∀ a ∈ l, R a b := by
  induction l generalizing n with
  | nil =>
    subst hlen
    simp
  | cons a l ih =>
    subst hlen
    rw [List.length_cons, List.replicate_succ, List.forall₂_cons, ih rfl, List.forall_mem_cons]

end lists

/-- The ports of a mode stay in the blocks if and only if every entry but the last fills its own. -/
theorem inside_iff {lanes : List String} (hnodup : lanes.Nodup) {start : ℕ} {es : List Entry}
    (h0 : ∀ e ∈ es, e.numPorts ≠ 0) (hpos : ∀ e ∈ es, 0 < e.lanesPerPort)
    (hlen : start + lanesUsed es ≤ lanes.length) :
    List.Forall₂ (fun a block => slice lanes a.1 a.2 ⊆ block) (slots start es)
        (blocks lanes start es) ↔ ∀ e ∈ es.dropLast, e.numPorts ∣ e.numAssignedLanes := by
  induction es generalizing start with
  | nil => simp [slots, blocks]
  | cons e es ih =>
    have hused := lanesUsed_cons e es
    have hown : List.Forall₂ (fun a block => slice lanes a.1 a.2 ⊆ block) (e.slots start)
        (List.replicate e.numPorts (slice lanes start e.numAssignedLanes)) := by
      refine (forall₂_replicate (by simp [Entry.slots])).2 fun a ha => ?_
      obtain ⟨-, hstart, hend⟩ := mem_entrySlots ha
      exact slice_subset hstart (hend.trans (Nat.add_le_add_left e.mul_le start))
    rw [slots, blocks, forall₂_append (by simp [Entry.slots]), and_iff_right hown]
    cases es with
    | nil => simp [slots, blocks]
    | cons e' es =>
      rw [List.dropLast_cons_cons, List.forall_mem_cons]
      obtain ⟨he0, h0'⟩ := List.forall_mem_cons.1 h0
      obtain ⟨hepos, hpos'⟩ := List.forall_mem_cons.1 hpos
      have hfill : e.numPorts ∣ e.numAssignedLanes ↔
          e.numPorts * e.lanesPerPort = e.numAssignedLanes :=
        ⟨Nat.mul_div_cancel', fun h => ⟨_, h.symm⟩⟩
      by_cases hmul : e.numPorts * e.lanesPerPort = e.numAssignedLanes
      · rw [hmul, and_iff_right (hfill.2 hmul)]
        exact ih h0' hpos' (by omega)
      · -- the first port of the next entry is before its block
        refine iff_of_false (fun hall => hmul ?_) fun h => hmul (hfill.1 h.1)
        rw [slots, blocks, forall₂_append (by simp [Entry.slots])] at hall
        have hfirst := (forall₂_replicate (by simp [Entry.slots])).1 hall.1
          (start + e.numPorts * e.lanesPerPort, e'.lanesPerPort) (List.mem_map.2
            ⟨0, List.mem_range.2 (Nat.pos_of_ne_zero (h0' e' List.mem_cons_self)), by simp⟩)
        have hused' := lanesUsed_cons e' es
        have hle := e.mul_le
        have hlanes := hpos' e' List.mem_cons_self
        have hnext := (e'.lanesPerPort_pos (h0' e' List.mem_cons_self)).1 hlanes
        have hne := h0' e' List.mem_cons_self
        have hge := le_of_slice_subset hnodup hlanes (by omega) hfirst
        omega

/-! ### The platform -/

section platform

variable {cs : List BreakoutCfg}

/-- The names that are written come once if every port has a lane. -/
theorem Separate.names (hsep : Separate cs)
    (hpos : ∀ c ∈ cs, ∀ e ∈ c.entries, 0 < e.lanesPerPort)
    (hused : ∀ c ∈ cs, lanesUsed c.entries ≤ c.lanes.length) :
    ((cs.flatMap BreakoutCfg.written).map Prod.fst).Nodup := by
  rw [List.map_flatMap]
  refine List.nodup_flatMap.2 ⟨fun c hc => ?_, ?_⟩
  · rw [BreakoutCfg.written, List.map_map]
    refine List.pairwise_map.2
      ((slots_pairwise 0 c.entries).imp_of_mem fun {a b} ha _ hab heq => ?_)
    obtain ⟨⟨e, he, hw⟩, -, -⟩ := mem_slots ha
    have hid := interfaceName_inj.1 heq
    have := hpos c hc e he
    omega
  · refine hsep.spaced.imp_of_mem fun {c c'} hc hc' hspace => ?_
    intro name (hname : name ∈ c.written.map Prod.fst) (hname' : name ∈ c'.written.map Prod.fst)
    rw [BreakoutCfg.written, List.map_map] at hname hname'
    obtain ⟨a, ha, rfl⟩ := List.mem_map.1 hname
    obtain ⟨b, hb, heq⟩ := List.mem_map.1 hname'
    have hid := interfaceName_inj.1 heq
    obtain ⟨⟨e, he, hw⟩, ha'⟩ := mem_slots ha
    obtain ⟨⟨e', he', hw'⟩, hb'⟩ := mem_slots hb
    have := hused c hc
    have := hused c' hc'
    have := hpos c hc e he
    have := hpos c' hc' e' he'
    omega

theorem Separate.disjoint (hsep : Separate cs) :
    (cs.flatMap BreakoutCfg.written).Pairwise fun p q => List.Disjoint p.2 q.2 := by
  rw [List.pairwise_flatMap]
  refine ⟨fun c hc => ?_, hsep.lanes.imp fun {c c'} hdisj p hp q hq => ?_⟩
  · exact List.pairwise_map.2 ((slots_pairwise 0 c.entries).imp
      fun hle => disjoint_slice (hsep.nodup c hc) hle)
  · obtain ⟨a, -, rfl⟩ := List.mem_map.1 hp
    obtain ⟨b, -, rfl⟩ := List.mem_map.1 hq
    exact fun x hx hx' => hdisj (List.mem_of_mem_drop (mem_slice hx).2)
      (List.mem_of_mem_drop (mem_slice hx').2)

theorem length_written (cs : List BreakoutCfg) :
    (cs.flatMap BreakoutCfg.written).length = (cs.map fun c => totalNumPorts c.entries).sum := by
  rw [List.length_flatMap]
  simp only [BreakoutCfg.written, List.length_map, length_slots]

/-- The ports have lanes if and only if no entry has more ports than lanes. -/
theorem written_nonempty_iff {c : BreakoutCfg} (h0 : ∀ e ∈ c.entries, e.numPorts ≠ 0)
    (hused : lanesUsed c.entries ≤ c.lanes.length) :
    (∀ p ∈ c.written, p.2 ≠ []) ↔ ∀ e ∈ c.entries, 0 < e.lanesPerPort := by
  constructor
  · intro h e he
    obtain ⟨a, ha, hw⟩ := exists_slot 0 he (h0 e he)
    have hne := h _ (List.mem_map_of_mem ha)
    rw [Nat.pos_iff_ne_zero, ← hw]
    exact fun hzero => hne (by simp [BreakoutCfg.placed, slice, hzero])
  · intro hpos p hp
    obtain ⟨a, ha, rfl⟩ := List.mem_map.1 hp
    obtain ⟨⟨e, he, hw⟩, -, hend⟩ := mem_slots ha
    have hlanes := hpos e he
    exact slice_ne_nil (by omega) (by omega)

/-- The lanes of what is written, and the blocks. -/
theorem written_inside_iff (hsep : Separate cs) (h0 : ∀ c ∈ cs, ∀ e ∈ c.entries, e.numPorts ≠ 0)
    (hpos : ∀ c ∈ cs, ∀ e ∈ c.entries, 0 < e.lanesPerPort)
    (hused : ∀ c ∈ cs, lanesUsed c.entries ≤ c.lanes.length) :
    List.Forall₂ (fun p block => p.2 ⊆ block) (cs.flatMap BreakoutCfg.written)
        (cs.flatMap fun c => blocks c.lanes 0 c.entries) ↔
      ∀ c ∈ cs, ∀ e ∈ c.entries.dropLast, e.numPorts ∣ e.numAssignedLanes := by
  rw [forall₂_flatMap fun c _ => by
    rw [BreakoutCfg.written, List.length_map, length_slots, length_blocks]]
  refine forall₂_congr fun c hc => ?_
  rw [BreakoutCfg.written, List.forall₂_map_left_iff]
  exact inside_iff (hsep.nodup c hc) (h0 c hc) (hpos c hc) (by simpa using hused c hc)

/-- An accepted assignment of modes gives each mode its ports, with different names, non-empty and
    disjoint lanes inside the block of their entry, if and only if the modes fit. -/
theorem ports_of_modes_iff {hwsku : Dict String HwskuEntry} {platform : Dict String Properties}
    {ports : Dict String Port} (hcs : platform.mapM (breakoutCfg hwsku) = some cs)
    (hsep : Separate cs) (hports : parsePlatformJsonFile platform hwsku = some ports) :
    Correct cs ports ↔ ∀ c ∈ cs, Fits c.entries := by
  have hacc := accepted hcs hports
  have hused := fun c hc => (hacc c hc).1
  have h0 := fun c hc => (hacc c hc).2
  have hwidth (c : BreakoutCfg) (hc : c ∈ cs) (e : Entry) (he : e ∈ c.entries) :=
    e.lanesPerPort_pos (h0 c hc e he)
  obtain ⟨ps, hmap, -, heq⟩ := parse_written hcs hports
  rw [List.nil_append, List.length_nil, Nat.zero_add] at heq
  have hlen : ps.length = (cs.map fun c => totalNumPorts c.entries).sum := by
    rw [← List.length_map nameLanes, hmap, length_written]
  constructor
  · intro hcorrect
    obtain rfl := heq (Or.inr (hcorrect.count.trans hlen.symm))
    have hpos : ∀ c ∈ cs, ∀ e ∈ c.entries, 0 < e.lanesPerPort := by
      intro c hc
      refine (written_nonempty_iff (h0 c hc) (hused c hc)).1 fun p hp => ?_
      have hmem : p ∈ ports.map nameLanes := hmap ▸ List.mem_flatMap.2 ⟨c, hc, hp⟩
      obtain ⟨q, hq, rfl⟩ := List.mem_map.1 hmem
      exact hcorrect.nonempty q hq
    have hinside : List.Forall₂ (fun p block => p.2 ⊆ block) (ports.map nameLanes)
        (cs.flatMap fun c => blocks c.lanes 0 c.entries) :=
      List.forall₂_map_left_iff.2 hcorrect.inside
    rw [hmap, written_inside_iff hsep h0 hpos hused] at hinside
    exact fun c hc => ⟨fun e he => (hwidth c hc e he).1 (hpos c hc e he), hinside c hc⟩
  · intro hfits
    have hpos : ∀ c ∈ cs, ∀ e ∈ c.entries, 0 < e.lanesPerPort := fun c hc e he =>
      (hwidth c hc e he).2 ((hfits c hc).1 e he)
    have hnames : (Dict.keys ps).Nodup := by
      rw [keys_eq_map_nameLanes, hmap]
      exact hsep.names hpos hused
    obtain rfl := heq (Or.inl hnames)
    refine ⟨hnames, hlen, fun p hp => ?_, ?_, ?_⟩
    · have hmem : nameLanes p ∈ cs.flatMap BreakoutCfg.written := hmap ▸ List.mem_map_of_mem hp
      obtain ⟨c, hc, hmem⟩ := List.mem_flatMap.1 hmem
      exact (written_nonempty_iff (h0 c hc) (hused c hc)).2 (hpos c hc) _ hmem
    · have hdisj := hsep.disjoint
      rw [← hmap, List.pairwise_map] at hdisj
      exact hdisj
    · have hinside := (written_inside_iff hsep h0 hpos hused).2 fun c hc => (hfits c hc).2
      rw [← hmap] at hinside
      exact (List.forall₂_map_left_iff (f := nameLanes)).1 hinside

end platform

/-! ### Platforms -/

/-- An interface with one supported mode. -/
def samplePort (lanes : List String) (mode : String) : Properties :=
  ⟨lanes, lanes.map fun _ => "1", [(mode, ["a", "b", "c", "d", "e", "f", "g", "h"])]⟩

def samplePlatform : Dict String Properties :=
  [("Ethernet0", samplePort ["0", "1", "2", "3", "8", "9"] "2x25G(2)+3x10G(4)"),
    ("Ethernet8", samplePort ["4", "5", "6", "7"] "1x100G")]

def sampleHwsku : Dict String HwskuEntry :=
  [("Ethernet0", ⟨"2x25G(2)+3x10G(4)", [("fec", "rs")]⟩), ("Ethernet8", ⟨"1x100G", []⟩)]

def sampleCfgs : List BreakoutCfg :=
  [⟨0, ["0", "1", "2", "3", "8", "9"], ["1", "1", "1", "1", "1", "1"],
      [⟨2, 25000, [25000], 2⟩, ⟨3, 10000, [10000], 4⟩],
      ["a", "b", "c", "d", "e", "f", "g", "h"]⟩,
    ⟨8, ["4", "5", "6", "7"], ["1", "1", "1", "1"], [⟨1, 100000, [100000], 4⟩],
      ["a", "b", "c", "d", "e", "f", "g", "h"]⟩]

/-- Two interfaces, one of them with a mode of two entries, the last of which is uneven. -/
theorem six_ports : ∃ ports, parsePlatformJsonFile samplePlatform sampleHwsku = some ports ∧
    Separate sampleCfgs ∧ Correct sampleCfgs ports ∧ ports.length = 6 := by
  have hcs : samplePlatform.mapM (breakoutCfg sampleHwsku) = some sampleCfgs := by
    decide +kernel
  have hsep : Separate sampleCfgs := ⟨by decide, by simp [sampleCfgs], by simp [sampleCfgs]⟩
  have hfits : ∀ c ∈ sampleCfgs, Fits c.entries := by
    unfold Fits
    decide
  obtain ⟨ports, hports⟩ : ∃ ports, parsePlatformJsonFile samplePlatform sampleHwsku = some ports :=
    Option.isSome_iff_exists.1 (by decide +kernel)
  have hcorrect := (ports_of_modes_iff hcs hsep hports).2 hfits
  exact ⟨ports, hports, hsep, hcorrect, hcorrect.count⟩

/-- Three ports on four lanes: the second entry starts one lane early.  Eight ports on four lanes:
    one name, no lanes. -/
theorem lanes_rounded :
    (parsePlatformJsonFile
        [("Ethernet0", samplePort ["0", "1", "2", "3", "4", "5", "6", "7"] "3x10G(4)+1x40G(4)")]
        [("Ethernet0", ⟨"3x10G(4)+1x40G(4)", []⟩)]).map (fun ports => ports.map nameLanes) =
      some [("Ethernet0", ["0"]), ("Ethernet1", ["1"]), ("Ethernet2", ["2"]),
        ("Ethernet3", ["3", "4", "5", "6"])] ∧
    (parsePlatformJsonFile [("Ethernet0", samplePort ["0", "1", "2", "3"] "8x10G(4)")]
        [("Ethernet0", ⟨"8x10G(4)", []⟩)]).map (fun ports => ports.map nameLanes) =
      some [("Ethernet0", [])] := by
  decide +kernel

end SonicBuildimage.ConfigEngine.Breakout
