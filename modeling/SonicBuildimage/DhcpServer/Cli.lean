/-
  The commands `config dhcp_server ipv4`
  (dockers/docker-dhcp-server/cli/config/plugins/dhcp_server.py).

  Model.  CONFIG_DB maps a table and the rest of the key (behind the first bar) to the fields of the
  row.  A command gives the database afterwards and whether it succeeded; `ctx.fail` and an
  exception both end it, with what was written so far.  A set of texts is walked through in any
  order (`Env.order`).

  `Change` says what a command can do to the database: it writes or deletes at most one row, after
  the checks that the constructor names.  What holds of all runs is derived from it (`Integrity`,
  `Inside`).

  Not modelled: the state of the feature, `range@` with other than one or two parts (no command
  writes it), digits that are not ASCII, and glob characters in names.
-/
import SonicBuildimage.Lib.PyDict
import SonicBuildimage.Lib.PyStr

namespace SonicBuildimage.DhcpServer

open SonicBuildimage.Lib

/-! ## CONFIG_DB -/

inductive Table where
  | server
  | port
  | range
  | customizedOptions
  | vlanInterface
  | vlanMember
  deriving DecidableEq

abbrev Key := Table × String

abbrev Row := Dict String String

abbrev Db := Dict Key Row

/-- `dbconn.get` -/
def getField (db : Db) (key : Key) (field : String) : Option String :=
  (Dict.get? db key).bind fun row => Dict.get? row field

/-- `dbconn.set` -/
def setField (db : Db) (key : Key) (field value : String) : Db :=
  Dict.set db key (Dict.set ((Dict.get? db key).getD []) field value)

/-- `hdel`; a row without fields does not exist. -/
def delField (db : Db) (key : Key) (field : String) : Db :=
  match Dict.get? db key with
  | none => db
  | some row =>
    if Dict.erase row field = [] then Dict.erase db key else Dict.set db key (Dict.erase row field)

/-- `dbconn.keys` for a table and the beginning of a key -/
def keysWith (db : Db) (table : Table) (start : String) : List String :=
  ((Dict.keys db).filter fun k => k.1 = table && startswith k.2 start).map Prod.snd

/-- `value.split(",") if value else []` -/
def names (value : Option String) : List String :=
  match value with
  | none => []
  | some s => if s = "" then [] else split ',' s

/-- What the commands ask of the Python runtime. -/
structure Env where
  /-- the number of an IPv4 address in four parts; `none` for other texts -/
  ipv4 : String → Option Nat
  ipv4_empty : ipv4 "" = none
  /-- `ip_network(s, strict=False)`: the first and the last address, for IPv4; `none` for a
      ValueError -/
  ipNetwork : String → Option (Option (Nat × Nat))
  /-- `ip_interface(s)`: address and netmask, for IPv4; `none` for a ValueError -/
  ipInterface : String → Option (Option (String × String))
  /-- the elements of the set of some texts -/
  order : List String → List String
  order_perm : ∀ xs, (order xs).Perm xs.dedup

section Commands

variable (env : Env)

def supportedType : List String :=
  ["binary", "boolean", "ipv4-address", "string", "uint8", "uint16", "uint32"]

def isHexdigit (c : Char) : Bool :=
  c.isDigit || ('a' ≤ c && c ≤ 'f') || ('A' ≤ c && c ≤ 'F')

def validateStrType (type value : String) : Bool :=
  if type ∉ supportedType then false
  else if type = "string" then true
  else if type = "binary" then
    value.length ≠ 0 && value.length % 2 = 0 && value.toList.all isHexdigit
  else if type = "boolean" then value ∈ ["true", "false"]
  else if type = "ipv4-address" then (env.ipv4 value).isSome
  else
    match decimal value, decimal (String.ofList (type.toList.filter Char.isDigit)) with
    | some n, some length => n ≤ 2 ^ length - 1
    | _, _ => false

/-- `--dup_gw_nm`: address and netmask of the last IPv4 address of a VLAN; `none` for an
    exception. -/
def dupGwNm (db : Db) (vlan : String) : Option (Option (String × String)) :=
  (keysWith db .vlanInterface (vlan ++ "|")).foldlM (fun found key =>
    ((split '|' key)[1]?.bind env.ipInterface).map fun intf => intf.or found) none

/-! ### Interfaces -/

def serverAdd (db : Db) (mode leaseTime : String) (dup : Bool) (gateway netmask : Option String)
    (vlan : String) : Db × Bool :=
  let write (gateway netmask : String) : Db × Bool :=
    if (Dict.get? db (.server, vlan)).isSome then (db, false)
    else (Dict.set db (.server, vlan) [("mode", mode), ("lease_time", leaseTime),
      ("gateway", gateway), ("netmask", netmask), ("state", "disabled")], true)
  if mode ≠ "PORT" then (db, false)
  else if ¬validateStrType env "uint32" leaseTime then (db, false)
  else if (Dict.get? db (.vlanInterface, vlan)).isNone then (db, false)
  else if dup then
    match dupGwNm env db vlan with
    | some (some (gateway, netmask)) => write gateway netmask
    | _ => (db, false)
  else
    match gateway, netmask with
    | some gateway, some netmask =>
      if validateStrType env "ipv4-address" gateway && validateStrType env "ipv4-address" netmask
      then write gateway netmask else (db, false)
    | _, _ => (db, false)

def serverDel (db : Db) (vlan : String) : Db × Bool :=
  if (Dict.get? db (.server, vlan)).isSome then (Dict.erase db (.server, vlan), true)
  else (db, false)

/-- `enable` and `disable` -/
def serverState (state : String) (db : Db) (vlan : String) : Db × Bool :=
  if (Dict.get? db (.server, vlan)).isSome then (setField db (.server, vlan) "state" state, true)
  else (db, false)

/-! ### Ranges -/

/-- The checks of `range add` and `range update`, and the text that is written. -/
def rangeText (ipStart : String) (ipEnd : Option String) : Option String :=
  let ipEnd := match ipEnd with
    | some e => if e = "" then ipStart else e
    | none => ipStart
  match env.ipv4 ipStart, env.ipv4 ipEnd with
  | some a, some b => if b < a then none else some (ipStart ++ "," ++ ipEnd)
  | _, _ => none

def rangeAdd (db : Db) (name ipStart : String) (ipEnd : Option String) : Db × Bool :=
  match rangeText env ipStart ipEnd with
  | none => (db, false)
  | some text =>
    if (Dict.get? db (.range, name)).isSome then (db, false)
    else (Dict.set db (.range, name) [("range@", text)], true)

def rangeUpdate (db : Db) (name ipStart : String) (ipEnd : Option String) : Db × Bool :=
  match rangeText env ipStart ipEnd with
  | none => (db, false)
  | some text =>
    if (Dict.get? db (.range, name)).isSome then (setField db (.range, name) "range@" text, true)
    else (db, false)

def rangeDel (db : Db) (name : String) (force : Bool) : Db × Bool :=
  if (Dict.get? db (.range, name)).isSome then
    if !force && (keysWith db .port "").any fun k => name ∈ names (getField db (.port, k) "ranges@")
    then (db, false)
    else (Dict.erase db (.range, name), true)
  else (db, false)

/-! ### Ports -/

/-- The IPv4 networks of a VLAN; `none` for a ValueError. -/
def subnets (db : Db) (vlan : String) : Option (List (Nat × Nat)) :=
  ((keysWith db .vlanInterface (vlan ++ "|")).mapM fun k =>
    env.ipNetwork (dropLen k (vlan ++ "|"))).map fun nets => nets.filterMap id

/-- The end points of a range, as they are stored. -/
def rangeEnds (text : String) : Option (Nat × Nat) :=
  match split ',' text with
  | [a] => (env.ipv4 a).map fun a => (a, a)
  | [a, b] => (env.ipv4 a).bind fun a => (env.ipv4 b).map fun b => (a, b)
  | _ => none

def inNet (net : Nat × Nat) (a : Nat) : Bool := net.1 ≤ a && a ≤ net.2

/-- Both ends are in one of the networks. -/
def endsFit (nets : List (Nat × Nat)) : Option (Nat × Nat) → Bool
  | some ends => nets.any fun net => inNet net ends.1 && inNet net ends.2
  | none => false

/-- The range exists, and lies in one of the networks. -/
def rangeFits (db : Db) (nets : List (Nat × Nat)) (name : String) : Bool :=
  endsFit nets ((getField db (.range, name) "range@").bind (rangeEnds env))

def ipFits (nets : List (Nat × Nat)) (ip : String) : Bool :=
  match env.ipv4 ip with
  | some a => nets.any fun net => inNet net a
  | none => false

/-- One pass of the loop over `ips@` and `ranges@` in `bind`. -/
def bindField (key : Key) (keyExist : Bool) (s : Db × Bool) (field : String) (value : List String) :
    Db × Bool :=
  if ¬s.2 then s
  else if keyExist then
    let existing := names (getField s.1 key field)
    if existing ≠ [] ↔ value = [] then (s.1, false)
    else if value ≠ [] then
      (setField s.1 key field (join "," (env.order (existing ++ value))), true)
    else s
  else if value ≠ [] then (Dict.set s.1 key [(field, join "," (env.order value))], true)
  else s

def bind (db : Db) (vlan member : String) (range ipList : Option String) : Db × Bool :=
  if (Dict.get? db (.vlanMember, vlan ++ "|" ++ member)).isNone then (db, false)
  else
    match subnets env db vlan with
    | none => (db, false)
    | some nets =>
      if ¬(names range).all (rangeFits env db nets) then (db, false)
      else if ¬(names ipList).all (ipFits env nets) then (db, false)
      else if names range ≠ [] ↔ names ipList ≠ [] then (db, false)
      else
        let key : Key := (.port, vlan ++ "|" ++ member)
        let keyExist := (Dict.get? db key).isSome
        bindField env key keyExist (bindField env key keyExist (db, true) "ips@" (names ipList))
          "ranges@" (names range)

/-- One pass of the loop over `ips@` and `ranges@` in `unbind`. -/
def unbindField (key : Key) (s : Db × Bool) (field : String) (value : List String) : Db × Bool :=
  if ¬s.2 ∨ value = [] then s
  else
    let existing := names (getField s.1 key field)
    if ∀ x ∈ value, x ∈ existing then
      let rest := existing.filter fun x => x ∉ value
      if rest ≠ [] then (setField s.1 key field (join "," (env.order rest)), true)
      else (Dict.erase s.1 key, true)
    else (s.1, false)

def unbind (db : Db) (vlan member : String) (range ipList : Option String) : Db × Bool :=
  let key : Key := (.port, vlan ++ "|" ++ member)
  if ipList = some "all" then (Dict.erase db key, true)
  else if names range ≠ [] ↔ names ipList ≠ [] then (db, false)
  else if (Dict.get? db key).isNone then (db, false)
  else unbindField env key (unbindField env key (db, true) "ips@" (names ipList)) "ranges@"
    (names range)

/-! ### Options -/

def supportedOptionId : List String :=
  ["147", "148", "149", "163", "164", "165", "166", "167", "168", "169", "170", "171", "172",
    "173", "174", "178", "179", "180", "181", "182", "183", "184", "185", "186", "187", "188",
    "189", "190", "191", "192", "193", "194", "195", "196", "197", "198", "199", "200", "201",
    "202", "203", "204", "205", "206", "207", "214", "215", "216", "217", "218", "219", "222",
    "223"]

def optionAdd (db : Db) (name id type value : String) : Db × Bool :=
  if id ∉ supportedOptionId then (db, false)
  else if type ∉ supportedType then (db, false)
  else if ¬validateStrType env type value then (db, false)
  else if (Dict.get? db (.customizedOptions, name)).isSome then (db, false)
  else (Dict.set db (.customizedOptions, name) [("id", id), ("type", type), ("value", value)], true)

def optionDel (db : Db) (name : String) : Db × Bool :=
  if (Dict.get? db (.customizedOptions, name)).isNone then (db, false)
  else if (keysWith db .server "").any fun k =>
      name ∈ names (getField db (.server, k) "customized_options@") then (db, false)
  else (Dict.erase db (.customizedOptions, name), true)

def optionBind (db : Db) (vlan optionList : String) : Db × Bool :=
  if (Dict.get? db (.server, vlan)).isNone then (db, false)
  else if ¬(split ',' optionList).all fun o => (Dict.get? db (.customizedOptions, o)).isSome then
    (db, false)
  else
    let existing := names (getField db (.server, vlan) "customized_options@")
    (setField db (.server, vlan) "customized_options@"
      (join "," (env.order (existing ++ split ',' optionList))), true)

/-- `option unbind`; without a list (`None.split`) an exception. -/
def optionUnbind (db : Db) (vlan : String) (optionList : Option String) (all : Bool) : Db × Bool :=
  if (Dict.get? db (.server, vlan)).isNone then (db, false)
  else if all then (delField db (.server, vlan) "customized_options@", true)
  else
    match optionList with
    | none => (db, false)
    | some optionList =>
      let existing := names (getField db (.server, vlan) "customized_options@")
      if ∀ o ∈ split ',' optionList, o ∈ existing then
        let rest := existing.filter fun o => o ∉ split ',' optionList
        if rest ≠ [] then
          (setField db (.server, vlan) "customized_options@" (join "," (env.order rest)), true)
        else (delField db (.server, vlan) "customized_options@", true)
      else (db, false)

end Commands

/-- The commands but `update` (see `Update`). -/
inductive Command where
  | add (mode leaseTime : String) (dup : Bool) (gateway netmask : Option String) (vlan : String)
  | del (vlan : String)
  | enable (vlan : String)
  | disable (vlan : String)
  | rangeAdd (name ipStart : String) (ipEnd : Option String)
  | rangeUpdate (name ipStart : String) (ipEnd : Option String)
  | rangeDel (name : String) (force : Bool)
  | bind (vlan member : String) (range ipList : Option String)
  | unbind (vlan member : String) (range ipList : Option String)
  | optionAdd (name id type value : String)
  | optionDel (name : String)
  | optionBind (vlan optionList : String)
  | optionUnbind (vlan : String) (optionList : Option String) (all : Bool)

def exec (env : Env) (db : Db) : Command → Db × Bool
  | .add mode leaseTime dup gateway netmask vlan =>
    serverAdd env db mode leaseTime dup gateway netmask vlan
  | .del vlan => serverDel db vlan
  | .enable vlan => serverState "enabled" db vlan
  | .disable vlan => serverState "disabled" db vlan
  | .rangeAdd name ipStart ipEnd => rangeAdd env db name ipStart ipEnd
  | .rangeUpdate name ipStart ipEnd => rangeUpdate env db name ipStart ipEnd
  | .rangeDel name force => rangeDel db name force
  | .bind vlan member range ipList => bind env db vlan member range ipList
  | .unbind vlan member range ipList => unbind env db vlan member range ipList
  | .optionAdd name id type value => optionAdd env db name id type value
  | .optionDel name => optionDel db name
  | .optionBind vlan optionList => optionBind env db vlan optionList
  | .optionUnbind vlan optionList all => optionUnbind env db vlan optionList all

/-! ## What a command can do -/

theorem getField_set (db : Db) (key key' : Key) (row : Row) (f : String) :
    getField (Dict.set db key row) key' f =
      if key = key' then Dict.get? row f else getField db key' f := by
  unfold getField
  rw [Dict.get?_set]
  split <;> rfl

theorem getField_erase (db : Db) (key key' : Key) (f : String) :
    getField (Dict.erase db key) key' f = if key = key' then none else getField db key' f := by
  unfold getField
  rw [Dict.get?_erase]
  split <;> rfl

theorem mem_keysWith {db : Db} {table : Table} {start k : String} :
    k ∈ keysWith db table start ↔
      (Dict.get? db (table, k)).isSome ∧ startswith k start = true := by
  unfold keysWith
  rw [Option.isSome_iff_ne_none, ← Dict.mem_keys_iff]
  simp

theorem mem_keysWith_of_names {db : Db} {table : Table} {k field x : String}
    (hx : x ∈ names (getField db (table, k) field)) : k ∈ keysWith db table "" := by
  refine mem_keysWith.2 ⟨?_, startswith_iff.2 ⟨_, rfl⟩⟩
  unfold getField at hx
  cases hget : Dict.get? db (table, k) with
  | none =>
    rw [hget] at hx
    exact absurd hx List.not_mem_nil
  | some row => rfl

/-- No row of the table names `x`. -/
theorem not_mem_names {db : Db} {table : Table} {field x : String}
    (h : (keysWith db table "").any (fun k => x ∈ names (getField db (table, k) field)) = false)
    (k : String) : x ∉ names (getField db (table, k) field) := by
  intro hx
  exact List.any_eq_false.1 h k (mem_keysWith_of_names hx) (decide_eq_true hx)

theorem comma_not_mem_of_names {value : Option String} {x : String} (h : x ∈ names value) :
    ',' ∉ x.toList := by
  unfold names at h
  split at h
  · exact absurd h List.not_mem_nil
  · split at h
    · exact absurd h List.not_mem_nil
    · exact not_mem_of_mem_split h

theorem names_join {xs : List String} (hcomma : ∀ x ∈ xs, ',' ∉ x.toList)
    (hne : join "," xs ≠ "") : names (some (join "," xs)) = xs := by
  have hxs : xs ≠ [] := by
    rintro rfl
    exact hne rfl
  unfold names
  dsimp only
  rw [if_neg hne]
  exact split_join hxs hcomma

theorem mem_of_mem_names_join {xs : List String} {x : String}
    (hcomma : ∀ x ∈ xs, ',' ∉ x.toList) (h : x ∈ names (some (join "," xs))) : x ∈ xs := by
  by_cases hne : join "," xs = ""
  · rw [hne] at h
    exact absurd h List.not_mem_nil
  · rwa [names_join hcomma hne] at h

/-- What `bind` asks of a new member of a field of a port. -/
def Fits (env : Env) (db : Db) (k field x : String) : Prop :=
  (field = "ips@" ∧ (env.ipv4 x).isSome) ∨
    field = "ranges@" ∧ ∃ vlan member nets, k = vlan ++ "|" ++ member ∧
      (Dict.get? db (.vlanMember, k)).isSome ∧ subnets env db vlan = some nets ∧
      rangeFits env db nets x = true

/-- The rows that a command can leave behind. -/
inductive Change (env : Env) (db : Db) : Command → Db → Prop
  | same (c : Command) : Change env db c db
  | server (c : Command) (vlan : String) (row : Row)
      (hoptions : ∀ text, Dict.get? row "customized_options@" = some text →
        getField db (.server, vlan) "customized_options@" = some text ∨
          ∃ options, options ≠ [] ∧ (∀ o ∈ options, ',' ∉ o.toList) ∧ text = join "," options ∧
            ∀ o ∈ options, o ∈ names (getField db (.server, vlan) "customized_options@") ∨
              (Dict.get? db (.customizedOptions, o)).isSome) :
      Change env db c (Dict.set db (.server, vlan) row)
  | serverErase (c : Command) (vlan : String) : Change env db c (Dict.erase db (.server, vlan))
  | range (c : Command) (name text : String) (row : Row)
      (hrow : Dict.get? row "range@" = some text)
      (hcommand : ∃ ipStart ipEnd, rangeText env ipStart ipEnd = some text ∧
        (c = .rangeAdd name ipStart ipEnd ∨
          c = .rangeUpdate name ipStart ipEnd ∧ (Dict.get? db (.range, name)).isSome)) :
      Change env db c (Dict.set db (.range, name) row)
  | rangeErase (name : String) (force : Bool)
      (hfree : force = false → ∀ k, name ∉ names (getField db (.port, k) "ranges@")) :
      Change env db (.rangeDel name force) (Dict.erase db (.range, name))
  | port (c : Command) (k field : String) (old : Row) (members : List String)
      (hfield : field = "ips@" ∨ field = "ranges@")
      (hold : (Dict.get? db (.port, k) = none ∧ old = []) ∨
        (Dict.get? db (.port, k) = some old ∧ names (Dict.get? old field) ≠ []))
      (hne : members ≠ []) (hnodup : members.Nodup) (hcomma : ∀ x ∈ members, ',' ∉ x.toList)
      (hmem : ∀ x ∈ members, x ∈ names (Dict.get? old field) ∨ Fits env db k field x) :
      Change env db c (Dict.set db (.port, k) (Dict.set old field (join "," members)))
  | portErase (c : Command) (k : String) : Change env db c (Dict.erase db (.port, k))
  | option (name id type value : String) (row : Row) :
      Change env db (.optionAdd name id type value) (Dict.set db (.customizedOptions, name) row)
  | optionErase (c : Command) (name : String)
      (hfree : ∀ k, name ∉ names (getField db (.server, k) "customized_options@")) :
      Change env db c (Dict.erase db (.customizedOptions, name))

section Changes

variable {env : Env} {db : Db}

theorem mem_order {env : Env} {xs : List String} {x : String} : x ∈ env.order xs ↔ x ∈ xs := by
  rw [(env.order_perm xs).mem_iff, List.mem_dedup]

theorem order_nodup (env : Env) (xs : List String) : (env.order xs).Nodup :=
  (env.order_perm xs).nodup_iff.2 (List.nodup_dedup xs)

theorem order_ne_nil {env : Env} {xs : List String} (h : xs ≠ []) : env.order xs ≠ [] := by
  obtain ⟨x, hx⟩ := List.exists_mem_of_ne_nil _ h
  exact List.ne_nil_of_mem (mem_order.2 hx)

theorem change_serverAdd (mode leaseTime : String) (dup : Bool) (gateway netmask : Option String)
    (vlan : String) (c : Command) :
    Change env db c (serverAdd env db mode leaseTime dup gateway netmask vlan).1 := by
  have hwrite : ∀ gateway netmask : String, Change env db c
      (if (Dict.get? db (.server, vlan)).isSome then (db, false)
        else (Dict.set db (.server, vlan) [("mode", mode), ("lease_time", leaseTime),
          ("gateway", gateway), ("netmask", netmask), ("state", "disabled")], true)).1 := by
    intro gateway netmask
    split
    · exact .same c
    · exact .server c vlan _ (by simp [Dict.get?_cons])
  unfold serverAdd
  dsimp only
  split
  · exact .same c
  split
  · exact .same c
  split
  · exact .same c
  split
  · split
    · exact hwrite _ _
    · exact .same c
  · split
    · split
      · exact hwrite _ _
      · exact .same c
    · exact .same c

/-- A field of a row of an interface other than its options. -/
theorem change_serverField (c : Command) (vlan value : String) {field : String}
    (hfield : field ≠ "customized_options@") :
    Change env db c (setField db (.server, vlan) field value) := by
  refine .server c vlan _ fun text htext => Or.inl ?_
  rw [Dict.get?_set_ne _ _ hfield] at htext
  unfold getField
  cases hrow : Dict.get? db (.server, vlan) with
  | none =>
    rw [hrow] at htext
    exact absurd htext nofun
  | some row =>
    rw [hrow] at htext
    exact htext

theorem change_serverState (c : Command) (state vlan : String) :
    Change env db c (serverState state db vlan).1 := by
  unfold serverState
  split
  · exact change_serverField c vlan state (by decide)
  · exact .same c

theorem change_rangeAdd (name ipStart : String) (ipEnd : Option String) :
    Change env db (.rangeAdd name ipStart ipEnd) (rangeAdd env db name ipStart ipEnd).1 := by
  unfold rangeAdd
  cases htext : rangeText env ipStart ipEnd with
  | none => exact .same _
  | some text =>
    dsimp only
    split
    · exact .same _
    · exact .range _ name text _ rfl ⟨ipStart, ipEnd, htext, Or.inl rfl⟩

theorem change_rangeUpdate (name ipStart : String) (ipEnd : Option String) :
    Change env db (.rangeUpdate name ipStart ipEnd) (rangeUpdate env db name ipStart ipEnd).1 := by
  unfold rangeUpdate
  cases htext : rangeText env ipStart ipEnd with
  | none => exact .same _
  | some text =>
    dsimp only
    split
    · next hsome =>
      refine .range _ name text _ (Dict.get?_set_self _ _ _) ?_
      exact ⟨ipStart, ipEnd, htext, Or.inr ⟨rfl, hsome⟩⟩
    · exact .same _

theorem change_rangeDel (name : String) (force : Bool) :
    Change env db (.rangeDel name force) (rangeDel db name force).1 := by
  unfold rangeDel
  split
  · split
    · exact .same _
    · next hfree =>
      refine .rangeErase name force fun hforce => not_mem_names ?_
      simpa [hforce] using hfree
  · exact .same _

/-- One pass of `bind`, when only one of the two fields is given. -/
theorem bindField_nil (key : Key) (keyExist : Bool) (s : Db × Bool) (field : String) :
    (bindField env key keyExist s field []).1 = s.1 := by
  unfold bindField
  split
  · rfl
  split
  · dsimp only
    split <;> rfl
  · rfl

theorem change_bindField (c : Command) (k : String) {field : String}
    (hfield : field = "ips@" ∨ field = "ranges@") {value : List String} (hvalue : value ≠ [])
    (hcomma : ∀ x ∈ value, ',' ∉ x.toList) (hfits : ∀ x ∈ value, Fits env db k field x)
    {s : Db × Bool} (hs : s.1 = db) :
    Change env db c
      (bindField env (.port, k) (Dict.get? db (.port, k)).isSome s field value).1 := by
  have hpair : s = (db, s.2) := by rw [← hs]
  rw [hpair]
  unfold bindField
  by_cases hok : s.2 = true
  swap
  · rw [if_pos hok]
    exact .same c
  rw [hok]
  cases hrow : Dict.get? db (.port, k) with
  | none =>
    rw [if_neg (by simp), if_neg (by simp), if_pos hvalue]
    refine .port c k field [] (env.order value) hfield (Or.inl ⟨hrow, rfl⟩)
      (order_ne_nil hvalue) (order_nodup env value) ?_ ?_
    · exact fun x hx => hcomma x (mem_order.1 hx)
    · exact fun x hx => Or.inr (hfits x (mem_order.1 hx))
  | some old =>
    have hget : getField db (.port, k) field = Dict.get? old field := by
      unfold getField
      rw [hrow]
      rfl
    rw [if_neg (by simp), if_pos (by simp)]
    dsimp only
    rw [hget]
    by_cases hnil : names (Dict.get? old field) = []
    · rw [if_pos (by simp [hnil, hvalue])]
      exact .same c
    · rw [if_neg (by simp [hnil, hvalue]), if_pos hvalue]
      unfold setField
      rw [hrow]
      refine .port c k field old _ hfield (Or.inr ⟨hrow, hnil⟩)
        (order_ne_nil (List.append_ne_nil_of_left_ne_nil hnil _)) (order_nodup env _) ?_ ?_
      · intro x hx
        rcases List.mem_append.1 (mem_order.1 hx) with hx | hx
        · exact comma_not_mem_of_names hx
        · exact hcomma x hx
      · intro x hx
        rcases List.mem_append.1 (mem_order.1 hx) with hx | hx
        · exact Or.inl hx
        · exact Or.inr (hfits x hx)

theorem change_bind (vlan member : String) (range ipList : Option String) (c : Command) :
    Change env db c (bind env db vlan member range ipList).1 := by
  unfold bind
  by_cases hmember : (Dict.get? db (.vlanMember, vlan ++ "|" ++ member)).isNone
  · rw [if_pos hmember]
    exact .same c
  rw [if_neg hmember]
  rw [Option.isNone_iff_eq_none, ← ne_eq, ← Option.isSome_iff_ne_none] at hmember
  cases hnets : subnets env db vlan with
  | none => exact .same c
  | some nets =>
    dsimp only
    split_ifs with hranges hips hone
    · exact .same c
    rotate_left
    · exact .same c
    · exact .same c
    rw [List.all_eq_true] at hranges hips
    by_cases hips' : names ipList = []
    · have hvalue : names range ≠ [] := fun h => hone (by simp [h, hips'])
      rw [hips']
      refine change_bindField c _ (Or.inr rfl) hvalue (fun x hx => comma_not_mem_of_names hx) ?_
        (bindField_nil ..)
      exact fun x hx => Or.inr ⟨rfl, vlan, member, nets, rfl, hmember, hnets, hranges x hx⟩
    · have hvalue : names range = [] := by
        by_contra h
        exact hone (by simp [h, hips'])
      rw [hvalue, bindField_nil]
      refine change_bindField c _ (Or.inl rfl) hips' (fun x hx => comma_not_mem_of_names hx) ?_ rfl
      intro x hx
      have hfit := hips x hx
      unfold ipFits at hfit
      cases hip : env.ipv4 x with
      | none => rw [hip] at hfit; exact absurd hfit (by simp)
      | some n => exact Or.inl ⟨rfl, by rw [hip]; rfl⟩

theorem unbindField_nil (key : Key) (s : Db × Bool) (field : String) :
    unbindField env key s field [] = s := by
  unfold unbindField
  rw [if_pos (Or.inr rfl)]

theorem change_unbindField (c : Command) (k : String) {field : String}
    (hfield : field = "ips@" ∨ field = "ranges@") {value : List String} (hvalue : value ≠ []) :
    Change env db c (unbindField env (.port, k) (db, true) field value).1 := by
  unfold unbindField
  rw [if_neg (by simp [hvalue])]
  dsimp only
  split_ifs with hsub hrest
  swap
  · exact .portErase c k
  swap
  · exact .same c
  obtain ⟨x, hx⟩ := List.exists_mem_of_ne_nil _ hvalue
  have hbound := hsub x hx
  unfold getField setField at *
  cases hrow : Dict.get? db (.port, k) with
  | none =>
    rw [hrow] at hbound
    exact absurd hbound List.not_mem_nil
  | some old =>
    rw [hrow] at hbound hrest
    refine .port c k field old _ hfield (Or.inr ⟨hrow, List.ne_nil_of_mem hbound⟩)
      (order_ne_nil hrest) (order_nodup env _) ?_ ?_
    · intro y hy
      exact comma_not_mem_of_names (List.mem_of_mem_filter (mem_order.1 hy))
    · exact fun y hy => Or.inl (List.mem_of_mem_filter (mem_order.1 hy))

theorem change_unbind (vlan member : String) (range ipList : Option String) (c : Command) :
    Change env db c (unbind env db vlan member range ipList).1 := by
  unfold unbind
  dsimp only
  split_ifs with hall hone hmember
  · exact .portErase c _
  · exact .same c
  · exact .same c
  by_cases hips : names ipList = []
  · have hvalue : names range ≠ [] := fun h => hone (by simp [h, hips])
    rw [hips, unbindField_nil]
    exact change_unbindField c _ (Or.inr rfl) hvalue
  · have hvalue : names range = [] := by
      by_contra h
      exact hone (by simp [h, hips])
    rw [hvalue, unbindField_nil]
    exact change_unbindField c _ (Or.inl rfl) hips

/-! ### Options and interfaces -/

theorem change_serverDel (vlan : String) (c : Command) :
    Change env db c (serverDel db vlan).1 := by
  unfold serverDel
  split
  · exact .serverErase c vlan
  · exact .same c

theorem change_optionAdd (name id type value : String) :
    Change env db (.optionAdd name id type value) (optionAdd env db name id type value).1 := by
  unfold optionAdd
  split
  · exact .same _
  split
  · exact .same _
  split
  · exact .same _
  split
  · exact .same _
  · exact .option name id type value _

theorem change_optionDel (name : String) (c : Command) :
    Change env db c (optionDel db name).1 := by
  unfold optionDel
  split
  · exact .same c
  split
  · exact .same c
  · next hfree =>
    exact .optionErase c name (not_mem_names (by simpa using hfree))

/-- A new list of options of an interface. -/
theorem change_optionList (c : Command) (vlan : String) {options : List String}
    (hne : options ≠ []) (hcomma : ∀ o ∈ options, ',' ∉ o.toList)
    (hoptions : ∀ o ∈ options, o ∈ names (getField db (.server, vlan) "customized_options@") ∨
      (Dict.get? db (.customizedOptions, o)).isSome) :
    Change env db c
      (setField db (.server, vlan) "customized_options@" (join "," (env.order options))) := by
  refine .server c vlan _ fun text htext => Or.inr ?_
  rw [Dict.get?_set_self] at htext
  exact ⟨env.order options, order_ne_nil hne, fun o ho => hcomma o (mem_order.1 ho),
    (Option.some.inj htext).symm, fun o ho => hoptions o (mem_order.1 ho)⟩

theorem change_optionBind (vlan optionList : String) (c : Command) :
    Change env db c (optionBind env db vlan optionList).1 := by
  unfold optionBind
  split_ifs with hserver hall
  · exact .same c
  rotate_left
  · exact .same c
  rw [List.all_eq_true] at hall
  refine change_optionList c vlan ?_ ?_ ?_
  · exact List.append_ne_nil_of_right_ne_nil _ (split_ne_nil _ _)
  · intro o ho
    rcases List.mem_append.1 ho with ho | ho
    · exact comma_not_mem_of_names ho
    · exact not_mem_of_mem_split ho
  · exact fun o ho => (List.mem_append.1 ho).imp_right (hall o)

theorem change_noOptions (c : Command) (vlan : String) :
    Change env db c (delField db (.server, vlan) "customized_options@") := by
  unfold delField
  cases hrow : Dict.get? db (.server, vlan) with
  | none => exact .same c
  | some row =>
    dsimp only
    split
    · exact .serverErase c vlan
    · exact .server c vlan _ (by simp)

theorem change_optionUnbind (vlan : String) (optionList : Option String) (all : Bool)
    (c : Command) : Change env db c (optionUnbind env db vlan optionList all).1 := by
  unfold optionUnbind
  split
  · exact .same c
  split
  · exact change_noOptions c vlan
  cases optionList with
  | none => exact .same c
  | some optionList =>
    dsimp only
    split
    · split
      · next hrest =>
        refine change_optionList c vlan hrest ?_ ?_
        · exact fun o ho => comma_not_mem_of_names (List.mem_of_mem_filter ho)
        · exact fun o ho => Or.inl (List.mem_of_mem_filter ho)
      · exact change_noOptions c vlan
    · exact .same c

theorem exec_change (env : Env) (db : Db) (c : Command) : Change env db c (exec env db c).1 := by
  cases c with
  | add mode leaseTime dup gateway netmask vlan => exact change_serverAdd ..
  | del vlan => exact change_serverDel ..
  | enable vlan => exact change_serverState ..
  | disable vlan => exact change_serverState ..
  | rangeAdd name ipStart ipEnd => exact change_rangeAdd ..
  | rangeUpdate name ipStart ipEnd => exact change_rangeUpdate ..
  | rangeDel name force => exact change_rangeDel ..
  | bind vlan member range ipList => exact change_bind ..
  | unbind vlan member range ipList => exact change_unbind ..
  | optionAdd name id type value => exact change_optionAdd ..
  | optionDel name => exact change_optionDel ..
  | optionBind vlan optionList => exact change_optionBind ..
  | optionUnbind vlan optionList all => exact change_optionUnbind ..

end Changes

/-! A VLAN with one address and one member. -/

def sampleEnv : Env where
  ipv4 := Dict.get? [("192.168.0.2", 2), ("192.168.0.9", 9), ("10.0.0.1", 1000)]
  ipv4_empty := rfl
  ipNetwork s := if s = "192.168.0.1/24" then some (some (0, 255)) else none
  ipInterface s :=
    if s = "192.168.0.1/24" then some (some ("192.168.0.1", "255.255.255.0")) else none
  order := List.dedup
  order_perm _ := .refl _

def sampleDb : Db :=
  [((.vlanInterface, "Vlan10"), [("NULL", "NULL")]),
    ((.vlanInterface, "Vlan10|192.168.0.1/24"), [("NULL", "NULL")]),
    ((.vlanMember, "Vlan10|Ethernet0"), [("tagging_mode", "untagged")])]

end SonicBuildimage.DhcpServer
