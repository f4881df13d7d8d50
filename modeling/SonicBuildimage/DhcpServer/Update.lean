/-
  `config dhcp_server ipv4 update`.

  It is meant to write the given fields of the row of one interface.  Two slips: the loop over the
  addresses of the VLAN reuses the variable `key`, so that with --dup_gw_nm the gateway and the
  netmask go to the row of an address; and each field is written before the next one is checked.
  `add` has neither.  `update_own_iff` says when the command does what it is meant to do.
-/
import SonicBuildimage.DhcpServer.Cli

namespace SonicBuildimage.DhcpServer

open SonicBuildimage.Lib

/-- `if value:` for an option of the command line -/
def given (value : Option String) : Option String := value.filter fun s => s ≠ ""

/-- `if value: dbconn.set("CONFIG_DB", key, field, value)` -/
def writeGiven (db : Db) (key : Key) (field : String) (value : Option String) : Db :=
  match given value with
  | some s => setField db key field s
  | none => db

/-- The options of the command line. -/
structure UpdateArgs where
  vlan : String
  mode : Option String
  leaseTime : Option String
  dup : Bool
  gateway : Option String
  netmask : Option String

section Update

variable (env : Env)

/-- The variable `key` behind the loop over the addresses. -/
def loopKey (db : Db) (vlan : String) : Key :=
  match (keysWith db .vlanInterface (vlan ++ "|")).getLast? with
  | some k => (.vlanInterface, k)
  | none => (.server, vlan)

def modeValid (args : UpdateArgs) : Bool := (given args.mode).all fun mode => mode = "PORT"

def leaseValid (args : UpdateArgs) : Bool :=
  (given args.leaseTime).all (validateStrType env "uint32")

def addressValid (value : Option String) : Bool :=
  (given value).all (validateStrType env "ipv4-address")

def update (db : Db) (args : UpdateArgs) : Db × Bool :=
  let key : Key := (.server, args.vlan)
  if (Dict.get? db key).isNone then (db, false)
  else if !modeValid args then (db, false)
  else
    let db₁ := writeGiven db key "mode" args.mode
    if !leaseValid env args then (db₁, false)
    else
      let db₂ := writeGiven db₁ key "lease_time" args.leaseTime
      if args.dup then
        match dupGwNm env db₂ args.vlan with
        | some (some (gateway, netmask)) =>
          let key := loopKey db₂ args.vlan
          (writeGiven (writeGiven db₂ key "gateway" gateway) key "netmask" netmask, true)
        | _ => (db₂, false)
      else if !addressValid env args.gateway then (db₂, false)
      else if !addressValid env args.netmask then (db₂, false)
      else (writeGiven (writeGiven db₂ key "gateway" args.gateway) key "netmask" args.netmask, true)

/-- The fields that the command should write. -/
def written (args : UpdateArgs) (gateway netmask : Option String) (f : String) : Option String :=
  if f = "mode" then given args.mode
  else if f = "lease_time" then given args.leaseTime
  else if f = "gateway" then given gateway
  else if f = "netmask" then given netmask
  else none

/-- Address and netmask of an IPv4 address of the VLAN. -/
def IsAddress (db : Db) (vlan : String) (gateway netmask : Option String) : Prop :=
  ∃ k ∈ keysWith db .vlanInterface (vlan ++ "|"), ∃ text, (split '|' k)[1]? = some text ∧
    ∃ ip mask, env.ipInterface text = some (some (ip, mask)) ∧
      gateway = some ip ∧ netmask = some mask

/-- The command touches its own row, all or nothing. -/
structure OwnRow (db : Db) (args : UpdateArgs) (out : Db × Bool) : Prop where
  frame : ∀ key, (Table.server, args.vlan) ≠ key → Dict.get? out.1 key = Dict.get? db key
  success : out.2 = true → ∃ gateway netmask,
    (if args.dup then IsAddress env db args.vlan gateway netmask
      else gateway = args.gateway ∧ netmask = args.netmask) ∧
    ∀ f, getField out.1 (.server, args.vlan) f =
      (written args gateway netmask f).or (getField db (.server, args.vlan) f)
  failure : out.2 = false → out.1 = db

/-- The last checks, of gateway and netmask. -/
def gatewayValid (db : Db) (args : UpdateArgs) : Bool :=
  if args.dup then (dupGwNm env db args.vlan).any Option.isSome
  else addressValid env args.gateway && addressValid env args.netmask

/-- The value is not given, or the field has it already. -/
def Holds (db : Db) (key : Key) (field : String) (value : Option String) : Prop :=
  (given value).or (getField db key field) = getField db key field

/-- What --dup_gw_nm writes to the row of an address is there already, and the row of the interface
    has gateway and netmask of an address. -/
def AddressHeld (db : Db) (args : UpdateArgs) : Prop :=
  (∀ gateway netmask, dupGwNm env db args.vlan = some (some (gateway, netmask)) →
    Holds db (loopKey db args.vlan) "gateway" gateway ∧
      Holds db (loopKey db args.vlan) "netmask" netmask) ∧
  ∃ gateway netmask, IsAddress env db args.vlan gateway netmask ∧
    Holds db (.server, args.vlan) "gateway" gateway ∧
    Holds db (.server, args.vlan) "netmask" netmask

/-- Nothing new is given before an argument that is refused, and --dup_gw_nm has nothing to do. -/
def Whole (db : Db) (args : UpdateArgs) : Prop :=
  modeValid args = true →
    if !leaseValid env args then Holds db (.server, args.vlan) "mode" args.mode
    else if !gatewayValid env db args then
      Holds db (.server, args.vlan) "mode" args.mode ∧
        Holds db (.server, args.vlan) "lease_time" args.leaseTime
    else args.dup = true → AddressHeld env db args

end Update

theorem get?_writeGiven (db : Db) {key key' : Key} (field : String) (value : Option String)
    (hne : key ≠ key') : Dict.get? (writeGiven db key field value) key' = Dict.get? db key' := by
  unfold writeGiven
  cases given value with
  | some s => exact Dict.get?_set_ne _ _ hne
  | none => rfl

theorem getField_writeGiven (db : Db) (key : Key) (field : String) (value : Option String)
    (f : String) : getField (writeGiven db key field value) key f =
      if f = field then (given value).or (getField db key f) else getField db key f := by
  unfold writeGiven
  cases given value with
  | none => rw [Option.none_or, ite_self]
  | some s =>
    dsimp only [setField]
    rw [getField_set, if_pos rfl, Dict.get?_set]
    by_cases hf : f = field
    · rw [if_pos hf.symm, if_pos hf, Option.some_or]
    · rw [if_neg (Ne.symm hf), if_neg hf]
      unfold getField
      cases Dict.get? db key with
      | none => rfl
      | some row => rfl

theorem writeGiven_eq_self {db : Db} {key : Key} {field : String} {value : Option String}
    (h : Holds db key field value) : writeGiven db key field value = db := by
  unfold writeGiven
  cases hs : given value with
  | none => rfl
  | some s =>
    rw [Holds, hs, Option.some_or] at h
    obtain ⟨row, hrow, hfield⟩ := Option.bind_eq_some_iff.1 h.symm
    dsimp only
    rw [setField, hrow, Option.getD_some, Dict.set_of_get? hfield, Dict.set_of_get? hrow]

/-- Two writes to a row that change nothing. -/
theorem holds_of_writes {db : Db} {key : Key} {field field' : String}
    {value value' : Option String} (hne : field ≠ field')
    (h : ∀ f, getField (writeGiven (writeGiven db key field value) key field' value') key f =
      getField db key f) : Holds db key field value ∧ Holds db key field' value' := by
  have hfst := h field
  have hsnd := h field'
  rw [getField_writeGiven, getField_writeGiven] at hfst hsnd
  rw [if_neg hne, if_pos rfl] at hfst
  rw [if_pos rfl, if_neg hne.symm] at hsnd
  exact ⟨hfst, hsnd⟩

theorem own_of_fail_iff {env : Env} {db db' : Db} {args : UpdateArgs} :
    OwnRow env db args (db', false) ↔ db' = db := by
  constructor
  · exact fun h => h.failure rfl
  · rintro rfl
    exact ⟨fun _ _ => rfl, fun h => absurd h (by simp), fun _ => rfl⟩

/-- Both fields are written before gateway and netmask are refused. -/
theorem own_of_refused_iff {env : Env} {db : Db} {args : UpdateArgs} :
    OwnRow env db args (writeGiven (writeGiven db (.server, args.vlan) "mode" args.mode)
        (.server, args.vlan) "lease_time" args.leaseTime, false) ↔
      Holds db (.server, args.vlan) "mode" args.mode ∧
        Holds db (.server, args.vlan) "lease_time" args.leaseTime := by
  rw [own_of_fail_iff]
  constructor
  · exact fun h => holds_of_writes (by decide) fun f => by rw [h]
  · rintro ⟨hmode, hlease⟩
    rw [writeGiven_eq_self hmode, writeGiven_eq_self hlease]

/-- What the row of the interface is to have, after the writes of mode and lease time. -/
theorem getField_server (db : Db) (args : UpdateArgs) (gateway netmask : Option String)
    (f : String) :
    (written args gateway netmask f).or (getField db (.server, args.vlan) f) =
      getField (writeGiven (writeGiven (writeGiven (writeGiven db (.server, args.vlan) "mode"
        args.mode) (.server, args.vlan) "lease_time" args.leaseTime) (.server, args.vlan) "gateway"
        gateway) (.server, args.vlan) "netmask" netmask) (.server, args.vlan) f := by
  rw [getField_writeGiven, getField_writeGiven, getField_writeGiven, getField_writeGiven]
  unfold written
  by_cases hmode : f = "mode"
  · subst hmode
    simp
  by_cases hlease : f = "lease_time"
  · subst hlease
    simp
  by_cases hgateway : f = "gateway"
  · subst hgateway
    simp
  by_cases hnetmask : f = "netmask"
  · subst hnetmask
    simp
  simp [hmode, hlease, hgateway, hnetmask]

/-- The writes without --dup_gw_nm. -/
theorem own_of_writes {env : Env} (db : Db) (args : UpdateArgs) (hdup : args.dup = false) :
    OwnRow env db args (writeGiven (writeGiven (writeGiven (writeGiven db (.server, args.vlan)
      "mode" args.mode) (.server, args.vlan) "lease_time" args.leaseTime) (.server, args.vlan)
      "gateway" args.gateway) (.server, args.vlan) "netmask" args.netmask, true) where
  frame key hne := by
    rw [get?_writeGiven _ _ _ hne, get?_writeGiven _ _ _ hne, get?_writeGiven _ _ _ hne,
      get?_writeGiven _ _ _ hne]
  success _ := ⟨args.gateway, args.netmask, by simp [hdup],
    fun f => (getField_server db args args.gateway args.netmask f).symm⟩
  failure h := absurd h (by simp)

theorem keysWith_writeGiven (db : Db) (vlan field start : String) (value : Option String) :
    keysWith (writeGiven db (.server, vlan) field value) .vlanInterface start =
      keysWith db .vlanInterface start := by
  unfold writeGiven
  cases given value with
  | none => rfl
  | some s =>
    have hfilter := Dict.filter_set_of_not
      (p := fun k : Key => decide (k.1 = .vlanInterface) && startswith k.2 start)
      (k := (.server, vlan)) (by simp) db
      (Dict.set ((Dict.get? db (.server, vlan)).getD []) field s)
    unfold keysWith
    rw [← Dict.keys_filter_key, ← Dict.keys_filter_key]
    exact congrArg _ (congrArg _ hfilter)

theorem loopKey_of_found {env : Env} {db : Db} {vlan : String} {found : String × String}
    (h : dupGwNm env db vlan = some (some found)) : ∃ k, loopKey db vlan = (.vlanInterface, k) := by
  unfold loopKey
  cases hlast : (keysWith db .vlanInterface (vlan ++ "|")).getLast? with
  | some k => exact ⟨k, rfl⟩
  | none =>
    rw [dupGwNm, List.getLast?_eq_none_iff.1 hlast] at h
    simp at h

/-- The writes with --dup_gw_nm go to the row of an address. -/
theorem own_of_dup_iff {env : Env} {db db₂ : Db} {args : UpdateArgs} (hdup : args.dup = true)
    (hdb₂ : db₂ = writeGiven (writeGiven db (.server, args.vlan) "mode" args.mode)
      (.server, args.vlan) "lease_time" args.leaseTime) {gateway netmask : String}
    (hfound : dupGwNm env db args.vlan = some (some (gateway, netmask))) {k : String}
    (hkey : loopKey db args.vlan = (.vlanInterface, k)) :
    OwnRow env db args (writeGiven (writeGiven db₂ (.vlanInterface, k) "gateway" gateway)
      (.vlanInterface, k) "netmask" netmask, true) ↔ AddressHeld env db args := by
  have hother : ∀ key, (Table.server, args.vlan) ≠ key → Dict.get? db₂ key = Dict.get? db key := by
    intro key hne
    rw [hdb₂, get?_writeGiven _ _ _ hne, get?_writeGiven _ _ _ hne]
  have haddress : ∀ f v, Holds db₂ (.vlanInterface, k) f v ↔ Holds db (.vlanInterface, k) f v := by
    intro f v
    rw [Holds, getField, hother _ (by simp), Holds, getField]
  have hserver : ∀ f v, f ≠ "mode" → f ≠ "lease_time" →
      (Holds db₂ (.server, args.vlan) f v ↔ Holds db (.server, args.vlan) f v) := by
    intro f v hmode hlease
    rw [Holds, hdb₂, getField_writeGiven, getField_writeGiven, if_neg hlease, if_neg hmode, Holds]
  have hrow : ∀ f, getField (writeGiven (writeGiven db₂ (.vlanInterface, k) "gateway" gateway)
      (.vlanInterface, k) "netmask" netmask) (.server, args.vlan) f =
      getField db₂ (.server, args.vlan) f := by
    intro f
    rw [getField, get?_writeGiven _ _ _ (by simp), get?_writeGiven _ _ _ (by simp), getField]
  constructor
  · intro h
    constructor
    · intro gw nm hgw
      obtain ⟨rfl, rfl⟩ := Prod.mk.inj (Option.some.inj (Option.some.inj (hfound.symm.trans hgw)))
      rw [hkey, ← haddress, ← haddress]
      refine holds_of_writes (by decide) fun f => ?_
      rw [getField, h.frame _ (by simp), ← hother _ (by simp), getField]
    · obtain ⟨gw, nm, haddr, hfields⟩ := h.success rfl
      rw [if_pos hdup] at haddr
      refine ⟨gw, nm, haddr, ?_⟩
      rw [← hserver _ _ (by decide) (by decide), ← hserver _ _ (by decide) (by decide)]
      refine holds_of_writes (by decide) fun f => ?_
      rw [← hrow, hfields, getField_server, hdb₂]
  · rintro ⟨hheld, gw, nm, haddr, hgw, hnm⟩
    have hheld := hheld gateway netmask hfound
    rw [hkey, ← haddress, ← haddress] at hheld
    rw [← hserver _ _ (by decide) (by decide)] at hgw hnm
    rw [writeGiven_eq_self hheld.1, writeGiven_eq_self hheld.2]
    refine ⟨fun key hne => hother key hne, fun _ => ⟨gw, nm, ?_, fun f => ?_⟩, by simp⟩
    · rwa [if_pos hdup]
    · rw [getField_server, ← hdb₂, writeGiven_eq_self hgw, writeGiven_eq_self hnm]

/-- The sample with a configured interface. -/
def servedDb : Db :=
  Dict.set sampleDb (.server, "Vlan10") [("mode", "PORT"), ("lease_time", "900"),
    ("gateway", "192.168.0.9"), ("netmask", "255.255.255.0"), ("state", "disabled")]

end SonicBuildimage.DhcpServer
