/-
  The interface managers of bgpcfgd (`bgpcfgd/managers_intf.py`), which fill the directory.

  Model (read this before the theorems).
  * A put is `store`: its callbacks run other managers, and none of them writes to a slot used here.
  * One event is a SET or a DEL of a row of an interface table; every table has its own manager,
    and all of them share the directory.  `rows` is a ghost: the rows that are there.
  * `IpNetwork` is netaddr: the address and the prefix length of a text, if it is valid.

  The index `local_addresses` is keyed by the address alone, and a DEL takes the address out
  whatever interface has it.  If an address is on two interfaces, or is set on the new interface
  before it is deleted from the old one, the index loses it (`address_lost`).

  Proved: `localAddresses_of_run`.  In every run in which a row is deleted only while no other row
  has its address, the index has exactly the addresses of the rows, each with an interface that has
  it.
-/
import SonicBuildimage.Bgpcfgd.Manager

namespace SonicBuildimage.Bgpcfgd.InterfaceMgr

open SonicBuildimage.Lib Directory

/-- `netaddr.IPNetwork`: the address and the prefix length. -/
abbrev IpNetwork := String → Option (String × Nat)

/-- The attributes of a row. -/
abbrev Data := Dict String Val

/-- `put` of the data of a row, without the callbacks -/
def put (dir : Directory) (db table key : String) (data : Data) : Directory :=
  dir.store (getSlotName db table) key (.dict data)

/-- `set_handler` of the manager of a table -/
def setHandler (ipNetwork : IpNetwork) (table : String) (dir : Directory) (key : String)
    (data : Data) : Directory :=
  match splitOnce "|" key with
  | some (interfaceName, networkStr) =>
    match ipNetwork networkStr with
    | some (ip, prefixlen) =>
      let data := (data.set "interface" (.text interfaceName)).set "prefixlen"
        (.text (toString prefixlen))
      let dir := put dir "LOCAL" "local_addresses" ip data
      put (put dir "CONFIG_DB" table key data) "LOCAL" "interfaces" key data
    | none => dir
  | none => put (put dir "CONFIG_DB" table key data) "LOCAL" "interfaces" key data

/-- `del_handler` of the manager of a table -/
def delHandler (ipNetwork : IpNetwork) (table : String) (dir : Directory) (key : String) :
    Directory :=
  match splitOnce "|" key with
  | some (_, network) =>
    match ipNetwork network with
    | some (ip, _) =>
      ((dir.remove "LOCAL" "local_addresses" ip).remove "CONFIG_DB" table key).remove
        "LOCAL" "interfaces" key
    | none => dir
  | none => (dir.remove "CONFIG_DB" table key).remove "LOCAL" "interfaces" key

/-! ## Runs -/

/-- A message for the manager of a table. -/
inductive Event where
  | set (table key : String) (data : Data)
  | del (table key : String)

/-- The directory, and the rows that are there. -/
structure Sys where
  directory : Directory := {}
  rows : List (String × String) := []

def next (ipNetwork : IpNetwork) (s : Sys) : Event → Sys
  | .set table key data =>
    ⟨setHandler ipNetwork table s.directory key data, setAdd s.rows (table, key)⟩
  | .del table key => ⟨delHandler ipNetwork table s.directory key, setDiscard s.rows (table, key)⟩

def Step (ipNetwork : IpNetwork) (s : Sys) (e : Event) (s' : Sys) : Prop :=
  next ipNetwork s e = s'

/-- The interface and the address of a key; `none` if it has no prefix. -/
def interfaceIp (ipNetwork : IpNetwork) (key : String) : Option (String × String) :=
  (splitOnce "|" key).bind fun p => (ipNetwork p.2).map fun n => (p.1, n.1)

/-- The prefix of a key, if it has one, is valid. -/
def ValidKey (ipNetwork : IpNetwork) (key : String) : Prop :=
  ∀ p ∈ splitOnce "|" key, ipNetwork p.2 ≠ none

instance (ipNetwork : IpNetwork) (key : String) : Decidable (ValidKey ipNetwork key) :=
  inferInstanceAs (Decidable (∀ p ∈ splitOnce "|" key, _))

/-- A row is deleted only while no other row has its address. -/
def Ok (ipNetwork : IpNetwork) (s : Sys) : Event → Prop
  | .set _ key _ => ValidKey ipNetwork key
  | .del table key => ValidKey ipNetwork key ∧
      ∀ p ∈ interfaceIp ipNetwork key, ∀ row ∈ s.rows, row ≠ (table, key) →
        (interfaceIp ipNetwork row.2).map Prod.snd ≠ some p.2

instance (ipNetwork : IpNetwork) (s : Sys) (e : Event) : Decidable (Ok ipNetwork s e) :=
  match e with
  | .set _ _ _ => inferInstanceAs (Decidable (ValidKey _ _))
  | .del _ _ => inferInstanceAs (Decidable (_ ∧ ∀ p ∈ interfaceIp _ _, ∀ row ∈ _, _))

/-- `entry["interface"]` -/
def entryInterface : Val → Option Val
  | .dict data => Dict.get? data "interface"
  | _ => none

/-- `local_addresses[ip]` is the entry of a row with that address; without one there is none. -/
def Indexed (ipNetwork : IpNetwork) (s : Sys) (ip : String) : Prop :=
  match s.directory.lookup "LOCAL" "local_addresses" ip with
  | some entry => ∃ row ∈ s.rows, ∃ interface, interfaceIp ipNetwork row.2 = some (interface, ip) ∧
      entryInterface entry = some (.text interface)
  | none => ∀ row ∈ s.rows, ∀ interface, interfaceIp ipNetwork row.2 ≠ some (interface, ip)

/-! ## The index through one message -/

variable {ipNetwork : IpNetwork} {table key ip : String}

theorem configSlot_ne (table : String) :
    getSlotName "CONFIG_DB" table ≠ getSlotName "LOCAL" "local_addresses" := by
  intro h
  have hlist := congrArg String.toList h
  simp only [getSlotName, String.toList_append] at hlist
  exact absurd (List.cons.inj hlist).1 (by decide)

theorem interfacesSlot_ne :
    getSlotName "LOCAL" "interfaces" ≠ getSlotName "LOCAL" "local_addresses" := by decide

/-- The own table and `interfaces` are other slots. -/
theorem lookup_put_other (dir : Directory) (data : Data) :
    (put (put dir "CONFIG_DB" table key data) "LOCAL" "interfaces" key data).lookup
      "LOCAL" "local_addresses" ip = dir.lookup "LOCAL" "local_addresses" ip := by
  rw [put, put, lookup_store, if_neg fun h => interfacesSlot_ne (Prod.mk.inj h).1,
    lookup_store, if_neg fun h => configSlot_ne table (Prod.mk.inj h).1]

theorem lookup_remove_other (dir : Directory) :
    ((dir.remove "CONFIG_DB" table key).remove "LOCAL" "interfaces" key).lookup
      "LOCAL" "local_addresses" ip = dir.lookup "LOCAL" "local_addresses" ip := by
  rw [lookup_remove, if_neg fun h => interfacesSlot_ne (Prod.mk.inj h).1,
    lookup_remove, if_neg fun h => configSlot_ne table (Prod.mk.inj h).1]

/-- A SET writes the address of its key. -/
theorem lookup_setHandler (table : String) (hkey : ValidKey ipNetwork key) (dir : Directory)
    (data : Data)
    (ip : String) :
    (∃ interface entry, interfaceIp ipNetwork key = some (interface, ip) ∧
        entryInterface entry = some (.text interface) ∧
        (setHandler ipNetwork table dir key data).lookup "LOCAL" "local_addresses" ip =
          some entry) ∨
      ((∀ interface, interfaceIp ipNetwork key ≠ some (interface, ip)) ∧
        (setHandler ipNetwork table dir key data).lookup "LOCAL" "local_addresses" ip =
          dir.lookup "LOCAL" "local_addresses" ip) := by
  unfold setHandler interfaceIp
  cases hsplit : splitOnce "|" key with
  | none => exact .inr ⟨nofun, lookup_put_other dir data⟩
  | some p =>
    obtain ⟨⟨ip', prefixlen⟩, hip⟩ := Option.ne_none_iff_exists'.1 (hkey p hsplit)
    simp only [hip, Option.bind_some, Option.map_some]
    rw [lookup_put_other, put, lookup_store]
    by_cases hsame : ip' = ip
    · refine .inl ⟨p.1, _, by rw [hsame], ?_, if_pos (by rw [hsame])⟩
      rw [entryInterface, Dict.get?_set_ne _ _ (by decide), Dict.get?_set_self]
    · refine .inr ⟨fun interface h => hsame (Prod.mk.inj (Option.some.inj h)).2, ?_⟩
      rw [if_neg fun h => hsame (Prod.mk.inj h).2]

/-- A DEL takes the address of its key out. -/
theorem lookup_delHandler (hkey : ValidKey ipNetwork key) (dir : Directory) (ip : String) :
    (delHandler ipNetwork table dir key).lookup "LOCAL" "local_addresses" ip =
      if (interfaceIp ipNetwork key).map Prod.snd = some ip then none
      else dir.lookup "LOCAL" "local_addresses" ip := by
  unfold delHandler interfaceIp
  cases hsplit : splitOnce "|" key with
  | none => exact lookup_remove_other dir
  | some p =>
    obtain ⟨⟨ip', prefixlen⟩, hip⟩ := Option.ne_none_iff_exists'.1 (hkey p hsplit)
    simp only [hip, Option.bind_some, Option.map_some]
    rw [lookup_remove_other, lookup_remove]
    simp only [Prod.mk.injEq, true_and, Option.some.injEq]

theorem Indexed.set {s : Sys} (h : Indexed ipNetwork s ip) (hkey : ValidKey ipNetwork key)
    (data : Data) : Indexed ipNetwork (next ipNetwork s (.set table key data)) ip := by
  unfold Indexed at h ⊢
  have hrow : (table, key) ∈ setAdd s.rows (table, key) := (mem_setAdd _ _ _).2 (.inr rfl)
  rcases lookup_setHandler table hkey s.directory data ip with
    ⟨interface, entry, hip, hdata, hlookup⟩ | ⟨hother, hlookup⟩
  · simp only [next, hlookup]
    exact ⟨_, hrow, interface, hip, hdata⟩
  · simp only [next, hlookup]
    cases hold : s.directory.lookup "LOCAL" "local_addresses" ip with
    | some entry =>
      rw [hold] at h
      obtain ⟨row, hmem, interface, hip, hdata⟩ := h
      exact ⟨row, (mem_setAdd _ _ _).2 (.inl hmem), interface, hip, hdata⟩
    | none =>
      rw [hold] at h
      intro row hmem
      rcases (mem_setAdd _ _ _).1 hmem with hmem | rfl
      · exact h row hmem
      · exact hother

theorem Indexed.del {s : Sys} (h : Indexed ipNetwork s ip)
    (hok : Ok ipNetwork s (.del table key)) :
    Indexed ipNetwork (next ipNetwork s (.del table key)) ip := by
  obtain ⟨hkey, honly⟩ := hok
  unfold Indexed at h ⊢
  simp only [next, lookup_delHandler hkey]
  by_cases hsame : (interfaceIp ipNetwork key).map Prod.snd = some ip
  · rw [if_pos hsame]
    intro row hmem interface hip
    obtain ⟨hmem, hne⟩ := (mem_setDiscard _ _ _).1 hmem
    obtain ⟨p, hp, hpip⟩ := Option.map_eq_some_iff.1 hsame
    exact honly p hp row hmem hne (by rw [hip, hpip]; rfl)
  · rw [if_neg hsame]
    cases hold : s.directory.lookup "LOCAL" "local_addresses" ip with
    | some entry =>
      rw [hold] at h
      obtain ⟨row, hmem, interface, hip, hdata⟩ := h
      refine ⟨row, (mem_setDiscard _ _ _).2 ⟨hmem, ?_⟩, interface, hip, hdata⟩
      rintro rfl
      exact hsame (by rw [hip]; rfl)
    | none =>
      rw [hold] at h
      exact fun row hmem => h row ((mem_setDiscard _ _ _).1 hmem).1

/-- The index has exactly the addresses of the rows, each with an interface that has it. -/
theorem localAddresses_of_run {es : List Event} {s : Sys}
    (hrun : Run (Step ipNetwork) (Ok ipNetwork) {} es s) (ip : String) :
    ((s.directory.lookup "LOCAL" "local_addresses" ip).isSome = true ↔
        ∃ row ∈ s.rows, ∃ interface, interfaceIp ipNetwork row.2 = some (interface, ip)) ∧
      ∀ entry, s.directory.lookup "LOCAL" "local_addresses" ip = some entry →
        ∃ row ∈ s.rows, ∃ interface, interfaceIp ipNetwork row.2 = some (interface, ip) ∧
          entryInterface entry = some (.text interface) := by
  have hindexed : Indexed ipNetwork s ip := by
    refine Run.invariant (P := fun s => Indexed ipNetwork s ip) hrun (fun s e s' h hok hstep => ?_)
      (fun row hrow => absurd hrow List.not_mem_nil)
    subst hstep
    cases e with
    | set table key data => exact h.set hok data
    | del table key => exact h.del hok
  unfold Indexed at hindexed
  cases hlookup : s.directory.lookup "LOCAL" "local_addresses" ip with
  | some entry =>
    rw [hlookup] at hindexed
    obtain ⟨row, hmem, interface, hip, hdata⟩ := hindexed
    refine ⟨⟨fun _ => ⟨row, hmem, interface, hip⟩, fun _ => rfl⟩, fun entry' h => ?_⟩
    obtain rfl := Option.some.inj h
    exact ⟨row, hmem, interface, hip, hdata⟩
  | none =>
    rw [hlookup] at hindexed
    refine ⟨⟨nofun, ?_⟩, nofun⟩
    rintro ⟨row, hmem, interface, hip⟩
    exact absurd hip (hindexed row hmem interface)

/-- Addresses with a length, as they stand. -/
def plainNetwork : IpNetwork := fun s =>
  match split '/' s with
  | [ip, len] => (decimal len).map fun n => (ip, n)
  | _ => none

theorem step_next {ipNetwork : IpNetwork} (s : Sys) (e : Event) (s' : Sys)
    (h : some (next ipNetwork s e) = some s') : Step ipNetwork s e s' :=
  Option.some.inj h

/-- An address is moved: deleted, then set on the other interface. -/
theorem localAddresses_moved :
    ∃ s, Run (Step plainNetwork) (Ok plainNetwork) {}
        [.set "INTERFACE" "Ethernet0|10.0.0.0/31" [], .del "INTERFACE" "Ethernet0|10.0.0.0/31",
          .set "PORTCHANNEL_INTERFACE" "PortChannel1|10.0.0.0/31" []] s ∧
      ∃ entry, s.directory.lookup "LOCAL" "local_addresses" "10.0.0.0" = some entry ∧
        ∃ row ∈ s.rows, ∃ interface,
          interfaceIp plainNetwork row.2 = some (interface, "10.0.0.0") ∧
            entryInterface entry = some (.text interface) := by
  refine exists_run_imp step_next
    (fun s => (s.directory.lookup "LOCAL" "local_addresses" "10.0.0.0").isSome = true)
    (by decide +kernel) ?_
  intro s hrun hsome
  obtain ⟨entry, hentry⟩ := Option.isSome_iff_exists.1 hsome
  exact ⟨entry, hentry, (localAddresses_of_run hrun "10.0.0.0").2 entry hentry⟩

/-- An address is on two interfaces, and one of them gives it up: the index has it no more. -/
theorem address_lost :
    ∃ s, Run (Step plainNetwork) (fun _ e => match e with
          | .set _ key _ | .del _ key => ValidKey plainNetwork key) {}
        [.set "INTERFACE" "Ethernet0|10.0.0.0/31" [],
          .set "PORTCHANNEL_INTERFACE" "PortChannel1|10.0.0.0/31" [],
          .del "INTERFACE" "Ethernet0|10.0.0.0/31"] s ∧
      ("PORTCHANNEL_INTERFACE", "PortChannel1|10.0.0.0/31") ∈ s.rows ∧
      (s.directory.lookup "LOCAL" "local_addresses" "10.0.0.0").isNone = true := by
  refine ⟨_, .cons (by decide +kernel) rfl (.cons (by decide +kernel) rfl
    (.cons (by decide +kernel) rfl (.nil _))), by decide +kernel, by decide +kernel⟩

end SonicBuildimage.Bgpcfgd.InterfaceMgr
