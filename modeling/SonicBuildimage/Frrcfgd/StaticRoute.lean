/-
  Static routes: a row of STATIC_ROUTE in `__update_bgp`, `hdl_static_route`, IpNextHop and
  IpNextHopSet of frrcfgd.py.

  Model.  A row has up to seven texts, each a list with commas; the next hops are read from them
  index by index, and the set that comes out is compared with the set the daemon has.  Which texts
  reach `hdl_static_route` is what `run_command` makes of the row (`KeyMap`).  `value` and `socket`
  are the exceptions `ValueError` and `OSError` (`socket.error`): the first is caught for each next
  hop, the second goes up to `sub_msg_handler`, which drops the message.  `int` and `inet_pton` are
  parameters, and so is the order of a loop over a set.

  Lists of different sizes give an empty set and a next hop with a `ValueError` is left out.  Both
  are compared with the installed set like any other, so what is missing is deleted
  (`next_hops_removed`).

  Proved: `malformed_harmless_iff`.  A row whose lists have different sizes leaves the installed
  next hops alone exactly if there are none.  A row with lists of one size and an invalid next hop
  does so exactly if an address is not readable, or if its other next hops are the installed ones.
-/
import SonicBuildimage.Frrcfgd.Tables
import SonicBuildimage.Lib.NestedDict
import SonicBuildimage.Lib.PyStr

namespace SonicBuildimage.Frrcfgd.StaticRoute

open SonicBuildimage.Lib

/-! ## Next hops -/

inductive PyErr where
  | value
  | socket
  deriving DecidableEq

/-- `IpNextHop` -/
structure IpNextHop where
  af : Af
  blackhole : String
  ip : String
  track : Int
  interface : String
  tag : Int
  distance : Int
  nhVrf : String
  deriving DecidableEq

/-- `zero_ip` -/
def zeroIp : Af → String
  | .inet => "0.0.0.0"
  | .inet6 => "::"

structure Env where
  /-- `int(text)` -/
  int : String → Option Int
  /-- `socket.inet_pton` -/
  inetPton : Af → String → Option (List Nat)
  zero_bytes : ∀ af, (inetPton af (zeroIp af)).map List.sum = some 0
  /-- the order of a loop over a set -/
  order : List IpNextHop → List IpNextHop
  order_iter : IterOrder order

/-- `is_zero_ip` -/
def isZeroIp (env : Env) (af : Af) (ip : String) : Bool :=
  match env.inetPton af ip with
  | some bytes => bytes.sum = 0
  | none => false

/-- `is_portchannel` -/
def isPortchannel (ip : String) : Bool := startswith ip "PortChannel"

/-- `0 if x is None else int(x)` -/
def number (env : Env) : Option String → Except PyErr Int
  | none => .ok 0
  | some text =>
    match env.int text with
    | some n => .ok n
    | none => .error .value

/-- The checks at the end of `IpNextHop.__init__`. -/
def checked (env : Env) (nh : IpNextHop) : Except PyErr IpNextHop :=
  if ¬isPortchannel nh.ip ∧ env.inetPton nh.af nh.ip = none then .error .socket
  else if nh.blackhole ≠ "true" ∧ isZeroIp env nh.af nh.ip ∧ ¬isPortchannel nh.ip ∧
      strip nh.interface = "" then .error .value
  else .ok nh

/-- `IpNextHop.__init__` -/
def ipNextHop (env : Env) (af : Af) (blackhole dstIp track ifName tag dist vrf : Option String) :
    Except PyErr IpNextHop := do
  let blackhole := if blackhole.getD "" = "" then "false" else blackhole.getD ""
  let distance ← number env dist
  let track ← number env track
  -- a blackhole has neither an address nor an interface nor a VRF
  let given (x : Option String) : Option String := if blackhole = "true" then none else x
  let tag ← number env tag
  checked env ⟨af, blackhole, (given dstIp).getD (zeroIp af), track, (given ifName).getD "", tag,
    distance, (given vrf).getD ""⟩

/-- `num_arg` -/
def numArg (n : Int) : String := if n = 0 then "" else toString n

/-- `get_arg_list` -/
def IpNextHop.argList (env : Env) (nh : IpNextHop) : List String :=
  [nh.blackhole, if isZeroIp env nh.af nh.ip then "" else nh.ip, nh.interface, numArg nh.track,
    numArg nh.tag, numArg nh.distance, nh.nhVrf]

/-! ## Sets of next hops -/

/-- The lists that a set of next hops is made of. -/
structure Attrs where
  bkh : Option (List String)
  nh : Option (List String)
  track : Option (List String)
  intf : Option (List String)
  tag : Option (List String)
  dist : Option (List String)
  nhVrf : Option (List String)

/-- The lists that are given. -/
def Attrs.lists (a : Attrs) : List (List String) :=
  [a.bkh, a.nh, a.track, a.intf, a.tag, a.dist, a.nhVrf].filterMap id

/-- `lst[i] if lst is not None else None` -/
def item (lst : Option (List String)) (i : Nat) : Option String := lst.bind fun l => l[i]?

/-- The next hop with this index. -/
def hopAt (env : Env) (af : Af) (a : Attrs) (i : Nat) : Except PyErr IpNextHop :=
  ipNextHop env af (item a.bkh i) (item a.nh i) (item a.track i) (item a.intf i) (item a.tag i)
    (item a.dist i) (item a.nhVrf i)

/-- One round of the loop in `IpNextHopSet.__init__`. -/
def addHop (env : Env) (af : Af) (a : Attrs) (s : List IpNextHop) (i : Nat) :
    Except PyErr (List IpNextHop) :=
  match hopAt env af a i with
  | .ok nh => .ok (setAdd s nh)
  | .error .value => .ok s
  | .error e => .error e

/-- `IpNextHopSet.__init__` -/
def ipNextHopSet (env : Env) (af : Af) (a : Attrs) : Except PyErr (List IpNextHop) :=
  if a.bkh = none ∧ a.nh = none ∧ a.intf = none then .ok []
  else
    match a.lists.map List.length with
    | n :: nums =>
      if nums.all (· = n) then (List.range n).foldlM (addHop env af a) []
      -- 'Lists of next-hop attribute have different sizes'
      else .ok []
    | [] => .ok []

/-! ## Commands -/

/-- `{no:no-prefix}ip route {} {:blackhole} {} {} {:track} {:nh-tag} {} {:nh-vrf}` with its
    values. -/
structure Cmd where
  enabled : Bool
  af : Af
  ipPrefix : String
  args : List String
  deriving DecidableEq

/-- A value with a word before it, nothing for an empty one. -/
def withWord (word value : String) : String := if value = "" then "" else word ++ " " ++ value

/-- A command as it is sent. -/
def Cmd.text (c : Cmd) : String :=
  (if c.enabled then "" else "no ") ++
    (match c.af with
      | .inet => "ip route "
      | .inet6 => "ipv6 route ") ++
    (match c.args with
      | [blackhole, ip, interface, track, tag, distance, nhVrf] =>
        " ".intercalate [c.ipPrefix,
          if blackhole = "true" then "blackhole" else if blackhole = "false" then "" else blackhole,
          ip, interface, withWord "track" track, withWord "tag" tag, distance,
          withWord "nexthop-vrf" nhVrf]
      | _ => "") ++
    (match c.af with
      | .inet => ""
      | .inet6 => " ")

/-- `get_command_cmn` for a next hop. -/
def routeCmd (env : Env) (af : Af) (ipPrefix : String) (enabled : Bool) (nh : IpNextHop) : Cmd :=
  ⟨enabled, af, ipPrefix, nh.argList env⟩

/-- The commands between two sets of next hops: all deletions come before all additions. -/
def routeCmds (env : Env) (af : Af) (ipPrefix : String) (ipNhSet curNhSet : List IpNextHop) :
    List Cmd :=
  let diffSet := env.order (ipNhSet.filter (· ∉ curNhSet) ++ curNhSet.filter (· ∉ ipNhSet))
  (diffSet.filter (· ∈ curNhSet)).map (routeCmd env af ipPrefix false) ++
    (diffSet.filter (· ∉ curNhSet)).map (routeCmd env af ipPrefix true)

/-- `arg_list` -/
def argList (v : String) : Option (List String) := if strip v = "" then none else some (split ',' v)

structure State where
  /-- `static_route_list` -/
  staticRouteList : Dict String (Dict String (List IpNextHop))
  /-- `upd_nh_set` -/
  updNhSet : List IpNextHop

/-- The next hops of a route. -/
def State.nextHops (s : State) (vrf ipPrefix : String) : List IpNextHop :=
  (s.staticRouteList.getD vrf []).getD ipPrefix []

/-- The lists in the arguments of `hdl_static_route` behind the prefix. -/
def attrsOf : List String → Option Attrs
  | [bkh, nh, intf, track, tag, dist, nhVrf] =>
    some ⟨argList bkh, argList nh, argList track, argList intf, argList tag, argList dist,
      argList nhVrf⟩
  | _ => none

/-- `hdl_static_route` -/
def hdlStaticRoute (env : Env) (af : Af) (s : State) (op : Op) (vrf : String) (args : List String) :
    Except PyErr (State × List Cmd) :=
  match args with
  | ipPrefix :: rest =>
    match attrsOf rest with
    | none => .ok (s, [])
    | some a => do
      let ipNhSet ← if op = .delete then .ok [] else ipNextHopSet env af a
      .ok ({ s with updNhSet := ipNhSet },
        routeCmds env af ipPrefix ipNhSet (s.nextHops vrf ipPrefix))
  | [] => .ok (s, [])

/-! ## Rows -/

/-- The kind of the rows of a family, `table_key`. -/
def afKind : Af → String
  | .inet => "ipv4"
  | .inet6 => "ipv6"

/-- A value as `hdl_static_route` reads it. -/
def textOf : Val → String
  | .str t => t
  | .list _ => ""

/-- The calls of the handler one after the other. -/
def runCalls (env : Env) (af : Af) (vrf : String) (s : State) :
    List (CmdVals × Op) → Except PyErr (State × List Cmd)
  | [] => .ok (s, [])
  | (.tuple vals, op) :: calls => do
    let (s, cmds) ← hdlStaticRoute env af s op vrf (vals.map textOf)
    let (s, cmds') ← runCalls env af vrf s calls
    .ok (s, cmds ++ cmds')
  | (.merged _, _) :: calls => runCalls env af vrf s calls

/-- The commands that are sent, up to the first that fails; whether one did. -/
def runCmds (v : Vty) : List Cmd → List Cmd × Bool
  | [] => ([], false)
  | c :: cs =>
    if v.next then
      let r := runCmds v.step cs
      (c :: r.1, r.2)
    else ([c], true)

/-- What a message leaves behind: the state and the commands that were sent. -/
structure Out where
  state : State
  sent : List Cmd

/-- The commands are run, and the new set is kept unless one failed. -/
def finish (s : State) (v : Vty) (vrf ipPrefix : String) (cmds : List Cmd) : Out :=
  let r := runCmds v cmds
  if r.2 then ⟨s, r.1⟩
  else
    let routes := s.staticRouteList.getD vrf []
    ⟨{ s with staticRouteList := s.staticRouteList.set vrf (routes.set ipPrefix s.updNhSet) }, r.1⟩

/-- A row of STATIC_ROUTE with its operations, in `__update_bgp`. -/
def updateRow (env : Env) (af : Af) (s : State) (v : Vty) (vrf ipPrefix : String) (data : Data)
    (delTable : Bool) : Except PyErr Out := do
  let op := if delTable then Op.delete else .update
  let data := Dict.set data "ip_prefix" (.new (.str ipPrefix) op)
  let f := staticRouteEntry (afKind af)
  let calls := ((keyLists data f.tokens []).getD []).flatMap (handlerCalls data f)
  let (s, cmds) ← runCalls env af vrf s calls
  .ok (finish s v vrf ipPrefix cmds)

/-- A message; an exception drops it. -/
def handle (env : Env) (af : Af) (s : State) (v : Vty) (vrf ipPrefix : String) (cached : Row)
    (row : Option (Dict String String)) : Out :=
  let data := addOpToData cached ((row.getD []).map fun e => (e.1, .str e.2))
    (combAttrList .staticRoute)
  match updateRow env af s v vrf ipPrefix data row.isNone with
  | .ok out => out
  | .error _ => ⟨s, []⟩

/-! ## What is expected -/

/-- The number of next hops, by the first list. -/
def Attrs.count (a : Attrs) : Nat := (a.lists.head?.map List.length).getD 0

def Uneven (a : Attrs) : Prop := ∃ x ∈ a.lists, ∃ y ∈ a.lists, x.length ≠ y.length

instance (a : Attrs) : Decidable (Uneven a) := inferInstanceAs (Decidable (∃ x ∈ a.lists, _))

/-- Lists of different sizes, or an invalid next hop. -/
inductive Malformed (env : Env) (af : Af) (a : Attrs) : Prop where
  | uneven (h : Uneven a)
  | invalid (h : ¬Uneven a) (i : Nat) (hi : i < a.count) (e : PyErr)
      (he : hopAt env af a i = .error e)

/-- The lists of a row. -/
def rowAttrs (row : Dict String String) : Attrs :=
  let texts (n : String) : Option (List String) := argList ((row.get? n).getD "")
  { bkh := texts "blackhole", nh := texts "nexthop", track := texts "track", intf := texts "ifname",
    tag := texts "tag", dist := texts "distance", nhVrf := texts "nexthop-vrf" }

/-- No command deletes an installed next hop, and the daemon still has them all and no others. -/
def Harmless (env : Env) (af : Af) (s : State) (vrf ipPrefix : String) (out : Out) : Prop :=
  (∀ c ∈ out.sent, ∀ nh ∈ s.nextHops vrf ipPrefix,
    c.text ≠ (routeCmd env af ipPrefix false nh).text) ∧
  ∀ nh, nh ∈ out.state.nextHops vrf ipPrefix ↔ nh ∈ s.nextHops vrf ipPrefix

/-- Nothing is installed that lists of different sizes could delete; or an address is not readable;
    or the valid next hops are the installed ones. -/
def Spared (env : Env) (af : Af) (a : Attrs) (installed : List IpNextHop) : Prop :=
  (Uneven a ∧ installed = []) ∨
    (¬Uneven a ∧ ((∃ i < a.count, hopAt env af a i = .error .socket) ∨
      ∀ nh, nh ∈ installed ↔ ∃ i < a.count, hopAt env af a i = .ok nh))

/-! ## The arguments of the handler -/

def attrNames : List String :=
  ["blackhole", "nexthop", "ifname", "track", "tag", "distance", "nexthop-vrf"]

/-- A field that the new row does not have is deleted, and so counts as empty. -/
theorem fieldVal_addOpToData (cached : Row) (row : Dict String String) (n : String) :
    fieldVal (addOpToData cached (row.map fun e => (e.1, .str e.2)) []) n =
      .str ((row.get? n).getD "") := by
  have hrow : Dict.get? (row.map fun e => (e.1, Val.str e.2)) n = (row.get? n).map .str :=
    Dict.get?_map_snd Val.str row n
  have hgiven : Dict.get? ((row.map fun e => (e.1, Val.str e.2)).map fun e =>
      (e.1, CachedDataWithOp.new e.2 (opFor cached e))) n =
      (row.get? n).map fun t => .new (.str t) (opFor cached (n, .str t)) := by
    rw [Dict.get?_map_item, hrow, Option.map_map]
    rfl
  unfold fieldVal addOpToData
  rw [List.foldl_nil, Dict.get?_append, hgiven]
  cases hn : row.get? n with
  | some t =>
    have hop : opFor cached (n, .str t) ≠ .delete := by
      unfold opFor
      split
      · split <;> simp
      · simp
    simp [CachedDataWithOp.new, hop]
  | none =>
    -- what is left of the cached row is marked as deleted
    rw [Option.map_none, Option.none_or]
    rw [Dict.get?_map_item (fun e => CachedDataWithOp.new e.2 .delete)]
    cases Dict.get? (cached.filter fun e =>
        Dict.get? (row.map fun e => (e.1, Val.str e.2)) e.1 = none) n
    · rfl
    · rfl

theorem fieldVal_set_ne (data : Data) {k n : String} (d : CachedDataWithOp) (h : k ≠ n) :
    fieldVal (Dict.set data k d) n = fieldVal data n := by
  unfold fieldVal
  rw [Dict.get?_set_ne data d h]

/-- A row that is set calls the handler once, with its lists. -/
theorem updateRow_set (env : Env) (af : Af) (s : State) (v : Vty) (vrf ipPrefix : String)
    (cached : Row) (row : Dict String String) :
    updateRow env af s v vrf ipPrefix (addOpToData cached (row.map fun e => (e.1, .str e.2)) [])
        false =
      (ipNextHopSet env af (rowAttrs row)).map fun ipNhSet =>
        finish { s with updNhSet := ipNhSet } v vrf ipPrefix
          (routeCmds env af ipPrefix ipNhSet (s.nextHops vrf ipPrefix)) := by
  have hset : ∀ data : Data, Dict.get? (Dict.set data "ip_prefix" (.new (.str ipPrefix) .update))
      "ip_prefix" = some (.new (.str ipPrefix) .update) := fun data => Dict.get?_set_self _ _ _
  have hentry : staticRouteEntry (afKind af) =
      slotEntry "ip_prefix" (some (afKind af)) attrNames := rfl
  unfold updateRow
  dsimp only
  rw [hentry, if_neg Bool.false_ne_true, keyLists_slotEntry (by rw [hset]; simp)]
  rw [Option.getD_some, List.flatMap_singleton, handlerCalls_slots (hset _) rfl]
  have hvals : (("ip_prefix" :: attrNames).map (fieldVal (Dict.set
      (addOpToData cached (row.map fun e => (e.1, .str e.2)) []) "ip_prefix"
        (.new (.str ipPrefix) .update)))).map textOf =
      ipPrefix :: attrNames.map fun n => (row.get? n).getD "" := by
    rw [List.map_map, List.map_cons]
    refine congrArg₂ _ ?_ (List.map_congr_left fun n hn => ?_)
    · rw [Function.comp_apply, fieldVal, hset]
      rfl
    · have hne : "ip_prefix" ≠ n := by
        rintro rfl
        exact absurd hn (by decide)
      rw [Function.comp_apply, fieldVal_set_ne _ _ hne, fieldVal_addOpToData]
      rfl
  have hattrs : attrsOf (attrNames.map fun n => (row.get? n).getD "") = some (rowAttrs row) := rfl
  simp only [runCalls, hvals, hdlStaticRoute, hattrs]
  cases ipNextHopSet env af (rowAttrs row) with
  | error e => rfl
  | ok ipNhSet => simp [bind, Except.bind, Except.map]

/-! ## The set of next hops -/

theorem number_error {env : Env} {x : Option String} {e : PyErr} (h : number env x = .error e) :
    e = .value := by
  cases x with
  | none => simp [number] at h
  | some text =>
    cases hn : env.int text with
    | none => simpa [number, hn] using h.symm
    | some n => simp [number, hn] at h

/-- Without a blackhole, an address and an interface there is no next hop. -/
theorem ipNextHop_none (env : Env) (af : Af) (track tag dist vrf : Option String) :
    ipNextHop env af none none track none tag dist vrf = .error .value := by
  have hzero : isPortchannel (zeroIp af) = false := by cases af <;> decide
  obtain ⟨bytes, hbytes, hsum⟩ := Option.map_eq_some_iff.1 (env.zero_bytes af)
  unfold ipNextHop
  cases hd : number env dist with
  | error e => rw [number_error hd]; rfl
  | ok d =>
    cases ht : number env track with
    | error e => rw [number_error ht]; rfl
    | ok t =>
      cases hg : number env tag with
      | error e => rw [number_error hg]; rfl
      | ok g => simp [bind, Except.bind, checked, isZeroIp, hzero, hbytes, hsum, strip]

/-- The loop stops at an address that is not readable. -/
theorem foldlM_addHop_error {env : Env} {af : Af} {a : Attrs} {is : List Nat}
    (h : ∃ i ∈ is, hopAt env af a i = .error .socket) (s : List IpNextHop) :
    is.foldlM (addHop env af a) s = .error .socket := by
  induction is generalizing s with
  | nil => simp at h
  | cons i is ih =>
    have hrest : hopAt env af a i ≠ .error .socket →
        ∃ j ∈ is, hopAt env af a j = .error .socket := by
      intro hi
      simpa [hi] using h
    rw [List.foldlM_cons]
    unfold addHop
    cases hi : hopAt env af a i with
    | ok nh => exact ih (hrest (by simp [hi])) _
    | error e =>
      cases e with
      | value => exact ih (hrest (by simp [hi])) _
      | socket => rfl

/-- Otherwise it collects the valid next hops. -/
theorem foldlM_addHop_ok {env : Env} {af : Af} {a : Attrs} {is : List Nat}
    (h : ∀ i ∈ is, hopAt env af a i ≠ .error .socket) (s : List IpNextHop) :
    ∃ t, is.foldlM (addHop env af a) s = .ok t ∧
      ∀ nh, nh ∈ t ↔ nh ∈ s ∨ ∃ i ∈ is, hopAt env af a i = .ok nh := by
  induction is generalizing s with
  | nil => exact ⟨s, rfl, by simp⟩
  | cons i is ih =>
    have hrest := ih fun j hj => h j (List.mem_cons_of_mem _ hj)
    rw [List.foldlM_cons]
    unfold addHop
    cases hi : hopAt env af a i with
    | ok nh =>
      obtain ⟨t, ht, hmem⟩ := hrest (setAdd s nh)
      refine ⟨t, ht, fun nh' => ?_⟩
      rw [hmem, mem_setAdd, List.exists_mem_cons_iff, hi, or_assoc, Except.ok.injEq, eq_comm]
    | error e =>
      cases e with
      | value =>
        obtain ⟨t, ht, hmem⟩ := hrest s
        refine ⟨t, ht, fun nh' => ?_⟩
        rw [hmem, List.exists_mem_cons_iff, hi]
        simp
      | socket => exact absurd hi (h i List.mem_cons_self)

/-- Lists of different sizes count as none. -/
theorem ipNextHopSet_uneven {env : Env} {af : Af} {a : Attrs} (h : Uneven a) :
    ipNextHopSet env af a = .ok [] := by
  obtain ⟨x, hx, y, hy, hxy⟩ := h
  unfold ipNextHopSet
  split
  · rfl
  · split
    · next n nums hnums =>
      rw [if_neg]
      intro hall
      have hn : ∀ z ∈ a.lists, z.length = n := by
        intro z hz
        have hmem : z.length ∈ n :: nums := hnums ▸ List.mem_map_of_mem hz
        rcases List.mem_cons.1 hmem with heq | hmem
        · exact heq
        · exact of_decide_eq_true (List.all_eq_true.1 hall _ hmem)
      exact hxy ((hn x hx).trans (hn y hy).symm)
    · rfl

/-- The loop goes through the next hops of lists of one size. -/
theorem ipNextHopSet_even {env : Env} {af : Af} {a : Attrs} (h : ¬Uneven a)
    (hany : ¬(a.bkh = none ∧ a.nh = none ∧ a.intf = none)) :
    ipNextHopSet env af a = (List.range a.count).foldlM (addHop env af a) [] := by
  unfold ipNextHopSet Attrs.count
  rw [if_neg hany]
  cases hl : a.lists with
  | nil => rfl
  | cons x xs =>
    have hall : (xs.map List.length).all (· = x.length) = true := by
      rw [List.all_eq_true]
      intro n hn
      obtain ⟨y, hy, rfl⟩ := List.mem_map.1 hn
      refine decide_eq_true (not_not.1 fun hne => h ⟨y, ?_, x, ?_, hne⟩)
      · rw [hl]
        exact List.mem_cons_of_mem _ hy
      · rw [hl]
        exact List.mem_cons_self
    simp only [List.map_cons, hall, if_true]
    rfl

theorem hopAt_none {env : Env} {af : Af} {a : Attrs}
    (hnone : a.bkh = none ∧ a.nh = none ∧ a.intf = none) (i : Nat) :
    hopAt env af a i = .error .value := by
  unfold hopAt
  rw [hnone.1, hnone.2.1, hnone.2.2]
  exact ipNextHop_none _ _ _ _ _ _

theorem ipNextHopSet_error {env : Env} {af : Af} {a : Attrs} (h : ¬Uneven a)
    (hsocket : ∃ i < a.count, hopAt env af a i = .error .socket) :
    ipNextHopSet env af a = .error .socket := by
  obtain ⟨i, hi, herr⟩ := hsocket
  rw [ipNextHopSet_even h]
  · exact foldlM_addHop_error ⟨i, List.mem_range.2 hi, herr⟩ []
  · intro hnone
    rw [hopAt_none hnone] at herr
    simp at herr

theorem ipNextHopSet_ok {env : Env} {af : Af} {a : Attrs} (h : ¬Uneven a)
    (hsocket : ∀ i < a.count, hopAt env af a i ≠ .error .socket) :
    ∃ t, ipNextHopSet env af a = .ok t ∧
      ∀ nh, nh ∈ t ↔ ∃ i < a.count, hopAt env af a i = .ok nh := by
  by_cases hnone : a.bkh = none ∧ a.nh = none ∧ a.intf = none
  · refine ⟨[], if_pos hnone, fun nh => iff_of_false List.not_mem_nil ?_⟩
    rintro ⟨i, -, hi⟩
    rw [hopAt_none hnone] at hi
    simp at hi
  · rw [ipNextHopSet_even h hnone]
    obtain ⟨t, ht, hmem⟩ := foldlM_addHop_ok (fun i hi => hsocket i (List.mem_range.1 hi)) []
    refine ⟨t, ht, fun nh => ?_⟩
    rw [hmem]
    simp

/-! ## What is sent -/

theorem routeCmds_same {env : Env} {set cur : List IpNextHop} (h : ∀ nh, nh ∈ set ↔ nh ∈ cur)
    (af : Af) (ipPrefix : String) : routeCmds env af ipPrefix set cur = [] := by
  have hdiff : set.filter (· ∉ cur) ++ cur.filter (· ∉ set) = [] := by
    rw [List.append_eq_nil_iff, List.filter_eq_nil_iff, List.filter_eq_nil_iff]
    exact ⟨fun nh hnh => by simp [(h nh).1 hnh], fun nh hnh => by simp [(h nh).2 hnh]⟩
  unfold routeCmds
  rw [hdiff, (env.order_iter []).eq_nil]
  rfl

theorem runCmds_of_succeed {v : Vty} (hv : ∀ i, v.results i = true) (cmds : List Cmd) :
    runCmds v cmds = (cmds, false) := by
  induction cmds generalizing v with
  | nil => rfl
  | cons c cmds ih =>
    have hnext : v.next = true := hv v.count
    rw [runCmds, if_pos hnext, ih (v := v.step) hv]

theorem nextHops_finish {s : State} {v : Vty} {vrf ipPrefix : String} {cmds : List Cmd}
    (h : (runCmds v cmds).2 = false) :
    (finish s v vrf ipPrefix cmds).state.nextHops vrf ipPrefix = s.updNhSet := by
  unfold finish State.nextHops
  simp only [h, Bool.false_eq_true, if_false]
  rw [Dict.getD_set_self, Dict.getD_set_self]

/-- A set is harmless if and only if it is the installed one. -/
theorem finish_harmless_iff (env : Env) (af : Af) (s : State) (vrf ipPrefix : String)
    (set : List IpNextHop) :
    (∀ v, Harmless env af s vrf ipPrefix (finish { s with updNhSet := set } v vrf ipPrefix
      (routeCmds env af ipPrefix set (s.nextHops vrf ipPrefix)))) ↔
    ∀ nh, nh ∈ set ↔ nh ∈ s.nextHops vrf ipPrefix := by
  constructor
  · intro h nh
    -- all commands succeed, and the new set is kept
    have hv := (h ⟨fun _ => true, 0⟩).2 nh
    rwa [nextHops_finish (by rw [runCmds_of_succeed fun _ => rfl])] at hv
  · intro h v
    rw [routeCmds_same h]
    refine ⟨fun c hc => absurd hc List.not_mem_nil, fun nh => ?_⟩
    rw [nextHops_finish rfl]
    exact h nh

/-- When a malformed row leaves the installed next hops alone, whatever the commands return. -/
theorem malformed_harmless_iff {env : Env} {af : Af} {row : Dict String String}
    (hmal : Malformed env af (rowAttrs row)) (s : State) (vrf ipPrefix : String) (cached : Row) :
    (∀ v, Harmless env af s vrf ipPrefix (handle env af s v vrf ipPrefix cached (some row))) ↔
      Spared env af (rowAttrs row) (s.nextHops vrf ipPrefix) := by
  have hhandle : ∀ v, handle env af s v vrf ipPrefix cached (some row) =
      match (ipNextHopSet env af (rowAttrs row)).map fun ipNhSet =>
        finish { s with updNhSet := ipNhSet } v vrf ipPrefix
          (routeCmds env af ipPrefix ipNhSet (s.nextHops vrf ipPrefix)) with
      | .ok out => out
      | .error _ => ⟨s, []⟩ := by
    intro v
    rw [← updateRow_set env af s v vrf ipPrefix cached row]
    rfl
  simp only [hhandle]
  unfold Spared
  cases hmal with
  | uneven h =>
    rw [ipNextHopSet_uneven h]
    refine (finish_harmless_iff env af s vrf ipPrefix []).trans ?_
    rw [List.eq_nil_iff_forall_not_mem]
    simp [h]
  | invalid h =>
    by_cases hsocket : ∃ i < (rowAttrs row).count, hopAt env af (rowAttrs row) i = .error .socket
    · rw [ipNextHopSet_error h hsocket]
      refine iff_of_true (fun v => ⟨fun c hc => absurd hc List.not_mem_nil, fun nh => Iff.rfl⟩) ?_
      exact .inr ⟨h, .inl hsocket⟩
    · obtain ⟨t, ht, hmem⟩ := ipNextHopSet_ok h fun i hi herr => hsocket ⟨i, hi, herr⟩
      rw [ht]
      refine (finish_harmless_iff env af s vrf ipPrefix t).trans ?_
      simp [h, hsocket, hmem, iff_comm]

/-! ## Two next hops -/

/-- Numbers of one digit and a few addresses. -/
def sampleEnv : Env where
  int text := if text = "1" then some 1 else none
  inetPton af ip :=
    match af with
    | .inet =>
      if ip = "0.0.0.0" then some [0, 0, 0, 0]
      else if ip = "10.0.0.1" then some [10, 0, 0, 1]
      else if ip = "10.0.0.2" then some [10, 0, 0, 2]
      else none
    | .inet6 => if ip = "::" then some (List.replicate 16 0) else none
  zero_bytes af := by cases af <;> decide
  order := id
  order_iter := iterOrder_id

def hop (ip : String) : IpNextHop := ⟨.inet, "false", ip, 0, "", 0, 0, ""⟩

/-- A route with two next hops. -/
def installed : State := ⟨[("default", [("10.1.0.0/16", [hop "10.0.0.1", hop "10.0.0.2"])])], []⟩

/-- The route is set, and all commands succeed. -/
def updated (row : Dict String String) : Out :=
  handle sampleEnv .inet installed ⟨fun _ => true, 0⟩ "default" "10.1.0.0/16" [] (some row)

/-- An address that is not readable. -/
theorem unreadable_harmless :
    Malformed sampleEnv .inet (rowAttrs [("nexthop", "10.0.0.1,10.0.0")]) ∧
      ∀ v, Harmless sampleEnv .inet installed "default" "10.1.0.0/16"
        (handle sampleEnv .inet installed v "default" "10.1.0.0/16" []
          (some [("nexthop", "10.0.0.1,10.0.0")])) := by
  have heven : ¬Uneven (rowAttrs [("nexthop", "10.0.0.1,10.0.0")]) := by decide +kernel
  have hsocket : hopAt sampleEnv .inet (rowAttrs [("nexthop", "10.0.0.1,10.0.0")]) 1 =
      .error .socket := by rfl
  have hcount : 1 < (rowAttrs [("nexthop", "10.0.0.1,10.0.0")]).count := by decide +kernel
  have hmal : Malformed sampleEnv .inet (rowAttrs [("nexthop", "10.0.0.1,10.0.0")]) :=
    .invalid heven 1 hcount .socket hsocket
  refine ⟨hmal, (malformed_harmless_iff hmal _ _ _ _).2 ?_⟩
  exact .inr ⟨heven, .inl ⟨1, hcount, hsocket⟩⟩

/-- One interface for two addresses deletes both next hops, and a distance that is no number deletes
    the next hop it is for. -/
theorem next_hops_removed :
    Uneven (rowAttrs [("nexthop", "10.0.0.1,10.0.0.2"), ("ifname", "Ethernet0")]) ∧
      (updated [("nexthop", "10.0.0.1,10.0.0.2"), ("ifname", "Ethernet0")]).sent =
        [hop "10.0.0.1", hop "10.0.0.2"].map (routeCmd sampleEnv .inet "10.1.0.0/16" false) ∧
      (updated [("nexthop", "10.0.0.1,10.0.0.2"), ("ifname", "Ethernet0")]).state.nextHops
        "default" "10.1.0.0/16" = [] ∧
      routeCmd sampleEnv .inet "10.1.0.0/16" false (hop "10.0.0.2") ∈
        (updated [("nexthop", "10.0.0.1,10.0.0.2"), ("distance", "1,x")]).sent ∧
      hop "10.0.0.2" ∉ (updated [("nexthop", "10.0.0.1,10.0.0.2"),
        ("distance", "1,x")]).state.nextHops "default" "10.1.0.0/16" := by
  decide +kernel

end SonicBuildimage.Frrcfgd.StaticRoute
