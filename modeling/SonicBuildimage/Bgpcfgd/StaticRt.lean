/-
  `StaticRouteMgr` of bgpcfgd (`bgpcfgd/managers_static_rt.py`) and the part of FRR that
  its commands are about.

  Model (read this before the theorems).
  * A command is a value of `Cmd`; `Cmd.text` is the line the source pushes. FRR
    interprets a list of commands in order: for each VRF the set of the texts of its static
    routes, a flag "redistribute static" for each VRF and address family, and one namespace
    of route-maps, of which the source uses one.
  * `IpNextHopSet` is a list without repetitions; the order of the loops over it is a
    parameter, since Python fixes none.
  * `PyErr` tells the two kinds of exceptions that the source treats differently:
    `socket.inet_pton` raises `OSError`, which `except ValueError` does not catch.
  * `RtEnv` holds what comes from outside the source's text: `socket.inet_pton`, `int`,
    `ip_network`, `TemplateFabric.is_ipv6` (netaddr) and `str.lower`.
  * `splitKey_iff`: which keys are read as meant, with `ip_network` as `Lib.IpAddress` has it.
  * `bgpAsn` is the value at `localhost/bgp_asn` of DEVICE_METADATA in the directory.
-/
import SonicBuildimage.Lib.IpAddress
import SonicBuildimage.Lib.PyDict
import SonicBuildimage.Lib.PyStr
import SonicBuildimage.Lib.Run

namespace SonicBuildimage.Bgpcfgd

open SonicBuildimage.Lib

/-- The exceptions that the handlers tell apart. -/
inductive PyErr where
  | valueError
  | osError
deriving DecidableEq

/-- What the manager takes from libraries; `true` stands for `AF_INET6`. -/
structure RtEnv where
  inetPton : Bool → String → Except PyErr (List Nat)
  int : String → Option Int
  ipNetwork : String → Bool
  isIPv6 : String → Bool
  lower : String → String

/-! ## Next hops -/

/-- `IpNextHop`; `af` is `true` for `AF_INET6`. -/
structure IpNextHop where
  af : Bool
  blackhole : String
  ip : String
  interface : String
  distance : Int
  nhVrf : String
deriving DecidableEq

/-- `zero_ip`. -/
def zeroIp (af : Bool) : String := if af then "::" else "0.0.0.0"

/-- `is_portchannel`. -/
def isPortchannel (ip : String) : Bool := "PortChannel".toList.isPrefixOf ip.toList

/-- `is_zero_ip`. -/
def isZeroIp (env : RtEnv) (af : Bool) (ip : String) : Except PyErr Bool :=
  match env.inetPton af ip with
  | .ok bytes => .ok (bytes.sum = 0)
  | .error .osError => .ok false
  | .error e => .error e

/-- `IpNextHop.__init__`. -/
def ipNextHop (env : RtEnv) (af : Bool) (blackhole dstIp ifName dist vrf : Option String) :
    Except PyErr IpNextHop := do
  let blackhole := if blackhole.getD "" = "" then "false" else blackhole.getD ""
  let distance ← match dist with
    | none => .ok 0
    | some d => match env.int d with
      | some n => .ok n
      | none => .error PyErr.valueError
  let dstIp := if blackhole = "true" then none else dstIp
  let ifName := if blackhole = "true" then none else ifName
  let vrf := if blackhole = "true" then none else vrf
  let ip := if dstIp.getD "" = "" then zeroIp af else dstIp.getD ""
  let interface := ifName.getD ""
  if ¬ isPortchannel ip then
    -- `is_ip_valid`
    let _ ← env.inetPton af ip
  if blackhole ≠ "true" then
    if ← isZeroIp env af ip then
      if ¬ isPortchannel ip ∧ strip interface = "" then
        throw PyErr.valueError
  return ⟨af, blackhole, ip, interface, distance, vrf.getD ""⟩

/-- `IpNextHop.__format__`. An address whose check raises anything but `OSError` is never
    in a set. -/
def IpNextHop.format (env : RtEnv) (nh : IpNextHop) : String :=
  (if nh.blackhole = "true" then " blackhole" else "") ++
  (if isZeroIp env nh.af nh.ip matches .ok true then "" else " " ++ nh.ip) ++
  (if nh.interface = "" then "" else " " ++ nh.interface) ++
  (if nh.distance = 0 then "" else " " ++ toString nh.distance) ++
  (if nh.nhVrf = "" then "" else " nexthop-vrf " ++ nh.nhVrf)

/-- `lst[i] if lst is not None else None`. -/
def itemAt (lst : Option (List String)) (i : Nat) : Option String := lst.bind fun l => l[i]?

/-- One iteration of `IpNextHopSet.__init__`: a next hop with a `ValueError` is skipped. -/
def addIpNextHop (env : RtEnv) (af : Bool) (bkhList ipList intfList distList vrfList :
    Option (List String)) (s : List IpNextHop) (idx : Nat) : Except PyErr (List IpNextHop) :=
  match ipNextHop env af (itemAt bkhList idx) (itemAt ipList idx) (itemAt intfList idx)
    (itemAt distList idx) (itemAt vrfList idx) with
  | .ok nh => .ok (setAdd s nh)
  | .error .valueError => .ok s
  | .error e => .error e

/-- `IpNextHopSet.__init__`. -/
def ipNextHopSet (env : RtEnv) (isIpv6 : Bool) (bkhList ipList intfList distList vrfList :
    Option (List String)) : Except PyErr (List IpNextHop) :=
  if bkhList = none ∧ ipList = none ∧ intfList = none then .ok []
  else
    match ([bkhList, ipList, intfList, distList, vrfList].filterMap id).map List.length with
    | n :: nums =>
      if nums.all (· = n) then
        (List.range n).foldlM (addIpNextHop env isIpv6 bkhList ipList intfList distList vrfList) []
      else .error .valueError
    | [] => .error .valueError

/-! ## Commands -/

/-- A static route line of FRR: `ip route ...` without a leading `no`. -/
structure RouteLine where
  af : Bool
  ipPrefix : String
  nexthop : String
  vrf : String
  tag : String
deriving DecidableEq

/-- The commands the manager pushes. -/
inductive Cmd where
  | route (no : Bool) (line : RouteLine)
  | routeMapPermit
  | matchTag (tag : String)
  | routerBgp (asn vrf : String)
  | addressFamily (af : Bool)
  | redistribute (no : Bool)
  | noRouteMap
deriving DecidableEq

/-- The text of a line, as `generate_command` writes it. -/
def RouteLine.text (l : RouteLine) : String :=
  (if l.af then "ipv6" else "ip") ++ " route " ++ l.ipPrefix ++ l.nexthop ++
    (if l.vrf ≠ "default" then " vrf " ++ l.vrf else "") ++ " tag " ++ l.tag

/-- The text that is pushed. -/
def Cmd.text : Cmd → String
  | .route no line => (if no then "no " else "") ++ line.text
  | .routeMapPermit => "route-map STATIC_ROUTE_FILTER permit 10"
  | .matchTag tag => " match tag " ++ tag
  | .routerBgp asn vrf =>
    if vrf = "default" then "router bgp " ++ asn else "router bgp " ++ asn ++ " vrf " ++ vrf
  | .addressFamily af => " address-family " ++ (if af then "ipv6" else "ipv4")
  | .redistribute no =>
    (if no then "  no " else "  ") ++ "redistribute static route-map STATIC_ROUTE_FILTER"
  | .noRouteMap => "no route-map STATIC_ROUTE_FILTER"

/-- `ROUTE_ADVERTISE_ENABLE_TAG` and `ROUTE_ADVERTISE_DISABLE_TAG`. -/
def routeAdvertiseEnableTag : String := "1"
def routeAdvertiseDisableTag : String := "2"

/-- The line of a next hop of a route. -/
def lineOf (env : RtEnv) (ipPrefix vrf tag : String) (nh : IpNextHop) : RouteLine :=
  ⟨nh.af, ipPrefix, nh.format env, vrf, tag⟩

/-- `static_route_commands`: all deletions come before all additions. -/
def staticRouteCommands (env : RtEnv) (order : List IpNextHop → List IpNextHop)
    (ipNhSet curNhSet : List IpNextHop) (ipPrefix vrf routeTag curRouteTag : String) : List Cmd :=
  let generate (no : Bool) (tag : String) (nhs : List IpNextHop) :=
    nhs.map fun nh => Cmd.route no (lineOf env ipPrefix vrf tag nh)
  if routeTag ≠ curRouteTag then
    generate true curRouteTag (order curNhSet) ++ generate false routeTag (order ipNhSet)
  else
    let diffSet := order (ipNhSet.filter (· ∉ curNhSet) ++ curNhSet.filter (· ∉ ipNhSet))
    generate true routeTag (diffSet.filter (· ∈ curNhSet)) ++
      generate false routeTag (diffSet.filter (· ∉ curNhSet))

/-- The loop over both address families. -/
def redistributeCommands (no : Bool) : List Cmd :=
  [false, true].flatMap fun af => [.addressFamily af, .redistribute no]

/-- `enable_redistribution_command`. -/
def enableRedistributionCommand (asn vrf : String) : List Cmd :=
  [.routeMapPermit, .matchTag routeAdvertiseEnableTag, .routerBgp asn vrf] ++
    redistributeCommands false

/-- `disable_redistribution_command`. -/
def disableRedistributionCommand (asn vrf : String) : List Cmd :=
  [.routerBgp asn vrf] ++ redistributeCommands true ++ [.noRouteMap]

/-! ## The manager -/

/-- The state of a `StaticRouteMgr`. -/
structure RtState where
  /-- `static_routes`: VRF to prefix to the next hops and the tag -/
  staticRoutes : Dict String (Dict String (List IpNextHop × String)) := []
  vrfPendingRedistribution : List String := []
  bgpAsn : Option String := none
deriving DecidableEq

/-- `self.static_routes.get(vrf, {})`. -/
def RtState.routes (s : RtState) (vrf : String) : Dict String (List IpNextHop × String) :=
  s.staticRoutes.getD vrf []

/-- `self.static_routes.setdefault(vrf, {})[ip_prefix] = entry`. -/
def RtState.setRoute (s : RtState) (vrf ipPrefix : String) (entry : List IpNextHop × String) :
    RtState :=
  { s with staticRoutes := s.staticRoutes.set vrf ((s.routes vrf).set ipPrefix entry) }

/-- `self.static_routes.setdefault(vrf, {}).pop(ip_prefix, None)`. -/
def RtState.popRoute (s : RtState) (vrf ipPrefix : String) : RtState :=
  { s with staticRoutes := s.staticRoutes.set vrf ((s.routes vrf).erase ipPrefix) }

/-- `split_key`; `none` is the `ValueError` that no caller catches. -/
def splitKey (env : RtEnv) (key : String) : Option (String × String) :=
  match split '|' key with
  | vrf :: part :: parts => some (vrf, join "|" (part :: parts))
  | _ =>
    if env.ipNetwork key then some ("default", key)
    else match split ':' key with
      | vrf :: part :: parts => some (vrf, join ":" (part :: parts))
      | _ => none

/-- The lambda `arg_list`. -/
def rtArgList (v : String) : Option (List String) :=
  if strip v = "" then none else some (split ',' v)

/-- `arg_list(data[f]) if f in data else None`. -/
def rtField (data : Dict String String) (f : String) : Option (List String) :=
  (data.get? f).bind rtArgList

/-- `bfd_enable and bfd_enable[0].lower() == "true"`. -/
def rtBfdEnabled (env : RtEnv) (data : Dict String String) : Bool :=
  match rtField data "bfd" with
  | some (x :: _) => env.lower x == "true"
  | _ => false

/-- `route_tag`. -/
def routeTag (data : Dict String String) : String :=
  if data.get? "advertise" = some "false" then routeAdvertiseDisableTag
  else routeAdvertiseEnableTag

/-- `IpNextHopSet(is_ipv6, bkh_list, nh_list, intf_list, dist_list, nh_vrf_list)`. -/
def nextHopsOf (env : RtEnv) (ipPrefix : String) (data : Dict String String) :
    Except PyErr (List IpNextHop) :=
  ipNextHopSet env (env.isIPv6 ipPrefix) (rtField data "blackhole") (rtField data "nexthop")
    (rtField data "ifname") (rtField data "distance") (rtField data "nexthop-vrf")

/-- `set_handler`: the new state, the commands that are pushed, and the result. -/
def rtSetHandler (env : RtEnv) (order : List IpNextHop → List IpNextHop) (s : RtState)
    (key : String) (data : Dict String String) : Option (RtState × List Cmd × Bool) := do
  let (vrf, ipPrefix) ← splitKey env key
  if rtBfdEnabled env data then
    -- a route with bfd is left to staticroutebfd
    let tmpNhSet := ((s.routes vrf).getD ipPrefix ([], "")).1
    return (if tmpNhSet = [] then s else s.popRoute vrf ipPrefix, [], true)
  else match nextHopsOf env ipPrefix data with
  | .error _ => return (s, [], false)
  | .ok ipNhSet =>
    let tag := routeTag data
    let (curNhSet, curRouteTag) := (s.routes vrf).getD ipPrefix ([], tag)
    let cmds := staticRouteCommands env order ipNhSet curNhSet ipPrefix vrf tag curRouteTag
    -- redistribution is enabled with the first route of the VRF
    let (cmds, s) :=
      if s.routes vrf = [] then
        match s.bgpAsn with
        | some asn => (cmds ++ enableRedistributionCommand asn vrf, s)
        | none => (cmds, { s with
            vrfPendingRedistribution := setAdd s.vrfPendingRedistribution vrf })
      else (cmds, s)
    return (s.setRoute vrf ipPrefix (ipNhSet, tag), cmds, true)

/-- `skip_appl_del`, with `cfg` for what CONFIG_DB returns. -/
def skipApplDel (dbName : String) (cfg : String → String → Option String) (s : RtState)
    (vrf ipPrefix : String) : RtState × Bool :=
  let cfgKey := "STATIC_ROUTE|" ++ vrf ++ "|" ++ ipPrefix
  let defaultKey := "STATIC_ROUTE|" ++ ipPrefix
  if dbName = "CONFIG_DB" then (s, false)
  else if vrf = "default" ∧ cfg defaultKey "bfd" = some "true" then (s, false)
  else if cfg cfgKey "bfd" = some "true" then (s, false)
  else if (cfg cfgKey "nexthop").getD "" ≠ "" then (s.popRoute vrf ipPrefix, true)
  else if (cfg (if vrf = "default" then defaultKey else cfgKey) "nexthop").getD "" ≠ "" then
    (s.popRoute vrf ipPrefix, true)
  else (s, false)

/-- `self.static_routes.get(vrf, {}).keys() == {ip_prefix}`. -/
def isLastRoute (s : RtState) (vrf ipPrefix : String) : Prop :=
  s.routes vrf ≠ [] ∧ ∀ k ∈ (s.routes vrf).keys, k = ipPrefix

instance (s : RtState) (vrf ipPrefix : String) : Decidable (isLastRoute s vrf ipPrefix) :=
  inferInstanceAs (Decidable (_ ∧ ∀ k ∈ _, _))

/-- `del_handler`: the new state and the commands that are pushed. -/
def rtDelHandler (env : RtEnv) (dbName : String) (order : List IpNextHop → List IpNextHop)
    (s : RtState) (key : String) (cfg : String → String → Option String) :
    Option (RtState × List Cmd) := do
  let (vrf, ipPrefix) ← splitKey env key
  let (s, skip) := skipApplDel dbName cfg s vrf ipPrefix
  if skip then return (s, [])
  else
    let (curNhSet, tag) := (s.routes vrf).getD ipPrefix ([], routeAdvertiseDisableTag)
    let cmds := staticRouteCommands env order [] curNhSet ipPrefix vrf tag tag
    -- redistribution is disabled with the last route of the VRF
    let (cmds, s) :=
      if isLastRoute s vrf ipPrefix then
        (match s.bgpAsn with
          | some asn => cmds ++ disableRedistributionCommand asn vrf
          | none => cmds,
          { s with vrfPendingRedistribution := setDiscard s.vrfPendingRedistribution vrf })
      else (cmds, s)
    return (s.popRoute vrf ipPrefix, cmds)

/-- `on_bgp_asn_change` after the AS number was put into the directory. -/
def onBgpAsnChange (order : List String → List String) (s : RtState) (asn : String) :
    RtState × List Cmd :=
  ({ s with bgpAsn := some asn, vrfPendingRedistribution := [] },
    (order s.vrfPendingRedistribution).flatMap (enableRedistributionCommand asn))

/-! ## FRR -/

/-- Static route lines by VRF, redistribution flags, the route-map, and where the prompt is. -/
structure Frr where
  lines : List (String × String) := []
  redistributed : List (String × Bool) := []
  routeMap : Bool := false
  router : Option String := none
  family : Option Bool := none
deriving DecidableEq

/-- One command. -/
def Frr.apply (f : Frr) : Cmd → Frr
  | .route no line =>
    { f with lines := if no then setDiscard f.lines (line.vrf, line.text)
                      else setAdd f.lines (line.vrf, line.text)
             router := none, family := none }
  | .routeMapPermit => { f with routeMap := true, router := none, family := none }
  | .matchTag _ => f
  | .routerBgp _ vrf => { f with router := some vrf, family := none }
  | .addressFamily af => { f with family := some af }
  | .redistribute no =>
    match f.router, f.family with
    | some vrf, some af =>
      { f with redistributed :=
                if no then setDiscard f.redistributed (vrf, af)
                else setAdd f.redistributed (vrf, af) }
    | _, _ => f
  | .noRouteMap => { f with routeMap := false, router := none, family := none }

/-! ## Runs -/

/-- The manager and FRR. -/
structure RtSys where
  mgr : RtState := {}
  frr : Frr := {}
deriving DecidableEq

/-- A message of the STATIC_ROUTE table, or the arrival of the AS number. -/
inductive RtEvent where
  | set (key : String) (data : Dict String String)
  | del (key : String) (cfg : String → String → Option String)
  | bgpAsn (asn : String)

/-- An order of the loops over next hops and over VRFs. -/
structure RtOrder where
  nexthops : List IpNextHop → List IpNextHop
  vrfs : List String → List String
  nexthops_iter : IterOrder nexthops
  vrfs_iter : IterOrder vrfs

/-- One event, with its commands interpreted by FRR. -/
def rtHandle (env : RtEnv) (dbName : String) (order : RtOrder) (sys : RtSys) :
    RtEvent → Option RtSys
  | .set key data => do
    let (s, cmds, _) ← rtSetHandler env order.nexthops sys.mgr key data
    return ⟨s, cmds.foldl Frr.apply sys.frr⟩
  | .del key cfg => do
    let (s, cmds) ← rtDelHandler env dbName order.nexthops sys.mgr key cfg
    return ⟨s, cmds.foldl Frr.apply sys.frr⟩
  | .bgpAsn asn =>
    let (s, cmds) := onBgpAsnChange order.vrfs sys.mgr asn
    some ⟨s, cmds.foldl Frr.apply sys.frr⟩

/-- One event in some order of the loops over sets. -/
def RtStep (env : RtEnv) (dbName : String) (sys : RtSys) (e : RtEvent) (sys' : RtSys) : Prop :=
  ∃ order, rtHandle env dbName order sys e = some sys'

/-! ## Concrete runs -/

/-- Dotted IPv4 addresses and prefixes; no text is taken for an IPv6 address. -/
def ipv4RtEnv : RtEnv where
  inetPton af ip :=
    match (split '.' ip).filterMap decimal with
    | [a, b, c, d] =>
      if ¬ af ∧ (split '.' ip).length = 4 ∧ a ≤ 255 ∧ b ≤ 255 ∧ c ≤ 255 ∧ d ≤ 255 then
        .ok [a, b, c, d]
      else .error .osError
    | _ => .error .osError
  int s := (decimal s).map Int.ofNat
  ipNetwork s := '/' ∈ s.toList ∧ ':' ∉ s.toList
  isIPv6 _ := false
  lower s := String.ofList (s.toList.map Char.toLower)

/-- The loops walk through the sets as they are stored. -/
def storedOrder : RtOrder := ⟨id, id, iterOrder_id, iterOrder_id⟩

/-! ## Keys -/

/-- The environment in which `ip_network` is the one of `ipaddress`. -/
def RtEnv.withIpaddress (env : RtEnv) : RtEnv := { env with ipNetwork := IpAddress.ipNetwork }

theorem splitKey_bar (env : RtEnv) {vrf p : String} (hbar : '|' ∉ vrf.toList) :
    splitKey env (vrf ++ "|" ++ p) = some (vrf, p) := by
  have hsplit : split '|' (vrf ++ "|" ++ p) = vrf :: split '|' p := split_append hbar p
  have hjoin : join "|" (split '|' p) = p := join_split '|' p
  obtain ⟨x, xs, hx⟩ := List.exists_cons_of_ne_nil (split_ne_nil '|' p)
  rw [splitKey, hsplit, hx]
  rw [hx] at hjoin
  simp only [hjoin]

theorem splitKey_colon {env : RtEnv} {vrf p : String} (hcolon : ':' ∉ vrf.toList)
    (hbar : '|' ∉ vrf.toList) (hbarp : '|' ∉ p.toList)
    (hnet : env.ipNetwork (vrf ++ ":" ++ p) = false) :
    splitKey env (vrf ++ ":" ++ p) = some (vrf, p) := by
  have hbars : split '|' (vrf ++ ":" ++ p) = [vrf ++ ":" ++ p] :=
    split_of_not_mem (by simp [hbar, hbarp])
  have hsplit : split ':' (vrf ++ ":" ++ p) = vrf :: split ':' p := split_append hcolon p
  have hjoin : join ":" (split ':' p) = p := join_split ':' p
  obtain ⟨x, xs, hx⟩ := List.exists_cons_of_ne_nil (split_ne_nil ':' p)
  rw [splitKey, hbars, hsplit, hx]
  rw [hx] at hjoin
  simp only [hnet, hjoin, Bool.false_eq_true, if_false]

theorem splitKey_bare {env : RtEnv} {p : String} (hbar : '|' ∉ p.toList)
    (hnet : env.ipNetwork p = true) : splitKey env p = some ("default", p) := by
  rw [splitKey, split_of_not_mem hbar]
  simp only [hnet, if_true]

/-- The three ways in which a key is split. -/
theorem splitKey_cases {env : RtEnv} {key vrf p : String} (h : splitKey env key = some (vrf, p)) :
    key = vrf ++ "|" ++ p ∨ '|' ∉ key.toList ∧
      (env.ipNetwork key = true ∧ vrf = "default" ∧ p = key ∨
        env.ipNetwork key = false ∧ key = vrf ++ ":" ++ p) := by
  unfold splitKey at h
  split at h
  · next x y ys hsplit =>
    obtain ⟨rfl, rfl⟩ := Prod.mk.inj (Option.some.inj h)
    left
    have hjoin : join "|" (split '|' key) = key := join_split '|' key
    rw [hsplit] at hjoin
    rw [← hjoin, ← String.toList_inj, toList_join_cons]
    simp [toList_join_cons]
  · next hsplit =>
    have hbar : '|' ∉ key.toList := by
      have hlen := length_split '|' key
      intro hmem
      have hpos := List.count_pos_iff.2 hmem
      match hs : split '|' key with
      | [] => exact split_ne_nil _ _ hs
      | [x] =>
        rw [hs, List.length_singleton] at hlen
        omega
      | x :: y :: ys => exact hsplit x y ys hs
    right
    refine ⟨hbar, ?_⟩
    cases hnet : env.ipNetwork key with
    | true =>
      rw [hnet, if_pos rfl] at h
      obtain ⟨rfl, rfl⟩ := Prod.mk.inj (Option.some.inj h)
      exact .inl ⟨rfl, rfl, rfl⟩
    | false =>
      rw [hnet, if_neg (by decide)] at h
      split at h
      · next x y ys hcolons =>
        obtain ⟨rfl, rfl⟩ := Prod.mk.inj (Option.some.inj h)
        have hjoin : join ":" (split ':' key) = key := join_split ':' key
        rw [hcolons] at hjoin
        refine .inr ⟨rfl, ?_⟩
        rw [← hjoin, ← String.toList_inj, toList_join_cons]
        simp [toList_join_cons]
      · cases h

theorem ne_append_append (x sep p : String) (hsep : sep ≠ "") : p ≠ x ++ sep ++ p := by
  intro h
  have hlen := congrArg (fun s => s.toList.length) h
  simp only [String.toList_append, List.length_append] at hlen
  have hpos : 0 < sep.toList.length :=
    List.length_pos_iff.2 fun hnil => hsep (String.toList_inj.1 hnil)
  omega

/-- Which keys are split as they were put together, for every VRF name without `:` and `|` and every
text `p` of a network: with `|` all of them; with `:` those without `|` that are no network
themselves, which they can only be if `p` is one of IPv6 and the name a group of an address; and
`p` alone if it has no `|` and its host bits are zero. -/
theorem splitKey_iff (env : RtEnv) {vrf p : String} {n : IpAddress.Network}
    (hcolon : ':' ∉ vrf.toList) (hbar : '|' ∉ vrf.toList)
    (hp : IpAddress.parseNetwork p = some n) :
    splitKey env.withIpaddress (vrf ++ "|" ++ p) = some (vrf, p) ∧
      (splitKey env.withIpaddress (vrf ++ ":" ++ p) = some (vrf, p) ↔
        '|' ∉ p.toList ∧ IpAddress.ipNetwork (vrf ++ ":" ++ p) = false) ∧
      (IpAddress.ipNetwork (vrf ++ ":" ++ p) = true →
        n.ipv6 = true ∧ IpAddress.parseHextet vrf ≠ none) ∧
      (splitKey env.withIpaddress p = some ("default", p) ↔ '|' ∉ p.toList ∧ n.hostBits = 0) := by
  refine ⟨splitKey_bar _ hbar, ⟨fun h => ?_, fun h => splitKey_colon hcolon hbar h.1 h.2⟩,
    fun hnet => ?_, ⟨fun h => ?_, fun h => splitKey_bare h.1 ?_⟩⟩
  · rcases splitKey_cases h with hkey | ⟨hno, ⟨-, -, hkey⟩ | ⟨hnet, -⟩⟩
    · have hlist := congrArg String.toList hkey
      simp at hlist
    · exact absurd hkey (ne_append_append vrf ":" p (by decide))
    · exact ⟨fun hmem => hno (by simp [hmem]), hnet⟩
  · by_contra hcase
    have hvrf : n.ipv6 = false ∨ IpAddress.parseHextet vrf = none := by
      rw [not_and_or, Bool.not_eq_true, not_not] at hcase
      exact hcase
    rw [IpAddress.ipNetwork, IpAddress.parseNetwork_cons hcolon hp hvrf] at hnet
    cases hnet
  · rcases splitKey_cases h with hkey | ⟨hno, ⟨hnet, -, -⟩ | ⟨-, hkey⟩⟩
    · exact absurd hkey (ne_append_append _ _ _ (by decide))
    · refine ⟨hno, ?_⟩
      have hhost : IpAddress.ipNetwork p = true := hnet
      simpa [IpAddress.ipNetwork, hp] using hhost
    · exact absurd hkey (ne_append_append _ _ _ (by decide))
  · simp [RtEnv.withIpaddress, IpAddress.ipNetwork, hp, h.2]

theorem splitKey_vrfRed :
    splitKey ipv4RtEnv.withIpaddress "VrfRed|2001:db8::/32" = some ("VrfRed", "2001:db8::/32") ∧
      splitKey ipv4RtEnv.withIpaddress "VrfRed:2001:db8::/32" = some ("VrfRed", "2001:db8::/32") ∧
      splitKey ipv4RtEnv.withIpaddress "2001:db8::/32" = some ("default", "2001:db8::/32") := by
  have hp : IpAddress.parseNetwork "2001:db8::/32" =
      some ⟨true, 0x20010db8000000000000000000000000, 32⟩ := by decide +kernel
  obtain ⟨hbar, hcolon, -, hbare⟩ :=
    splitKey_iff ipv4RtEnv (by decide : ':' ∉ "VrfRed".toList) (by decide) hp
  exact ⟨hbar, hcolon.2 ⟨by decide, by decide +kernel⟩, hbare.2 ⟨by decide, by decide⟩⟩

/-- A network with host bits is taken for a name and a network, or for nothing; and a name that is a
group of an address is taken into it. -/
theorem splitKey_hostBits :
    (IpAddress.parseNetwork "2001:db8::1/64").isSome = true ∧
      splitKey ipv4RtEnv.withIpaddress "2001:db8::1/64" = some ("2001", "db8::1/64") ∧
      (IpAddress.parseNetwork "10.0.0.1/24").isSome = true ∧
      splitKey ipv4RtEnv.withIpaddress "10.0.0.1/24" = none ∧
      (IpAddress.parseNetwork "b::/32").isSome = true ∧
      splitKey ipv4RtEnv.withIpaddress "a:b::/32" = some ("default", "a:b::/32") := by
  decide +kernel

end SonicBuildimage.Bgpcfgd
