/-
  The `staticroutebfd` daemon (`src/sonic-bgpcfgd/staticroutebfd/main.py`): its local
  tables, the two APPL_DB tables it writes, and its six event handlers.

  Model (read this before the theorems).
  * A local table is a `Dict`. The source keeps `defaultdict`s and reads them with
    `get_local_db`, which adds an empty entry for a missing key; no handler tells an empty
    entry from a missing one, so the read is `getD` with the empty value.
  * `applRoute` and `applBfd` are the entries of STATIC_ROUTE and BFD_SESSION_TABLE that
    the daemon has written and not deleted.
  * `none` is an uncaught exception. The daemon does not handle it and exits, so what the
    handler did before it is not modelled.
  * Python fixes no order for the loops over `LOCAL_NEXTHOP_TABLE` sets: the handlers take
    the order as a parameter and `Step` allows every permutation.
  * `Env` holds what the daemon takes from outside its own text: `ipaddress` and the case
    mappings of `str`.
  * Log messages, return values of the handlers (nothing reads them) and the warm start
    (`reconciliation`) are left out.
-/
import SonicBuildimage.Lib.PyStr
import SonicBuildimage.Lib.PyDict
import SonicBuildimage.Lib.Run

namespace SonicBuildimage.StaticRouteBfd

open SonicBuildimage.Lib

-- Next hops and routes are compared as pairs of texts throughout.
scoped instance lawfulBEqPair : LawfulBEq (String × String) := inferInstance

/-- A Redis hash, or the Python dictionary of its fields. -/
abbrev Data := Dict String String

/-- What the daemon takes from the Python library. -/
structure Env where
  /-- `IPv4Address(v)` does not raise. -/
  isIPv4Address : String → Bool
  /-- `IPv6Address(v)` does not raise. -/
  isIPv6Address : String → Bool
  /-- `str.lower` -/
  lower : String → String
  /-- `str.upper` -/
  upper : String → String
  lower_false : lower "false" = "false"

/-- The state of the daemon and of the APPL_DB tables it writes. -/
structure State where
  /-- `LOCAL_CONFIG_TABLE`: route key to the stored fields -/
  config : Dict String Data := []
  /-- `LOCAL_NEXTHOP_TABLE`: `vrf|ip` to the set of route keys -/
  nexthop : Dict String (List String) := []
  /-- `LOCAL_SRT_TABLE`: route key to the set of reachable `(vrf, ip)` -/
  srt : Dict String (List (String × String)) := []
  /-- `LOCAL_BFD_TABLE`: `vrf:default:ip` to the session fields -/
  bfd : Dict String Data := []
  /-- `LOCAL_BFD_PENDING_TABLE`: to `[intf, nh_ip, bfd_key]` -/
  bfdPending : Dict String (String × String × String) := []
  /-- `LOCAL_INTERFACE_TABLE`: interface name to its address, `True` for IPv4 -/
  interface : Dict String (Dict Bool String) := []
  /-- APPL_DB `STATIC_ROUTE` -/
  applRoute : Dict String Data := []
  /-- APPL_DB `BFD_SESSION_TABLE` -/
  applBfd : Dict String Data := []
deriving DecidableEq

/-! ## Keys and comma lists -/

/-- `static_route_split_key`; `none` where the source returns `False`. -/
def staticRouteSplitKey (key : String) : Option (String × String) :=
  if key = "" then none
  else match split '|' key with
    | vrf :: ipPrefix :: _ => some (vrf, ipPrefix)
    | [ipPrefix] => some ("default", ipPrefix)
    | [] => none

/-- `check_ip`: valid, is IPv4, address. -/
def checkIp (env : Env) (ip : String) : Bool × Bool × String :=
  if ip = "" then (false, false, "")
  else
    -- `ip.split('/', 1)[0]`
    let v := (split '/' ip).headD ""
    if env.isIPv4Address v then (true, true, v)
    else if env.isIPv6Address v then (true, false, v)
    else (false, false, v)

/-- The lambda `arg_list`: the stripped members of a comma list, `None` for a blank text. -/
def argList (v : String) : Option (List String) :=
  if strip v = "" then none else some ((split ',' v).map strip)

/-- `arg_list(data[f]) if f in data else None`. -/
def fieldList (data : Data) (f : String) : Option (List String) :=
  (data.get? f).bind argList

/-- `arg_list(data['bfd']) if 'bfd' in data else ["false"]`. -/
def bfdField (data : Data) : Option (List String) :=
  match data.get? "bfd" with
  | some v => argList v
  | none => some ["false"]

/-- `isFieldTrue`. -/
def isFieldTrue (env : Env) : Option (List String) → Bool
  | some [x] => env.lower x == "true"
  | _ => false

/-- The `bfd` field of a route's fields is true. -/
def bfdEnabled (env : Env) (data : Data) : Bool := isFieldTrue env (bfdField data)

/-- The key of a next hop in `LOCAL_NEXTHOP_TABLE`. -/
def nhKey (nh : String × String) : String := nh.1 ++ "|" ++ nh.2

/-- The key of the session of a next hop in `LOCAL_BFD_TABLE` and APPL_DB. -/
def bfdKey (nh : String × String) : String := nh.1 ++ ":default:" ++ nh.2

/-- The key of a route in `LOCAL_CONFIG_TABLE` and `LOCAL_SRT_TABLE`. -/
def routeCfgKey (vrf ipPrefix : String) : String := vrf ++ "|" ++ ipPrefix

/-- `route_cfg_key.replace("|", ":")`: the key of a route in APPL_DB. -/
def applKey (routeKey : String) : String := replace '|' ':' routeKey

/-! ## Table helpers -/

/-- `append_to_nh_table_entry`. -/
def appendToNhTableEntry (s : State) (nhKey ipPrefix : String) : State :=
  { s with nexthop := s.nexthop.addMember nhKey ipPrefix }

/-- `remove_from_nh_table_entry`: an entry that becomes empty is removed. -/
def removeFromNhTableEntry (s : State) (nhKey ipPrefix : String) : State :=
  { s with nexthop := s.nexthop.removeMember nhKey ipPrefix }

/-- `append_to_srt_table_entry`. -/
def appendToSrtTableEntry (s : State) (srtKey : String) (nhInfo : String × String) : State :=
  { s with srt := s.srt.addMember srtKey nhInfo }

/-- `remove_from_srt_table_entry`. -/
def removeFromSrtTableEntry (s : State) (srtKey : String) (nhInfo : String × String) : State :=
  { s with srt := s.srt.removeMember srtKey nhInfo }

/-- `set_static_route_into_appl_db`. -/
def setStaticRouteIntoApplDb (s : State) (key : String) (data : Data) : State :=
  { s with applRoute := s.applRoute.set key data }

/-- `del_static_route_from_appl_db`. -/
def delStaticRouteFromApplDb (s : State) (key : String) : State :=
  { s with applRoute := s.applRoute.erase key }

/-! ## BFD sessions -/

/-- The constants of `vars.py`. -/
def bfdMultihop : String := "false"
def bfdRxInterval : String := "50"
def bfdTxInterval : String := "50"
def bfdMultiplier : String := "3"

/-- `BFD_DEFAULT_CFG`. -/
def bfdDefaultCfg : Data := [("multihop", "false"), ("rx_interval", "50"), ("tx_interval", "50")]

/-- `bfd_entry_cfg` as it goes to APPL_DB. -/
def bfdEntryCfg (localAddr : String) : Data :=
  let cfg :=
    if [bfdRxInterval, bfdTxInterval, bfdMultiplier, bfdMultihop].all (· ≠ "") then
      (((bfdDefaultCfg.set "multihop" bfdMultihop).set "rx_interval" bfdRxInterval).set
        "tx_interval" bfdTxInterval).set "multiplier" bfdMultiplier
    else bfdDefaultCfg
  cfg.set "local_addr" localAddr

/-- Write a new session to APPL_DB and to `LOCAL_BFD_TABLE` (lines 229 to 239 and 484 to
    494). -/
def createBfdSession (s : State) (bfdKey localAddr : String) : State :=
  { s with
    applBfd := s.applBfd.set bfdKey (bfdEntryCfg localAddr)
    bfd := s.bfd.set bfdKey ((bfdEntryCfg localAddr).set "static_route" "true") }

/-- Take the route out of the entry of one next hop; the session goes with the last route
    (lines 456 to 460 and 529 to 534). -/
def releaseNexthop (routeKey : String) (s : State) (nh : String × String) : State :=
  let s := removeFromNhTableEntry s (nhKey nh) routeKey
  if s.nexthop.getD (nhKey nh) [] = [] then
    { s with bfd := s.bfd.erase (bfdKey nh), applBfd := s.applBfd.erase (bfdKey nh) }
  else s

/-- `find_interface_ip`. -/
def findInterfaceIp (env : Env) (s : State) (ifName ipExample : String) : Option String :=
  match checkIp env ipExample with
  | (false, _, _) => none
  | (true, isIpv4, _) =>
    let ip := (s.interface.getD ifName []).getD isIpv4 ""
    if ip = "" then none else some ip

/-! ## Publishing a route -/

/-- `lst[0] if lst else ""` for the rest of a list; `none` past its end. -/
def item : Option (List String) → Option String
  | none => some ""
  | some l => l.head?

/-- The members of the five lists at one index of a route. -/
structure Row where
  blackhole : String
  nexthop : String
  ifname : String
  distance : String
  nexthopVrf : String
deriving DecidableEq

/-- The loop of `reconstruct_static_route_config` over the indices of `nh_list`: the rows
    whose next hop is reachable. A list that is too short raises at a kept index only,
    `nh_vrf_list` at every index. -/
def reachableRows (reachable : List (String × String)) :
    List String → List String → Option (List String) → Option (List String) →
      Option (List String) → Option (List Row)
  | [], _, _, _, _ => some []
  | _ :: _, [], _, _, _ => none
  | nh :: nhList, vrf :: nhVrfList, bkhList, intfList, distList => do
    let rest ← reachableRows reachable nhList nhVrfList (bkhList.map List.tail)
      (intfList.map List.tail) (distList.map List.tail)
    if (vrf, nh) ∈ reachable then
      let bkh ← item bkhList
      let intf ← item intfList
      let dist ← item distList
      return ⟨bkh, nh, intf, dist, vrf⟩ :: rest
    else
      return rest

/-- `xxx_candidate[1:]` after `xxx_candidate += "," + x` for each kept member. -/
def candidate (column : List String) : String :=
  String.ofList ((column.foldl (fun acc x => acc ++ "," ++ x) "").toList.drop 1)

/-- The value of one field of `new_config`, from the rows that are kept. -/
def newConfigField (rows : List Row) (key value : String) : Option String :=
  if key = "bfd" then none
  else if key = "bfd_nh_hold" then none
  else if key = "blackhole" then some (candidate (rows.map Row.blackhole))
  else if key = "nexthop" then some (candidate (rows.map Row.nexthop))
  else if key = "ifname" then some (candidate (rows.map Row.ifname))
  else if key = "distance" then some (candidate (rows.map Row.distance))
  else if key = "nexthop-vrf" then some (candidate (rows.map Row.nexthopVrf))
  else some value

/-- `reconstruct_static_route_config`. -/
def reconstructStaticRouteConfig (originalConfig : Data)
    (reachableNexthops : List (String × String)) : Option Data := do
  let nhList ← fieldList originalConfig "nexthop"
  let nhVrfList ← fieldList originalConfig "nexthop-vrf"
  let rows ← reachableRows reachableNexthops nhList nhVrfList
    (fieldList originalConfig "blackhole") (fieldList originalConfig "ifname")
    (fieldList originalConfig "distance")
  let newConfig := originalConfig.filterMapValues (newConfigField rows)
  return newConfig.set "expiry" "false"

/-- Write the reachable part of a route to APPL_DB (lines 346 and 347, 667 and 668, 684 and
    685, 703 and 704). -/
def publish (s : State) (routeKey : String) : Option State := do
  let newConfig ← reconstructStaticRouteConfig (s.config.getD routeKey [])
    (s.srt.getD routeKey [])
  return setStaticRouteIntoApplDb s (applKey routeKey) newConfig

/-- Delete the route from APPL_DB when nothing is reachable, else publish it (lines 679 to
    685 and 698 to 704). -/
def withdrawOrPublish (s : State) (routeKey : String) : Option State :=
  if s.srt.getD routeKey [] = [] then some (delStaticRouteFromApplDb s (applKey routeKey))
  else publish s routeKey

/-- The state of a session is UP. -/
def sessionUp (env : Env) (session : Data) : Bool :=
  match session.get? "state" with
  | some state => env.upper state == "UP"
  | none => false

/-- The `(nh_vrf, nh_ip)` of a stored route, index by index; `none` where `nh_list` is
    `None` or `nh_vrf_list[index]` raises. -/
def nexthopPairs (data : Data) : Option (List (String × String)) := do
  let nhList ← fieldList data "nexthop"
  let nhVrfList ← fieldList data "nexthop-vrf"
  if nhList.length ≤ nhVrfList.length then return nhVrfList.zip nhList else none

/-- `refresh_active_nh`. -/
def refreshActiveNh (env : Env) (s : State) (routeKey : String) : Option State := do
  let data := s.config.getD routeKey []
  let pairs ← nexthopPairs data
  let up := pairs.filter fun nh => sessionUp env (s.bfd.getD (bfdKey nh) [])
  let s := up.foldl (fun s nh => appendToSrtTableEntry s routeKey nh) s
  -- do not write to appl_db if no nexthop is reachable
  if up = [] then
    return s
  else
    publish { s with config := s.config.set routeKey (data.set "bfd_nh_hold" "false") } routeKey

/-! ## Static route events -/

/-- `static_route_split_key` and `check_ip` of the prefix; `none` where the handlers of
    static routes return at once. -/
def routeOf (env : Env) (key : String) : Option (String × String) := do
  let (vrf, ipPrefix) ← staticRouteSplitKey key
  if (checkIp env ipPrefix).1 then return (vrf, ipPrefix) else none

/-- The `(nh_vrf, nh_ip)` that the deletion of a route walks through: none unless both lists
    are there and have one length. -/
def storedPairs (data : Data) : List (String × String) :=
  match fieldList data "nexthop", fieldList data "nexthop-vrf" with
  | some nhList, some nhVrfList =>
    if nhList.length = nhVrfList.length then nhVrfList.zip nhList else []
  | _, _ => []

/-- `static_route_del_handler` from line 512 on. -/
def removeRoute (env : Env) (s : State) (routeKey : String) (redisDel : Bool) : State :=
  let data := s.config.getD routeKey []
  if data = [] then s
  else
    let s := if bfdEnabled env data then (storedPairs data).foldl (releaseNexthop routeKey) s else s
    -- do not delete it from appl_db if the route is not bfd enabled
    let s := if bfdEnabled env data then delStaticRouteFromApplDb s (applKey routeKey) else s
    let s := { s with srt := s.srt.erase routeKey }
    if redisDel then { s with config := s.config.erase routeKey } else s

/-- `static_route_del_handler`. -/
def staticRouteDelHandler (env : Env) (s : State) (key : String) (redisDel : Bool) : State :=
  match routeOf env key with
  | none => s
  | some (vrf, ipPrefix) => removeRoute env s (routeCfgKey vrf ipPrefix) redisDel

/-- `handle_bfd_change`. -/
def handleBfdChange (env : Env) (s : State) (cfgKey : String) (data : Data)
    (toBfdEnable : Bool) : State :=
  match staticRouteSplitKey cfgKey with
  | none => s
  | some (vrf, ipPrefix) =>
    let key := vrf ++ ":" ++ ipPrefix
    if toBfdEnable then
      setStaticRouteIntoApplDb s key ((data.set "bfd" "false").set "expiry" "false")
    else
      staticRouteDelHandler env (delStaticRouteFromApplDb s key) cfgKey false

/-- `nh_vrf_list` after the preprocessing of empty members; the outer `none` is the
    `TypeError` of `len(nh_list)`. -/
def nhVrfListOf (vrf : String) (data : Data) : Option (List String) :=
  match fieldList data "nexthop-vrf" with
  | none => (fieldList data "nexthop").map fun nhList => List.replicate nhList.length vrf
  | some nhVrfList => some (nhVrfList.map fun x => if x = "" then vrf else x)

/-- A next hop of a route: the triple the update of a route is compared by. -/
structure Nexthop where
  vrf : String
  ifname : String
  ip : String
deriving DecidableEq

/-- `(nh_vrf, nh_ip)`. -/
def Nexthop.pair (nh : Nexthop) : String × String := (nh.vrf, nh.ip)

/-- `list(zip(nh_vrf_list, intf_list, nh_list))`. -/
def zipNexthops : List String → List String → List String → List Nexthop
  | vrf :: vrfs, intf :: intfs, ip :: ips => ⟨vrf, intf, ip⟩ :: zipNexthops vrfs intfs ips
  | _, _, _ => []

/-- The check of lines 432 and 433: the next hops of an update whose lists match. -/
def matchedNexthops (data : Data) (nhVrfList : List String) : Option (List Nexthop) :=
  match fieldList data "ifname", fieldList data "nexthop" with
  | some intfList, some nhList =>
    if intfList.length ≠ nhList.length ∨ intfList.length ≠ nhVrfList.length then none
    else some (zipNexthops nhVrfList intfList nhList)
  | _, _ => none

/-- `nh_key_list_exist`; `none` is the `TypeError` of `zip` over `None`. A missing
    `nexthop-vrf` list has one `vrf` for each new next hop, as in the source. -/
def existingNexthops (vrf : String) (curData : Data) (new : List Nexthop) :
    Option (List Nexthop) := do
  let nhVrfList :=
    match fieldList curData "nexthop-vrf" with
    | some nhVrfList => nhVrfList
    | none => List.replicate new.length vrf
  let intfList ← fieldList curData "ifname"
  let nhList ← fieldList curData "nexthop"
  return zipNexthops nhVrfList intfList nhList

/-- One iteration of lines 450 to 460: a next hop that the update no longer lists. -/
def removeDeletedNexthop (routeKey : String) (new : List Nexthop) (s : State) (nh : Nexthop) :
    State :=
  if nh ∈ new then s
  else releaseNexthop routeKey (removeFromSrtTableEntry s routeKey nh.pair) nh.pair

/-- One iteration of lines 463 to 496: find or create the session of a listed next hop. -/
def addNexthop (env : Env) (routeKey : String) (s : State) (nh : Nexthop) : State :=
  let bfdSession := s.bfd.getD (bfdKey nh.pair) []
  if bfdSession ≠ [] then
    appendToNhTableEntry
      { s with bfd := s.bfd.set (bfdKey nh.pair) (bfdSession.set "static_route" "true") }
      (nhKey nh.pair) routeKey
  else if s.nexthop.getD (nhKey nh.pair) [] = [] then
    match findInterfaceIp env s nh.ifname nh.ip with
    | none =>
      -- interface IP is not available yet, put this request to cache
      appendToNhTableEntry
        { s with bfdPending := s.bfdPending.set (nh.ifname ++ "_" ++ bfdKey nh.pair)
                  (nh.ifname, nh.ip, bfdKey nh.pair) }
        (nhKey nh.pair) routeKey
    | some localAddr =>
      appendToNhTableEntry (createBfdSession s (bfdKey nh.pair) localAddr) (nhKey nh.pair) routeKey
  else appendToNhTableEntry s (nhKey nh.pair) routeKey

/-- `cur_data and cur_bfd_enabled`: the route is stored with bfd enabled. -/
def curBfdEnabled (env : Env) (s : State) (routeKey : String) : Prop :=
  s.config.getD routeKey [] ≠ [] ∧ bfdEnabled env (s.config.getD routeKey [])

instance (env : Env) (s : State) (routeKey : String) : Decidable (curBfdEnabled env s routeKey) :=
  inferInstanceAs (Decidable (_ ∧ _))

/-- Lines 438 to 498: an accepted update of a route with bfd enabled. -/
def updateBfdRoute (env : Env) (s : State) (vrf routeKey : String) (data : Data)
    (new : List Nexthop) : Option State := do
  let s ←
    if curBfdEnabled env s routeKey then
      (existingNexthops vrf (s.config.getD routeKey []) new).map fun exist =>
        exist.foldl (removeDeletedNexthop routeKey new) s
    else some s
  let s := { s with config := s.config.set routeKey data }
  let s := new.foldl (addNexthop env routeKey) s
  refreshActiveNh env s routeKey

/-- `data['nexthop'] = nh.lower()`. -/
def lowerNexthop (env : Env) (data : Data) : Data :=
  match data.get? "nexthop" with
  | some nh => data.set "nexthop" (env.lower nh)
  | none => data

/-- The fields of an update as they will be stored, with the `nh_vrf_list` in use. -/
def prepare (vrf hold : String) (data : Data) : Option (Data × List String) := do
  let data := data.set "bfd_nh_hold" hold
  let nhVrfList ← nhVrfListOf vrf data
  return (data.set "nexthop-vrf" (join "," nhVrfList), nhVrfList)

/-- The route is stored with bfd disabled: an update with bfd enabled is a toggle. -/
def curBfdDisabled (env : Env) (s : State) (routeKey : String) : Prop :=
  s.config.getD routeKey [] ≠ [] ∧ ¬ bfdEnabled env (s.config.getD routeKey [])

instance (env : Env) (s : State) (routeKey : String) :
    Decidable (curBfdDisabled env s routeKey) :=
  inferInstanceAs (Decidable (_ ∧ _))

/-- `bfd_nh_hold` of an update with bfd enabled. -/
def holdOf (env : Env) (s : State) (routeKey : String) : String :=
  if curBfdDisabled env s routeKey then "true" else "false"

/-- `static_route_set_handler`. -/
def staticRouteSetHandler (env : Env) (s : State) (key : String) (data : Data) :
    Option State :=
  if data = [] then some s
  else match routeOf env key with
  | none => some s
  | some (vrf, ipPrefix) =>
    let routeKey := routeCfgKey vrf ipPrefix
    let data := lowerNexthop env data
    if ¬ bfdEnabled env data then do
      let s := if curBfdEnabled env s routeKey then handleBfdChange env s key data false else s
      let (data, _) ← prepare vrf "false" data
      -- skip if bfd is not enabled, but store it to detect a change of the bfd field
      return { s with config := s.config.set routeKey (data.set "bfd" "false") }
    else do
      let (stored, nhVrfList) ← prepare vrf (holdOf env s routeKey) data
      let s := if curBfdDisabled env s routeKey then handleBfdChange env s key data true else s
      match matchedNexthops stored nhVrfList with
      | none => return s
      | some new => updateBfdRoute env s vrf routeKey stored new

/-! ## Interface events -/

/-- `get_ip_from_key`; `none` where the address is not valid. -/
def getIpFromKey (env : Env) (key : String) : Option (Bool × String × String) :=
  match split '|' key with
  | ifName :: value :: _ =>
    match checkIp env value with
    | (true, isIpv4, ip) => some (isIpv4, ifName, ip)
    | _ => none
  | _ => none

/-- One iteration of `update_bfd_pending`, with `del_list`. -/
def updateBfdPendingItem (env : Env) (ifName : String) (acc : State × List String)
    (entry : String × String × String × String) : State × List String :=
  let (k, intf, nhIp, bfdKey) := entry
  if intf = ifName then
    match findInterfaceIp env acc.1 intf nhIp with
    | none => acc
    | some localAddr => (createBfdSession acc.1 bfdKey localAddr, acc.2 ++ [k])
  else acc

/-- `update_bfd_pending`. -/
def updateBfdPending (env : Env) (s : State) (ifName : String) : State :=
  let (s, delList) := s.bfdPending.foldl (updateBfdPendingItem env ifName) (s, [])
  { s with bfdPending := delList.foldl Dict.erase s.bfdPending }

/-- `interface_set_handler`. -/
def interfaceSetHandler (env : Env) (s : State) (key : String) : State :=
  match getIpFromKey env key with
  | none => s
  | some (isIpv4, ifName, ip) =>
    let value := (s.interface.getD ifName []).set isIpv4 ip
    updateBfdPending env { s with interface := s.interface.set ifName value } ifName

/-- `interface_del_handler`. -/
def interfaceDelHandler (env : Env) (s : State) (key : String) : State :=
  match getIpFromKey env key with
  | none => s
  | some (isIpv4, ifName, _) =>
    let value := s.interface.getD ifName []
    if value = [] then s
    else { s with interface := s.interface.set ifName (value.set isIpv4 "") }

/-! ## BFD state events -/

/-- `bfd_state_split_key`; `none` where the caller cannot unpack three parts. -/
def bfdStateSplitKey (key : String) : Option (String × String × String) :=
  if key.toList.count '|' < 2 then some ("default", "default", key)
  else match split '|' key with
    | [vrf, intf, peerIp] => some (vrf, intf, peerIp)
    | _ => none

/-- One iteration of the UP branch of `bfd_state_set_handler`. -/
def bfdStateUp (nh : String × String) (s : State) (routeKey : String) : Option State :=
  if nh ∈ s.srt.getD routeKey [] then some s
  else
    let s := appendToSrtTableEntry s routeKey nh
    -- exit "hold" state when any BFD session becomes UP
    let data := (s.config.getD routeKey []).set "bfd_nh_hold" "false"
    publish { s with config := s.config.set routeKey data } routeKey

/-- One iteration of the DOWN branch; reading a missing `bfd_nh_hold` raises. -/
def bfdStateDown (nh : String × String) (s : State) (routeKey : String) : Option State := do
  let hold ← (s.config.getD routeKey []).get? "bfd_nh_hold"
  if hold = "true" then
    return s
  else
    withdrawOrPublish (removeFromSrtTableEntry s routeKey nh) routeKey

/-- `bfd_state_set_handler`. -/
def bfdStateSetHandler (env : Env) (order : List String → List String) (s : State)
    (key : String) (data : Data) : Option State := do
  let (vrf, intf, peerIp) ← bfdStateSplitKey key
  let bfdKey := vrf ++ ":" ++ intf ++ ":" ++ peerIp
  let bfdSession := s.bfd.getD bfdKey []
  if bfdSession = [] then
    return s
  else
    let state := data.getD "state" "DOWN"
    let s := { s with bfd := s.bfd.set bfdKey (bfdSession.set "state" state) }
    let prefixes := order (s.nexthop.getD (nhKey (vrf, peerIp)) [])
    if env.upper state = "UP" then prefixes.foldlM (bfdStateUp (vrf, peerIp)) s
    else if env.upper state = "DOWN" then prefixes.foldlM (bfdStateDown (vrf, peerIp)) s
    else return s

/-- `bfd_state_del_handler`: it reads neither `LOCAL_BFD_TABLE` nor the hold flag. -/
def bfdStateDelHandler (order : List String → List String) (s : State) (key : String) :
    Option State := do
  let (vrf, _, peerIp) ← bfdStateSplitKey key
  let prefixes := order (s.nexthop.getD (nhKey (vrf, peerIp)) [])
  prefixes.foldlM
    (fun s routeKey =>
      withdrawOrPublish (removeFromSrtTableEntry s routeKey (vrf, peerIp)) routeKey)
    s

/-! ## Events and runs -/

/-- A message of one of the tables the daemon subscribes to. -/
inductive Event where
  | interfaceSet (key : String)
  | interfaceDel (key : String)
  | staticRouteSet (key : String) (data : Data)
  | staticRouteDel (key : String)
  | bfdStateSet (key : String) (data : Data)
  | bfdStateDel (key : String)
deriving DecidableEq

/-- The three callbacks. -/
def handle (env : Env) (order : List String → List String) (s : State) : Event → Option State
  | .interfaceSet key => some (interfaceSetHandler env s key)
  | .interfaceDel key => some (interfaceDelHandler env s key)
  | .staticRouteSet key data => staticRouteSetHandler env s key data
  | .staticRouteDel key => some (staticRouteDelHandler env s key true)
  | .bfdStateSet key data => bfdStateSetHandler env order s key data
  | .bfdStateDel key => bfdStateDelHandler order s key

/-- One event, handled without an exception, in some order of the loops over sets. -/
def Step (env : Env) (s : State) (e : Event) (s' : State) : Prop :=
  ∃ order, IterOrder order ∧ handle env order s e = some s'

/-- The daemon before the first event. -/
def init : State := {}

theorem step_of_handle {env : Env} (s : State) (e : Event) (s' : State)
    (h : handle env id s e = some s') : Step env s e s' :=
  ⟨id, iterOrder_id, h⟩

/-! ## Concrete runs -/

/-- A decimal number up to 255 without a leading zero. -/
def isOctet (s : String) : Bool :=
  s ≠ "" && s.toList.all Char.isDigit && s.toList.length ≤ 3 &&
    (s.toList.head? ≠ some '0' || s = "0") &&
    s.toList.foldl (fun n c => 10 * n + (c.toNat - 48)) 0 ≤ 255

/-- IPv4 addresses and the ASCII case mappings; no text is taken for an IPv6 address. -/
def ipv4Env : Env where
  isIPv4Address v := (split '.' v).length = 4 && (split '.' v).all isOctet
  isIPv6Address _ := false
  lower s := String.ofList (s.toList.map Char.toLower)
  upper s := String.ofList (s.toList.map Char.toUpper)
  lower_false := by decide

/-- The only next hop of a route comes up. -/
def upRun : List Event :=
  [.interfaceSet "Ethernet0|10.0.0.0/31",
    .staticRouteSet "1.1.1.0/24"
      [("nexthop", "10.0.0.1"), ("ifname", "Ethernet0"), ("bfd", "true")],
    .bfdStateSet "default|default|10.0.0.1" [("state", "Up")]]

end SonicBuildimage.StaticRouteBfd
