/-
  The tables BGP_GLOBALS and STATIC_ROUTE of frrcfgd.py with their key maps, and the rows as
  `BGPConfigDaemon` caches them.

  Only the fields of the key maps are given, not the texts of the commands (see KeyMap).  A row
  that is set gets an operation for each field (`addOpToData`), and the fields that were
  applied are entered in the cache (`updateCacheField`).
-/
import SonicBuildimage.Frrcfgd.KeyMap

namespace SonicBuildimage.Frrcfgd

open SonicBuildimage.Lib

/-- Tables of `table_handler_list`. -/
inductive Table where
  | bgpGlobals
  | staticRoute
  deriving DecidableEq

/-! ## Key maps -/

/-- `'a'` -/
def req (a : String) : Token := ⟨0, [a], none⟩

/-- `'+a'` -/
def opt (a : String) : Token := ⟨1, [a], none⟩

/-- `'++a'` -/
def mid (a : String) : Token := ⟨2, [a], none⟩

/-- An entry of one field. -/
def one (a : String) : DbField := ⟨[req a], false⟩

/-- An entry with a list of fields. -/
def fields (ts : List Token) : DbField := ⟨ts, false⟩

def globalKeyMap : KeyMap :=
  [one "router_id", fields [req "load_balance_mp_relax", opt "as_path_mp_as_set"],
    one "always_compare_med", one "external_compare_router_id", one "ignore_as_path_length",
    one "graceful_restart_enable", one "gr_restart_time", one "gr_stale_routes_time",
    one "gr_preserve_fw_state", one "log_nbr_state_changes", one "rr_cluster_id",
    one "rr_allow_out_policy", one "disable_ebgp_connected_rt_check",
    one "fast_external_failover", one "network_import_check", one "graceful_shutdown",
    one "rr_clnt_to_clnt_reflection", one "max_dynamic_neighbors", one "read_quanta",
    one "write_quanta", one "coalesce_time", one "route_map_process_delay",
    one "deterministic_med", one "med_confed", one "med_missing_as_worst",
    one "compare_confed_as_path", one "default_ipv4_unicast", one "default_local_preference",
    one "default_show_hostname", one "default_shutdown", one "default_subgroup_pkt_queue_max",
    fields [req "max_med_time", opt "max_med_val"], fields [req "max_delay", opt "establish_wait"],
    one "confed_id", one "confed_peers", fields [req "keepalive", req "holdtime"],
    fields [req "max_med_admin", opt "max_med_admin_val"]]

/-- An entry of `static_route_map`. -/
def staticRouteEntry (af : String) : DbField :=
  fields [⟨0, ["ip_prefix"], some af⟩, mid "blackhole", mid "nexthop", mid "ifname", mid "track",
    mid "tag", mid "distance", mid "nexthop-vrf"]

/-! ## Other facts about tables -/

/-- The sets of fields that a table's handler treats together (`comb_attr_list`). -/
def combAttrList : Table → List (List String)
  | .bgpGlobals => [["keepalive", "holdtime"]]
  | .staticRoute => []

inductive Af where
  | inet
  | inet6
  deriving DecidableEq

/-! ## Rows and the cache -/

/-- The operation of a field that the new row has. -/
def opFor (cached : Row) (e : String × Val) : Op :=
  match Dict.get? cached e.1 with
  | some c => if e.2 = c then .none else .update
  | none => .add

/-- The loop over a set of fields that are treated together. -/
def combine (data : Data) (keySet : List String) : Data :=
  if keySet.all fun k => Dict.get? data k ≠ none then
    let ops := keySet.filterMap fun k => (Dict.get? data k).map CachedDataWithOp.op
    let op := ([Op.delete, .add, .update].find? fun o => ops.contains o).getD .none
    data.map fun e => if e.1 ∈ keySet then (e.1, { e.2 with op := op }) else e
  else data.filter fun e => e.1 ∉ keySet

/-- `__add_op_to_data` -/
def addOpToData (cached : Row) (data : Row) (combAttrs : List (List String)) : Data :=
  let given := data.map fun e => (e.1, CachedDataWithOp.new e.2 (opFor cached e))
  let gone := (cached.filter fun e => Dict.get? data e.1 = none).map fun e =>
    (e.1, CachedDataWithOp.new e.2 .delete)
  combAttrs.foldl combine (given ++ gone)

/-- One field in `__update_cache_data`. -/
def updateCacheField (cached : Row) (e : String × CachedDataWithOp) : Row :=
  if e.2.status = .fail then cached
  else
    match e.2.op with
    | .none => cached
    | .add => Dict.set cached e.1 e.2.data
    | .update => Dict.set cached e.1 e.2.data
    | .delete => Dict.erase cached e.1

/-- Mark some fields as applied. -/
def succIf (p : String → Bool) (data : Data) : Data :=
  data.map fun e => if p e.1 then (e.1, { e.2 with status := .succ }) else e

/-- Mark all fields as deleted and applied (`__delete_vrf_asn`). -/
def forceDelete (data : Data) : Data :=
  data.map fun e => (e.1, { e.2 with op := .delete, status := .succ })

def defaultVrf : String := "default"

end SonicBuildimage.Frrcfgd
