/-
  The event checkers of dhcp_db_monitor.py: which changes of CONFIG_DB the daemons of the DHCP
  utilities look at.

  Model.  A checker subscribes to a table (`Lib.Feed`).  `check_update_event` takes all
  notifications and says whether one of them is of interest; it stops looking at the first that
  is, but takes the others too.  Each checker has its own `_process_check`, which is given what
  the daemon has kept of its last refresh.  `none` is an exception.

  `checkUpdateEvent_eq_false` says what a check without interest means: none of the deliveries
  was of interest.

  Not modelled: the checkers of dhcpservd, the logs, and the parameters that are missing from a
  snapshot.
-/
import SonicBuildimage.Lib.Feed
import SonicBuildimage.Lib.PyStr

namespace SonicBuildimage.DhcpUtilities

open SonicBuildimage.Lib

/-! ## Addresses -/

structure IpAddr where
  version : Nat
  value : Nat
  deriving DecidableEq

/-- The addresses of a network are those from `first` to `last`. -/
structure IpNet where
  version : Nat
  first : Nat
  last : Nat
  deriving DecidableEq

/-- What is used of the module `ipaddress`; `none` is a `ValueError`. -/
structure IpModule where
  ipAddress : String → Option IpAddr
  /-- `ip_network(…, strict=False)` -/
  ipNetwork : String → Option IpNet
  strAddr : IpAddr → String
  strNet : IpNet → String
  /-- the version of a network is that of the address in front of the slash -/
  version_network : ∀ s net, ipNetwork s = some net →
    ∃ addr, ipAddress ((split '/' s).headD "") = some addr ∧ addr.version = net.version

/-! ## Rows -/

/-- A row of `DHCP_SERVER_IPV4`. -/
structure ServerRow where
  state : Option String
  mode : Option String
  gateway : Option String
  leaseTime : Option String
  customizedOptions : Option (List String)
  deriving DecidableEq

def ServerRow.enabled (row : ServerRow) : Bool := row.state = some "enabled"

/-! ## `_process_check` -/

section ProcessCheck

variable (enabled : List String)

/-- `DhcpServerTableIntfEnablementEventChecker` -/
def intfEnablementCheck (key : String) : FeedOp ServerRow → Bool
  | .set row =>
    if key ∈ enabled then row.state = some "disabled" else row.state = some "enabled"
  | .del => key ∈ enabled

/-- `VlanTableEventChecker` -/
def keyCheck (key : String) : Bool := key ∈ enabled

/-- `VlanIntfTableEventChecker` -/
def vlanIntfCheck (ip : IpModule) (key : String) : Option Bool :=
  match split '|' key with
  | vlanName :: address :: _ =>
    if vlanName ∈ enabled then
      (ip.ipAddress ((split '/' address).headD "")).map fun a => decide (a.version = 4)
    else some false
  | _ => some false

end ProcessCheck

/-! ## `check_update_event` -/

def checkUpdateEvent {ν : Type} (processCheck : String → FeedOp ν → Option Bool) :
    List (String × FeedOp ν) → Option Bool
  | [] => some false
  | (key, op) :: events =>
    match processCheck key op with
    | some true => some true
    | some false => checkUpdateEvent processCheck events
    | none => none

theorem checkUpdateEvent_eq_false {ν : Type} {processCheck : String → FeedOp ν → Option Bool}
    {events : List (String × FeedOp ν)} (h : checkUpdateEvent processCheck events = some false) :
    ∀ e ∈ events, processCheck e.1 e.2 = some false := by
  induction events with
  | nil => exact fun e he => absurd he List.not_mem_nil
  | cons e events ih =>
    rw [checkUpdateEvent] at h
    split at h
    · cases h
    · next hcheck =>
      exact List.forall_mem_cons.2 ⟨hcheck, ih h⟩
    · cases h

/-- A check without interest, of a table whose keys decide: none of the keys is of interest. -/
theorem touched_of_check {ν : Type} {f : Feed String ν} (hf : f.Reflects)
    {processCheck : String → FeedOp ν → Option Bool} {fresh : Nat → Bool}
    (h : checkUpdateEvent processCheck (f.deliver fresh) = some false) :
    ∀ k ∈ f.touched, processCheck k (f.current k) = some false :=
  fun _ hk => checkUpdateEvent_eq_false h _ (Feed.mem_deliver hf hk fresh)

end SonicBuildimage.DhcpUtilities
