/-
  Confederation peers: `hdl_confed_peers`, the branch BGP_GLOBALS of `__update_bgp` and
  `__delete_vrf_asn` of frrcfgd.py, and the set of peers that FRR has for each VRF.

  Model.  A message has the row of a VRF, or none if it is deleted, and the results of all the
  commands it will run.  Its fields go through `run_command` (`KeyMap`); the commands of
  `confed_peers` come from `hdl_confed_peers`, those of the other fields are a parameter.  FRR takes
  the commands that succeed, and forgets the peers of a VRF when its instance is removed.  A peer
  is one word.

  `__delete_vrf_asn` does not touch `bgp_confed_peers`: the daemon compares the peers of a new
  instance with those of the old one.  A change is up to two commands, and the result of
  `run_command` says whether any entry succeeded: if the second command fails, or the first one
  while another field succeeds, the two sets differ too (`peers_differ`).

  Proved: `confedPeers_of_run`.  In every run in which an instance is removed only when the daemon
  has no peers for it, and in which the commands for the peers all succeed, or none of them while
  `run_command` reports a failure, the sets of the daemon and of FRR are the same.
-/
import SonicBuildimage.Frrcfgd.Tables
import SonicBuildimage.Lib.Run

namespace SonicBuildimage.Frrcfgd.ConfedPeers

open SonicBuildimage.Lib

/-! ## Commands for peers -/

/-- A command for peers: whether they are added, and which. -/
def readPeers : List String → Option (Bool × List String)
  | "no" :: "bgp" :: "confederation" :: "peers" :: peers => some (false, peers)
  | "bgp" :: "confederation" :: "peers" :: peers => some (true, peers)
  | _ => none

/-- What a command does to the peers in FRR. -/
def applyCommand (set : List String) (c : Command) : List String :=
  match readPeers c.tokens with
  | some (true, peers) => peers.foldl setAdd set
  | some (false, peers) => peers.foldl setDiscard set
  | none => set

structure Env where
  /-- the commands of the other fields -/
  getCommand : GetCommand
  /-- which are about something else -/
  others : ∀ f op upper vals cs, getCommand f op upper vals = some cs →
    ∀ c ∈ cs, readPeers c.tokens = none
  /-- the order of a loop over a set -/
  order : List String → List String
  order_iter : IterOrder order

/-- `{no:no-prefix}bgp confederation peers {}`, unless the list is empty -/
def peersCommand (enabled : Bool) (peers : List String) : List Command :=
  if peers = [] then []
  else [⟨(if enabled then [] else ["no"]) ++ ["bgp", "confederation", "peers"] ++ peers, false⟩]

/-- The loop of `hdl_confed_peers`: what is left of the set, and what is added. -/
def diffPeers (s : List String × List String) (peer : String) : List String × List String :=
  if peer ∉ s.1 then (s.1, s.2 ++ [peer]) else (setDiscard s.1 peer, s.2)

/-- `hdl_confed_peers`: the commands and `upd_confed_peers` -/
def hdlConfedPeers (env : Env) (upd : List String) (op : Op) (peers : List String) :
    List Command × List String :=
  if op = .delete then (peersCommand false (env.order upd), [])
  else
    let r := peers.foldl diffPeers (upd, [])
    (peersCommand false (env.order r.1) ++ peersCommand true r.2, peers.foldl setAdd [])

/-- A loop over the value of the field, of which a text gives its characters. -/
def peersOf : Val → List String
  | .list l => l
  | .str t => t.toList.map String.singleton

/-- `args[0]` -/
def firstArg : CmdVals → List String
  | .tuple (v :: _) => peersOf v
  | _ => []

def confedEntry : DbField := one "confed_peers"

/-- The functions behind the entries, where the daemon has the peers `upd`. -/
def commandOf (env : Env) (upd : List String) : GetCommand := fun f op upper vals =>
  if f = confedEntry then some (hdlConfedPeers env upd op (firstArg vals)).1
  else env.getCommand f op upper vals

/-- `upd_confed_peers` after `run_command`. -/
def updAfter (env : Env) (upd : List String) (data : Data) : List String :=
  (handlerCalls data confedEntry [some "confed_peers"]).foldl
    (fun upd c => (hdlConfedPeers env upd c.2 (firstArg c.1)).2) upd

/-! ## Messages -/

structure State where
  /-- the rows of BGP_GLOBALS in `table_data_cache` -/
  cache : Dict String Row
  bgpAsn : Dict String Val
  metadataAsn : Option Val
  /-- `bgp_confed_peers` -/
  confedPeers : Dict String (List String)
  /-- the peers in FRR -/
  frr : Dict String (List String)

/-- `__get_vrf_asn` -/
def State.getVrfAsn (s : State) (vrf : String) : Option Val :=
  match s.bgpAsn.get? vrf with
  | some asn => some asn
  | none => if vrf = defaultVrf then s.metadataAsn else none

/-- The peers of the daemon, and those of FRR. -/
def State.peers (s : State) (vrf : String) : List String := s.confedPeers.getD vrf []

def State.inFrr (s : State) (vrf : String) : List String := s.frr.getD vrf []

structure Message where
  vrf : String
  row : Option Row
  results : Nat → Bool

/-- `__delete_vrf_asn` -/
def deleteVrfAsn (s : State) (v : Vty) (vrf : String) (data : Data) : State × Data :=
  if vrf ≠ defaultVrf ∧ s.bgpAsn.get? vrf = none then (s, data)
  else
    match s.getVrfAsn vrf with
    | none => (s, data)
    | some _ =>
      if v.next then
        ({ s with bgpAsn := s.bgpAsn.erase vrf, frr := s.frr.set vrf [] }, forceDelete data)
      else (s, data)

/-- The results of `run_command` for BGP_GLOBALS: its own, and the commands that succeeded. -/
def runFields (env : Env) (s : State) (v : Vty) (vrf : String) (data : Data) :
    RunResult × List Command :=
  (runCommand (commandOf env (s.peers vrf)) globalKeyMap [] data v,
    runLog (commandOf env (s.peers vrf)) [] globalKeyMap ⟨data, false, 0, v⟩)

/-- The part of a row behind `local_asn`. -/
def runGlobals (env : Env) (s : State) (v : Vty) (vrf : String) (data : Data) : State × Data :=
  match s.getVrfAsn vrf with
  | none => (s, data)
  | some _ =>
    let r := runFields env s v vrf data
    let frr := s.frr.set vrf (r.2.foldl applyCommand (s.inFrr vrf))
    if r.1.ret ∧ data.get? "confed_peers" ≠ none then
      ({ s with
          frr := frr
          confedPeers := s.confedPeers.set vrf (updAfter env (s.peers vrf) data) },
        r.1.data)
    else ({ s with frr := frr }, r.1.data)

/-- What is done with a row: nothing, the instance is removed, or the fields are run. -/
inductive Action where
  | ignore
  | remove
  | run (s : State) (v : Vty) (data : Data)

/-- The beginning of the branch BGP_GLOBALS, with the command for `local_asn`. -/
def actionFor (s : State) (m : Message) (data : Data) : Action :=
  let v : Vty := ⟨m.results, 0⟩
  if s.getVrfAsn m.vrf = none ∧ data.get? "local_asn" = none then .ignore
  else if m.row = none then .remove
  else
    match data.get? "local_asn" with
    | none => .run s v data
    | some asn =>
      match asn.op with
      | .delete => .remove
      | .add =>
        if v.next then
          .run { s with bgpAsn := s.bgpAsn.set m.vrf asn.data } v.step
            (succIf (· = "local_asn") data)
        else .run s v.step data
      | _ => .run s v (succIf (· = "local_asn") data)

def dataFor (s : State) (m : Message) : Data :=
  addOpToData (s.cache.getD m.vrf []) (m.row.getD []) (combAttrList .bgpGlobals)

/-- `__update_cache_data` -/
def updateCache (s : State) (vrf : String) (data : Data) : State :=
  let cached := data.foldl updateCacheField (s.cache.getD vrf [])
  { s with cache := if cached = [] then s.cache.erase vrf else s.cache.set vrf cached }

def handle (env : Env) (s : State) (m : Message) : State :=
  let data := dataFor s m
  let r :=
    match actionFor s m data with
    | .ignore => (s, data)
    | .remove => deleteVrfAsn s ⟨m.results, 0⟩ m.vrf data
    | .run s v data => runGlobals env s v m.vrf data
  updateCache r.1 m.vrf r.2

def Step (env : Env) (s : State) (m : Message) (s' : State) : Prop := handle env s m = s'

/-! ## What is expected -/

/-- The daemon and FRR have the same peers. -/
def Mirror (s : State) : Prop := ∀ vrf peer, peer ∈ s.peers vrf ↔ peer ∈ s.inFrr vrf

/-- The commands for peers that succeeded. -/
def acceptedPeers (log : List Command) : List Command :=
  log.filter fun c => readPeers c.tokens ≠ none

/-- All the commands for the peers succeed, or none does and the whole run counts as failed. -/
def RunOk (env : Env) (s : State) (v : Vty) (vrf : String) (data : Data) : Prop :=
  s.getVrfAsn vrf ≠ none →
    let r := runFields env s v vrf data
    acceptedPeers r.2 = confedEntry.commands (commandOf env (s.peers vrf)) [] data ∨
      (acceptedPeers r.2 = [] ∧ r.1.ret = false)

/-- The instance is removed only when the daemon has no peers for it. -/
def RemoveOk (s : State) (v : Vty) (vrf : String) : Prop :=
  s.getVrfAsn vrf ≠ none → v.next = true → s.peers vrf = []

def ActionOk (env : Env) (s : State) (m : Message) : Action → Prop
  | .ignore => True
  | .remove => RemoveOk s ⟨m.results, 0⟩ m.vrf
  | .run s v data => RunOk env s v m.vrf data

def Ok (env : Env) (s : State) (m : Message) : Prop :=
  ActionOk env s m (actionFor s m (dataFor s m))

instance (env : Env) (s : State) (m : Message) (a : Action) : Decidable (ActionOk env s m a) :=
  match a with
  | .ignore => inferInstanceAs (Decidable True)
  | .remove => inferInstanceAs (Decidable (_ → _ → _))
  | .run _ _ _ => inferInstanceAs (Decidable (_ → _ ∨ _))

instance (env : Env) (s : State) (m : Message) : Decidable (Ok env s m) :=
  inferInstanceAs (Decidable (ActionOk env s m _))

/-! ## The handler -/

theorem mem_foldl_setDiscard (xs s : List String) (x : String) :
    x ∈ xs.foldl setDiscard s ↔ x ∈ s ∧ x ∉ xs := by
  induction xs generalizing s with
  | nil => simp
  | cons y xs ih =>
    rw [List.foldl_cons, ih, mem_setDiscard, List.mem_cons, not_or, and_assoc]

/-- The set keeps what is not in the list; what is not in the set is added. -/
theorem mem_foldl_diffPeers (peers upd add : List String) (p : String) :
    (p ∈ (peers.foldl diffPeers (upd, add)).1 ↔ p ∈ upd ∧ p ∉ peers) ∧
    (p ∈ (peers.foldl diffPeers (upd, add)).2 → p ∈ add ∨ p ∈ peers) ∧
    (p ∈ add ∨ p ∈ peers ∧ p ∉ upd → p ∈ (peers.foldl diffPeers (upd, add)).2) := by
  induction peers generalizing upd add with
  | nil => simp
  | cons peer peers ih =>
    by_cases hpeer : peer ∈ upd
    · have hstep : diffPeers (upd, add) peer = (setDiscard upd peer, add) :=
        if_neg (not_not.2 hpeer)
      rw [List.foldl_cons, hstep]
      obtain ⟨hkeep, hadd, hadds⟩ := ih (setDiscard upd peer) add
      rw [mem_setDiscard] at hkeep hadds
      refine ⟨?_, fun hp => (hadd hp).imp_right (List.mem_cons_of_mem _), fun hp => hadds ?_⟩
      · rw [hkeep, List.mem_cons]
        tauto
      · rw [List.mem_cons] at hp
        rcases hp with hp | ⟨rfl | hp, hupd⟩
        · exact .inl hp
        · exact absurd hpeer hupd
        · exact .inr ⟨hp, fun hand => hupd hand.1⟩
    · have hstep : diffPeers (upd, add) peer = (upd, add ++ [peer]) := if_pos hpeer
      rw [List.foldl_cons, hstep]
      obtain ⟨hkeep, hadd, hadds⟩ := ih upd (add ++ [peer])
      rw [List.mem_append, List.mem_singleton] at hadd hadds
      refine ⟨?_, fun hp => ?_, fun hp => hadds ?_⟩
      · rw [hkeep, List.mem_cons]
        refine and_congr_right fun hupd => ?_
        rw [not_or, iff_and_self]
        rintro - rfl
        exact hpeer hupd
      · rw [List.mem_cons]
        have := hadd hp
        tauto
      · rw [List.mem_cons] at hp
        tauto

theorem mem_apply_peersCommand (enabled : Bool) (peers set : List String) (p : String) :
    p ∈ (peersCommand enabled peers).foldl applyCommand set ↔
      if enabled then p ∈ set ∨ p ∈ peers else p ∈ set ∧ p ∉ peers := by
  unfold peersCommand
  by_cases hnil : peers = []
  · cases enabled <;> simp [hnil]
  · rw [if_neg hnil, List.foldl_cons, List.foldl_nil]
    cases enabled with
    | true => exact mem_foldl_setAdd peers set p
    | false => exact mem_foldl_setDiscard peers set p

/-- The commands take FRR from the old peers of the daemon to the new ones. -/
theorem mem_apply_hdl (env : Env) {upd set : List String} (hset : ∀ p, p ∈ upd ↔ p ∈ set) (op : Op)
    (peers : List String) (p : String) :
    p ∈ (hdlConfedPeers env upd op peers).1.foldl applyCommand set ↔
      p ∈ (hdlConfedPeers env upd op peers).2 := by
  unfold hdlConfedPeers
  by_cases hop : op = .delete
  · rw [if_pos hop, mem_apply_peersCommand, if_neg Bool.false_ne_true, env.order_iter.mem, hset]
    simp
  · rw [if_neg hop]
    dsimp only
    rw [List.foldl_append, mem_apply_peersCommand, if_pos rfl, mem_apply_peersCommand,
      if_neg Bool.false_ne_true, env.order_iter.mem, mem_foldl_setAdd]
    obtain ⟨hkeep, hadd, hadds⟩ := mem_foldl_diffPeers peers upd [] p
    rw [hkeep, ← hset]
    simp only [List.not_mem_nil, false_or] at hadd hadds ⊢
    tauto

theorem readPeers_peersCommand {enabled : Bool} {peers : List String} {c : Command}
    (h : c ∈ peersCommand enabled peers) : readPeers c.tokens ≠ none := by
  unfold peersCommand at h
  split at h
  · exact absurd h List.not_mem_nil
  · rw [List.mem_singleton.1 h]
    cases enabled <;> simp [readPeers]

theorem readPeers_hdl {env : Env} {upd peers : List String} {op : Op} {c : Command}
    (h : c ∈ (hdlConfedPeers env upd op peers).1) : readPeers c.tokens ≠ none := by
  unfold hdlConfedPeers at h
  split at h
  · exact readPeers_peersCommand h
  · exact (List.mem_append.1 h).elim readPeers_peersCommand readPeers_peersCommand

/-! ## The run of a row -/

/-- The commands for the peers, from the field. -/
theorem commands_confed (env : Env) (upd : List String) (data : Data) :
    confedEntry.commands (commandOf env upd) [] data =
      match data.get? "confed_peers" with
      | none => []
      | some d =>
        if d.op = .none then []
        else (hdlConfedPeers env upd (if d.op = .delete then .delete else .update)
          (peersOf d.data)).1 := by
  cases hd : data.get? "confed_peers" with
  | none =>
    have hnone : keyLists data confedEntry.tokens [] = none := by
      simp [confedEntry, one, req, keyLists, Token.present, hd]
    rw [DbField.commands, hnone]
    rfl
  | some d =>
    refine (commands_single hd none).trans ?_
    rw [handlerCalls_single hd]
    dsimp only
    split
    · rfl
    · rw [List.flatMap_singleton]
      rfl

theorem updAfter_eq (env : Env) (upd : List String) {data : Data} {d : CachedDataWithOp}
    (hd : data.get? "confed_peers" = some d) :
    updAfter env upd data =
      if d.op = .none then upd
      else (hdlConfedPeers env upd (if d.op = .delete then .delete else .update)
        (peersOf d.data)).2 := by
  have hcalls := handlerCalls_single hd none
  unfold updAfter
  rw [show confedEntry = ⟨[⟨0, ["confed_peers"], none⟩], false⟩ from rfl, hcalls]
  split
  · rfl
  · rfl

/-- Marking fields as applied does not change the commands. -/
theorem commands_marked (env : Env) (upd : List String) {data data' : Data}
    (h : Marked data data') :
    confedEntry.commands (commandOf env upd) [] data' =
      confedEntry.commands (commandOf env upd) [] data := by
  rw [commands_confed, commands_confed]
  rcases h "confed_peers" with heq | ⟨d, hd, hset⟩
  · rw [heq]
  · rw [hd, hset]

theorem acceptedPeers_append (l l' : List Command) :
    acceptedPeers (l ++ l') = acceptedPeers l ++ acceptedPeers l' := List.filter_append ..

/-- The other entries have no commands for peers. -/
theorem acceptedPeers_runLog {env : Env} {upd : List String} {fs : KeyMap} (h : confedEntry ∉ fs)
    (s : RunState) : acceptedPeers (runLog (commandOf env upd) [] fs s) = [] := by
  induction fs generalizing s with
  | nil => rfl
  | cons f fs ih =>
    rw [List.mem_cons, not_or] at h
    rw [runLog, acceptedPeers_append, ih h.2, List.append_nil]
    refine List.filter_eq_nil_iff.2 fun c hc => ?_
    obtain ⟨op, vals, cs, hcs, hmem⟩ := DbField.mem_commands (mem_of_mem_acceptedOf hc)
    unfold commandOf at hcs
    rw [if_neg (Ne.symm h.1)] at hcs
    simp [env.others f op [] vals cs hcs c hmem]

/-- The entry of the peers stands once in the key map. -/
theorem globalKeyMap_split : ∃ pre post, globalKeyMap = pre ++ confedEntry :: post ∧
    confedEntry ∉ pre ∧ confedEntry ∉ post :=
  ⟨globalKeyMap.takeWhile (· ≠ confedEntry), (globalKeyMap.dropWhile (· ≠ confedEntry)).tail,
    by decide +kernel, by decide +kernel, by decide +kernel⟩

theorem readPeers_commands {env : Env} {upd : List String} {data : Data} {c : Command}
    (h : c ∈ confedEntry.commands (commandOf env upd) [] data) : readPeers c.tokens ≠ none := by
  obtain ⟨op, vals, cs, hcs, hc⟩ := DbField.mem_commands h
  have hhdl : (hdlConfedPeers env upd op (firstArg vals)).1 = cs :=
    Option.some.inj ((if_pos rfl).symm.trans hcs)
  rw [← hhdl] at hc
  exact readPeers_hdl hc

/-- The commands for peers that succeed are those of their entry; with all of them the run counts as
    successful. -/
theorem acceptedPeers_runFields (env : Env) (s : State) (v : Vty) (vrf : String) (data : Data) :
    ∃ v', acceptedPeers (runFields env s v vrf data).2 =
        acceptedOf v' (confedEntry.commands (commandOf env (s.peers vrf)) [] data) ∧
      (confedEntry.commands (commandOf env (s.peers vrf)) [] data ≠ [] →
        acceptedOf v' (confedEntry.commands (commandOf env (s.peers vrf)) [] data) =
          confedEntry.commands (commandOf env (s.peers vrf)) [] data →
        (runFields env s v vrf data).1.ret = true) := by
  obtain ⟨pre, post, hsplit, hpre, hpost⟩ := globalKeyMap_split
  -- the state of the run when it comes to the entry
  generalize hmid : pre.foldl (runEntry (commandOf env (s.peers vrf)) []) ⟨data, false, 0, v⟩ = mid
  have hmarked : Marked data mid.data := by
    rw [← hmid]
    exact marked_foldl_runEntry _ _ pre ⟨data, false, 0, v⟩
  have hcmds := commands_marked env (s.peers vrf) hmarked
  refine ⟨mid.vty, ?_, fun hne hall => ?_⟩
  · show acceptedPeers (runLog _ [] globalKeyMap _) = _
    rw [hsplit, runLog_append, acceptedPeers_append, acceptedPeers_runLog hpre, List.nil_append,
      runLog, acceptedPeers_append, acceptedPeers_runLog hpost, List.append_nil, hmid, hcmds]
    exact List.filter_eq_self.2 fun c hc =>
      decide_eq_true (readPeers_commands (mem_of_mem_acceptedOf hc))
  · refine ret_runCommand_of_retVal ?_
    rw [hsplit, List.foldl_append, hmid, List.foldl_cons]
    refine retVal_foldl ?_
    rw [retVal_runEntry, hcmds, runAll_of_acceptedOf hall]
    simp [hne]

/-! ## The sets -/

/-- Only the commands for peers change the peers. -/
theorem foldl_acceptedPeers (log : List Command) (set : List String) :
    (acceptedPeers log).foldl applyCommand set = log.foldl applyCommand set := by
  induction log generalizing set with
  | nil => rfl
  | cons c log ih =>
    rw [acceptedPeers, List.filter_cons]
    cases hc : readPeers c.tokens with
    | none =>
      have happly : applyCommand set c = set := by rw [applyCommand, hc]
      rw [List.foldl_cons, happly]
      exact ih set
    | some r => exact ih (applyCommand set c)

/-- The sets of the VRFs that a message is not about stay. -/
theorem mirror_set {s s' : State} (h : Mirror s) (vrf : String)
    (hpeers : ∀ w, w ≠ vrf → s'.peers w = s.peers w) (hfrr : ∀ w, w ≠ vrf → s'.inFrr w = s.inFrr w)
    (hvrf : ∀ p, p ∈ s'.peers vrf ↔ p ∈ s'.inFrr vrf) : Mirror s' := by
  intro w p
  by_cases hw : w = vrf
  · rw [hw]
    exact hvrf p
  · rw [hpeers w hw, hfrr w hw]
    exact h w p

theorem mirror_runGlobals {env : Env} {s : State} {v : Vty} {vrf : String} {data : Data}
    (h : Mirror s) (hok : RunOk env s v vrf data) : Mirror (runGlobals env s v vrf data).1 := by
  unfold runGlobals
  cases hasn : s.getVrfAsn vrf with
  | none => exact h
  | some asn =>
    obtain ⟨v', haccepted, hret⟩ := acceptedPeers_runFields env s v vrf data
    replace hok := hok (by rw [hasn]; simp)
    dsimp only at hok ⊢
    have hfrr : ∀ w, w ≠ vrf → (s.frr.set vrf ((runFields env s v vrf data).2.foldl applyCommand
        (s.inFrr vrf))).getD w [] = s.inFrr w := fun w hw => Dict.getD_set_ne _ _ _ (Ne.symm hw)
    -- what FRR has after the commands
    have hnew : ∀ d, data.get? "confed_peers" = some d →
        acceptedPeers (runFields env s v vrf data).2 =
          confedEntry.commands (commandOf env (s.peers vrf)) [] data →
        ∀ p, p ∈ (runFields env s v vrf data).2.foldl applyCommand (s.inFrr vrf) ↔
          p ∈ updAfter env (s.peers vrf) data := by
      intro d hd hall p
      rw [← foldl_acceptedPeers, hall, commands_confed, updAfter_eq env _ hd, hd]
      dsimp only
      split
      · exact (h vrf p).symm
      · exact mem_apply_hdl env (h vrf) _ _ p
    by_cases hcopy : (runFields env s v vrf data).1.ret = true ∧ data.get? "confed_peers" ≠ none
    · rw [if_pos hcopy]
      obtain ⟨d, hd⟩ := Option.ne_none_iff_exists'.1 hcopy.2
      refine mirror_set h vrf (fun w hw => Dict.getD_set_ne _ _ _ (Ne.symm hw)) hfrr fun p => ?_
      rcases hok with hall | ⟨-, hfailed⟩
      · unfold State.peers State.inFrr
        dsimp only
        rw [Dict.getD_set_self, Dict.getD_set_self]
        exact (hnew d hd hall p).symm
      · rw [hcopy.1] at hfailed
        exact absurd hfailed (by decide)
    · rw [if_neg hcopy]
      refine mirror_set h vrf (fun w hw => rfl) hfrr fun p => ?_
      -- no command for peers has succeeded
      have hnone : acceptedPeers (runFields env s v vrf data).2 = [] := by
        rcases hok with hall | ⟨hnone, -⟩
        · rw [hall]
          by_contra hne
          refine hcopy ⟨hret hne (haccepted.symm.trans hall), fun hfield => hne ?_⟩
          rw [commands_confed, hfield]
        · exact hnone
      unfold State.inFrr
      dsimp only
      rw [Dict.getD_set_self, ← foldl_acceptedPeers, hnone]
      exact h vrf p

theorem mirror_deleteVrfAsn {s : State} {v : Vty} {vrf : String} (h : Mirror s)
    (hok : RemoveOk s v vrf) (data : Data) : Mirror (deleteVrfAsn s v vrf data).1 := by
  unfold deleteVrfAsn
  split
  · exact h
  · cases hasn : s.getVrfAsn vrf with
    | none => exact h
    | some asn =>
      dsimp only
      split
      · next hv =>
        refine mirror_set h vrf (fun w hw => rfl)
          (fun w hw => Dict.getD_set_ne _ _ _ (Ne.symm hw)) fun p => ?_
        have hpeers := hok (by rw [hasn]; simp) hv
        show p ∈ s.peers vrf ↔ p ∈ (s.frr.set vrf []).getD vrf []
        rw [hpeers, Dict.getD_set_self]
      · exact h

/-! ## Runs -/

/-- The command for `local_asn` does not change the sets. -/
theorem actionFor_run {s s₁ : State} {m : Message} {data data₁ : Data} {v : Vty}
    (h : actionFor s m data = .run s₁ v data₁) :
    s₁.confedPeers = s.confedPeers ∧ s₁.frr = s.frr := by
  unfold actionFor at h
  dsimp only at h
  split at h
  · cases h
  · split at h
    · cases h
    · cases hasn : data.get? "local_asn" with
      | none =>
        rw [hasn] at h
        cases h
        exact ⟨rfl, rfl⟩
      | some asn =>
        rw [hasn] at h
        dsimp only at h
        cases hop : asn.op with
        | none =>
          rw [hop] at h
          cases h
          exact ⟨rfl, rfl⟩
        | update =>
          rw [hop] at h
          cases h
          exact ⟨rfl, rfl⟩
        | delete =>
          rw [hop] at h
          cases h
        | add =>
          rw [hop] at h
          dsimp only at h
          split at h
          · cases h
            exact ⟨rfl, rfl⟩
          · cases h
            exact ⟨rfl, rfl⟩

theorem mirror_handle {env : Env} {s : State} {m : Message} (h : Mirror s) (hok : Ok env s m) :
    Mirror (handle env s m) := by
  unfold Ok at hok
  unfold handle
  dsimp only
  generalize haction : actionFor s m (dataFor s m) = action at hok ⊢
  cases action with
  | ignore => exact h
  | remove => exact mirror_deleteVrfAsn h hok _
  | run s₁ v data =>
    obtain ⟨hpeers, hfrr⟩ := actionFor_run haction
    have hs₁ : Mirror s₁ := by
      intro vrf p
      rw [State.peers, State.inFrr, hpeers, hfrr]
      exact h vrf p
    exact mirror_runGlobals hs₁ hok

theorem step_next (env : Env) (s : State) (m : Message) (s' : State)
    (h : some (handle env s m) = some s') : Step env s m s' := Option.some.inj h

/-- The daemon has the peers that FRR has. -/
theorem confedPeers_of_run {env : Env} {s s' : State} {ms : List Message}
    (hrun : Run (Step env) (Ok env) s ms s') (h : Mirror s) : Mirror s' := by
  refine hrun.invariant (fun s m s' h hok hstep => ?_) h
  rw [← hstep]
  exact mirror_handle h hok

/-! ## An instance with peers -/

/-- The other fields have no commands, but for the router id. -/
def sampleEnv : Env where
  getCommand f _ _ _ := if f = one "router_id" then some [⟨["bgp", "router-id"], false⟩] else none
  others f op upper vals cs h c hc := by
    split at h
    · rw [← Option.some.inj h, List.mem_singleton] at hc
      rw [hc]
      rfl
    · cases h
  order := id
  order_iter := iterOrder_id

def start : State := ⟨[], [], none, [], []⟩

/-- A row with an AS number, a router id and peers. -/
def rowWith (routerId : String) (peers : List String) : Row :=
  [("local_asn", .str "65000"), ("router_id", .str routerId), ("confed_peers", .list peers)]

def succeeds : Nat → Bool := fun _ => true

/-- Peers are changed; the change fails as a whole and is delivered again. -/
theorem mirror_after_change :
    ∃ s, Run (Step sampleEnv) (Ok sampleEnv) start
        [⟨"Vrf1", some (rowWith "10.0.0.1" ["1", "2"]), succeeds⟩,
          ⟨"Vrf1", some (rowWith "10.0.0.1" ["2", "3"]), fun _ => false⟩,
          ⟨"Vrf1", some (rowWith "10.0.0.1" ["2", "3"]), succeeds⟩] s ∧
      s.peers "Vrf1" = ["2", "3"] ∧ ∀ p, p ∈ ["2", "3"] ↔ p ∈ s.inFrr "Vrf1" := by
  refine exists_run_imp (step_next sampleEnv) (fun s => s.peers "Vrf1" = ["2", "3"])
    (by decide +kernel) ?_
  intro s hrun hpeers
  refine ⟨hpeers, fun p => ?_⟩
  rw [← hpeers]
  exact confedPeers_of_run hrun (fun _ _ => Iff.rfl) "Vrf1" p

/-- The instance is removed and set again with the same peers, which FRR does not get; and the peers
    are deleted and added by two commands, of which the second fails. -/
theorem peers_differ :
    (∃ s, Run (Step sampleEnv) (fun _ _ => True) start
        [⟨"Vrf1", some (rowWith "10.0.0.1" ["1", "2"]), succeeds⟩, ⟨"Vrf1", none, succeeds⟩,
          ⟨"Vrf1", some (rowWith "10.0.0.1" ["1", "2"]), succeeds⟩] s ∧
      s.peers "Vrf1" = ["1", "2"] ∧ s.inFrr "Vrf1" = []) ∧
    ∃ s, Run (Step sampleEnv) (fun _ _ => True) start
        [⟨"Vrf1", some (rowWith "10.0.0.1" ["1", "2"]), succeeds⟩,
          ⟨"Vrf1", some (rowWith "10.0.0.1" ["2", "3"]), fun i => i = 0⟩] s ∧
      s.peers "Vrf1" = ["1", "2"] ∧ s.inFrr "Vrf1" = ["2"] :=
  ⟨exists_run (step_next sampleEnv) (by decide +kernel),
    exists_run (step_next sampleEnv) (by decide +kernel)⟩

end SonicBuildimage.Frrcfgd.ConfedPeers
