/-
  The rule that sends requests for the proxy elsewhere: `iptable_proxy_rule_upd` of
  ctrmgr_iptables.py.

  Model.  The chain is the list of the rules as `iptables -L OUTPUT n` prints them; nothing is
  printed behind the last one.  An argument of `subprocess.run` is a text, or the port as
  `urlparse` gives it, for which Python raises TypeError.  Commands that are run succeed.

  Proved: `ruleUpd_iff`.  The function returns, with the chain that is wanted, exactly if no server
  is asked for or the chain has a rule for it already.  Otherwise the rules of other servers are
  deleted and the command that should append the new one is not run (`port_not_a_text`).  The loop
  counts the rules it has kept, so the chain is always what was kept and what is still to come.

  Not modelled: the reading of the proxy's URL and of addresses (`Proxy`, `Env`).
-/
import SonicBuildimage.Lib.PyStr

namespace SonicBuildimage.Ctrmgrd.Iptables

open SonicBuildimage.Lib

/-- A rule, as it is printed. -/
structure Rule where
  text : String
  printed : text ≠ ""
  deriving DecidableEq

/-- An argument of a command. -/
inductive Arg where
  | str (s : String)
  | int (n : Nat)
  | none
  deriving DecidableEq

def Arg.text : Arg → Option String
  | .str s => some s
  | .int _ => Option.none
  | .none => Option.none

structure Env where
  /-- `_get_ip`: empty for what is no address and no name of a host -/
  getIp : String → String
  /-- how the rule of `iptables -t nat -A OUTPUT` is printed -/
  appended : List String → Rule

/-- `DST_IP` and `DST_PORT` -/
structure Proxy where
  dstIp : String
  dstPort : Option Nat

/-- The port, as `format` prints it. -/
def Proxy.portText (p : Proxy) : String :=
  match p.dstPort with
  | some n => toString n
  | none => "None"

def Proxy.portArg (p : Proxy) : Arg :=
  match p.dstPort with
  | some n => .int n
  | none => .none

/-- `_is_rule_match` -/
def isRuleMatch (p : Proxy) (rule : String) : String :=
  let expect := "DNAT tcp -- 0.0.0.0/0 " ++ p.dstIp ++ " tcp dpt:" ++ p.portText ++ " to:"
  let rule := strip (join " " (splitWords rule))
  if startswith rule expect then dropLen rule expect else ""

/-- Where a rule for the proxy leads; empty for other rules. -/
def ruleDest (p : Proxy) (r : Rule) : String := isRuleMatch p (strip r.text)

/-- The loop, with the number of the rules before the next one; `none` if `fuel` is used up. -/
def ruleLoop (p : Proxy) (destination : String) :
    Nat → List Rule → Nat → Bool → Option (List Rule × Bool)
  | 0, _, _, _ => none
  | fuel + 1, chain, num, found =>
    match chain[num]? with
    | none => some (chain, found)
    | some rule =>
      if ruleDest p rule ≠ "" then
        if ¬found ∧ destination ≠ "" ∧ ruleDest p rule = destination then
          ruleLoop p destination fuel chain (num + 1) true
        else ruleLoop p destination fuel (chain.eraseIdx num) num found
      else ruleLoop p destination fuel chain (num + 1) found

/-- The arguments for a new rule, with the port as it is given. -/
def newRule (p : Proxy) (port : Arg) (destination : String) : List Arg :=
  [.str "-p", .str "tcp", .str "-d", .str p.dstIp, .str "--dport", port, .str "-j", .str "DNAT",
    .str "--to-destination", .str destination]

def destinationOf (env : Env) (ipStr port : String) : String :=
  if ipStr = "" then "" else env.getIp ipStr ++ ":" ++ port

/-- `iptable_proxy_rule_upd`: the chain afterwards, and what is returned, `none` for an
    exception. -/
def iptableProxyRuleUpd (env : Env) (p : Proxy) (chain : List Rule) (ipStr port : String) :
    List Rule × Option String :=
  if p.dstIp = "" then (chain, some "")
  else if ipStr ≠ "" ∧ env.getIp ipStr = "" then (chain, some "")
  else
    let destination := destinationOf env ipStr port
    match ruleLoop p destination (chain.length + 1) chain 0 false with
    | none => (chain, none)
    | some (chain, found) =>
      if destination ≠ "" ∧ ¬found then
        match (newRule p p.portArg destination).mapM Arg.text with
        | none => (chain, none)
        | some args => (chain ++ [env.appended args], some destination)
      else (chain, some destination)

/-! ## What is wanted -/

section Wanted

variable (p : Proxy) (destination : String)

/-- The rules that are not for the proxy. -/
def others (chain : List Rule) : List Rule := chain.filter fun r => ruleDest p r = ""

/-- The other rules, and the first rule that leads where it should. -/
def kept (chain : List Rule) : List Rule :=
  others p (chain.takeWhile fun r => ruleDest p r ≠ destination) ++
    match chain.dropWhile fun r => ruleDest p r ≠ destination with
    | [] => []
    | r :: rest => r :: others p rest

/-- The chain that is wanted. -/
def wanted (env : Env) (chain : List Rule) : List Rule :=
  if destination = "" then others p chain
  else if ∃ r ∈ chain, ruleDest p r = destination then kept p destination chain
  else kept p destination chain ++
    [env.appended ["-p", "tcp", "-d", p.dstIp, "--dport", p.portText, "-j", "DNAT",
      "--to-destination", destination]]

end Wanted

/-! ## The loop -/

section Loop

variable {p : Proxy} {destination : String}

theorem others_cons (r : Rule) (todo : List Rule) :
    others p (r :: todo) = if ruleDest p r = "" then r :: others p todo else others p todo := by
  unfold others
  rw [List.filter_cons]
  simp only [decide_eq_true_eq]

/-- One rule: it is kept, or deleted and the next one takes its number. -/
theorem ruleLoop_cons (fuel : Nat) (done todo : List Rule) (r : Rule) (found : Bool) :
    ruleLoop p destination (fuel + 1) (done ++ r :: todo) done.length found =
      if ruleDest p r = "" then
        ruleLoop p destination fuel ((done ++ [r]) ++ todo) (done ++ [r]).length found
      else if ¬found ∧ destination ≠ "" ∧ ruleDest p r = destination then
        ruleLoop p destination fuel ((done ++ [r]) ++ todo) (done ++ [r]).length true
      else ruleLoop p destination fuel (done ++ todo) done.length found := by
  have hget : (done ++ r :: todo)[done.length]? = some r := by simp
  have herase : (done ++ r :: todo).eraseIdx done.length = done ++ todo := by
    rw [List.eraseIdx_append_of_length_le le_rfl, Nat.sub_self, List.eraseIdx_cons_zero]
  have hlen : (done ++ [r]).length = done.length + 1 := by simp
  rw [ruleLoop, hget, herase, hlen, List.append_assoc, List.singleton_append]
  by_cases hdest : ruleDest p r = ""
  · simp [hdest]
  · simp [hdest]

theorem ruleLoop_nil (fuel : Nat) (done : List Rule) (found : Bool) :
    ruleLoop p destination (fuel + 1) (done ++ []) done.length found = some (done, found) := by
  rw [ruleLoop]
  simp

/-- With nothing to look for, all rules for the proxy are deleted. -/
theorem ruleLoop_others (found : Bool) (h : found = true ∨ destination = "")
    (done todo : List Rule) :
    ruleLoop p destination (todo.length + 1) (done ++ todo) done.length found =
      some (done ++ others p todo, found) := by
  induction todo generalizing done with
  | nil =>
    rw [List.length_nil, ruleLoop_nil]
    simp [others]
  | cons r todo ih =>
    have hno : ¬(¬found ∧ destination ≠ "" ∧ ruleDest p r = destination) :=
      fun hand => h.elim hand.1 hand.2.1
    rw [List.length_cons, ruleLoop_cons, if_neg hno, ih, ih, others_cons]
    split
    · rw [List.append_assoc, List.singleton_append]
    · rfl

theorem kept_cons_found {r : Rule} (h : ruleDest p r = destination) (todo : List Rule) :
    kept p destination (r :: todo) = r :: others p todo := by
  unfold kept
  rw [List.takeWhile_cons_of_neg (by simpa using h), List.dropWhile_cons_of_neg (by simpa using h)]
  rfl

theorem kept_cons_other {r : Rule} (h : ruleDest p r ≠ destination) (todo : List Rule) :
    kept p destination (r :: todo) =
      if ruleDest p r = "" then r :: kept p destination todo else kept p destination todo := by
  unfold kept
  rw [List.takeWhile_cons_of_pos (by simpa using h), List.dropWhile_cons_of_pos (by simpa using h),
    others_cons]
  split
  · rfl
  · rfl

/-- Until the rule is found, and from there. -/
theorem ruleLoop_kept (hdest : destination ≠ "") (done todo : List Rule) :
    ruleLoop p destination (todo.length + 1) (done ++ todo) done.length false =
      some (done ++ kept p destination todo, decide (∃ r ∈ todo, ruleDest p r = destination)) := by
  induction todo generalizing done with
  | nil =>
    rw [List.length_nil, ruleLoop_nil]
    simp [kept, others]
  | cons r todo ih =>
    rw [List.length_cons, ruleLoop_cons]
    by_cases heq : ruleDest p r = destination
    · have hne : ruleDest p r ≠ "" := heq ▸ hdest
      rw [if_neg hne, if_pos ⟨by simp, hdest, heq⟩, ruleLoop_others true (Or.inl rfl),
        kept_cons_found heq, List.append_assoc, List.singleton_append]
      simp [heq]
    · have hno : ¬(¬false = true ∧ destination ≠ "" ∧ ruleDest p r = destination) :=
        fun hand => heq hand.2.2
      have hfound : (∃ r' ∈ r :: todo, ruleDest p r' = destination) ↔
          ∃ r' ∈ todo, ruleDest p r' = destination := by simp [heq]
      rw [if_neg hno, ih, ih, kept_cons_other heq]
      simp only [hfound]
      split
      · rw [List.append_assoc, List.singleton_append]
      · rfl

end Loop

theorem destinationOf_eq_empty_iff (env : Env) (ipStr port : String) :
    destinationOf env ipStr port = "" ↔ ipStr = "" := by
  unfold destinationOf
  by_cases h : ipStr = ""
  · simp [h]
  · rw [if_neg h, String.append_eq_empty_iff, String.append_eq_empty_iff]
    simp [h]

theorem newRule_text (p : Proxy) (destination : String) :
    (newRule p p.portArg destination).mapM Arg.text = none := by
  unfold newRule Proxy.portArg
  cases p.dstPort with
  | none => rfl
  | some n => rfl

/-- The chain is the wanted one exactly if no rule has to be appended. -/
theorem ruleUpd_iff {env : Env} {p : Proxy} {ipStr : String} (hproxy : p.dstIp ≠ "")
    (haddr : ipStr = "" ∨ env.getIp ipStr ≠ "") (chain : List Rule) (port : String) :
    iptableProxyRuleUpd env p chain ipStr port =
        (wanted p (destinationOf env ipStr port) env chain, some (destinationOf env ipStr port)) ↔
      ipStr = "" ∨ ∃ r ∈ chain, ruleDest p r = destinationOf env ipStr port := by
  have hknown : ¬(ipStr ≠ "" ∧ env.getIp ipStr = "") := fun h => haddr.elim h.1 fun h' => h' h.2
  unfold iptableProxyRuleUpd wanted
  rw [if_neg hproxy, if_neg hknown]
  dsimp only
  have hempty := destinationOf_eq_empty_iff env ipStr port
  generalize destinationOf env ipStr port = destination at hempty ⊢
  rw [← hempty]
  by_cases hdest : destination = ""
  · have hloop := ruleLoop_others (p := p) false (Or.inr hdest) [] chain
    rw [List.nil_append, List.nil_append, List.length_nil] at hloop
    rw [hloop]
    simp [hdest]
  · have hloop := ruleLoop_kept (p := p) hdest [] chain
    rw [List.nil_append, List.nil_append, List.length_nil] at hloop
    rw [hloop, newRule_text]
    by_cases hfound : ∃ r ∈ chain, ruleDest p r = destination
    · simp [hdest, hfound]
    · simp [hdest, hfound]

/-! ## A chain -/

def sampleProxy : Proxy := ⟨"172.16.1.1", some 3128⟩

def sampleEnv : Env where
  getIp := id
  appended args := ⟨"appended: " ++ join " " args, by simp⟩

def ruleTo (dest : String) : Rule :=
  ⟨"DNAT  tcp  --  0.0.0.0/0  172.16.1.1  tcp dpt:3128 to:" ++ dest ++ "\n", by simp⟩

def masquerade : Rule := ⟨"MASQUERADE  all  --  0.0.0.0/0  0.0.0.0/0\n", by decide⟩

/-- Another server and a second copy of the rule are deleted. -/
theorem rules_deleted :
    (sampleProxy.dstIp ≠ "" ∧ sampleEnv.getIp "10.10.20.20" ≠ "") ∧
      wanted sampleProxy "10.10.20.20:3128" sampleEnv
          [ruleTo "11.11.11.11:8080", ruleTo "10.10.20.20:3128", masquerade,
            ruleTo "10.10.20.20:3128"] = [ruleTo "10.10.20.20:3128", masquerade] ∧
      iptableProxyRuleUpd sampleEnv sampleProxy
          [ruleTo "11.11.11.11:8080", ruleTo "10.10.20.20:3128", masquerade,
            ruleTo "10.10.20.20:3128"] "10.10.20.20" "3128" =
        (wanted sampleProxy (destinationOf sampleEnv "10.10.20.20" "3128") sampleEnv
          [ruleTo "11.11.11.11:8080", ruleTo "10.10.20.20:3128", masquerade,
            ruleTo "10.10.20.20:3128"], some (destinationOf sampleEnv "10.10.20.20" "3128")) := by
  refine ⟨by decide, by decide +kernel, ?_⟩
  refine (ruleUpd_iff (by decide) (Or.inr (by decide)) _ _).2 (Or.inr ?_)
  exact ⟨ruleTo "10.10.20.20:3128", by simp, by decide +kernel⟩

/-- A new server: the rule of the old one is deleted, and the command for the new one raises. -/
theorem port_not_a_text :
    iptableProxyRuleUpd sampleEnv sampleProxy [ruleTo "11.11.11.11:8080", masquerade] "10.10.20.20"
      "3128" = ([masquerade], none) := by
  decide +kernel

end SonicBuildimage.Ctrmgrd.Iptables
