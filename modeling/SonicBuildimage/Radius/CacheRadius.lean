/-
  The accounts of RADIUS users (nss_radius.c, cache_radius.c, nss_radius_common.c), with one local
  account for each user (`many_to_one=no`).

  Model.  `nssRadiusGetpwnam` is a lookup by NSS and `cacheRadius` the program that PAM runs after a
  successful authentication; both work on /etc/passwd with useradd, usermod and userdel, which may
  fail (`Outcome`), and on the cached level of each user.  The configuration is a parameter.

  Proved: `privilege_of_run`.  In every run in which no user is called `Unconfirmed-...`, no name
  without an account is longer than 32 bytes and every usermod succeeds, a run of cache_radius
  whose commands all succeed leaves the account confirmed and with the groups of its level, and
  no clean-up deletes such an account.  Without that the cached level stands for an account that was
  never adjusted (`privilege_lost`).

  Not modelled: names with a slash, a cache or password file that cannot be read or written, the
  parsing of the configuration, and the copy of the account for the caller of NSS.
-/
import SonicBuildimage.Lib.PyDict
import SonicBuildimage.Lib.PyStr
import SonicBuildimage.Lib.Run

namespace SonicBuildimage.Radius

open SonicBuildimage.Lib

/-! ## Levels -/

/-- `(int) strtol(s, NULL, 10)` -/
def atoi (s : String) : Int :=
  let digits := fun cs : List Char =>
    ((cs.takeWhile Char.isDigit).foldl (fun n c => 10 * n + (c.toNat - 48)) 0 : Nat)
  let number : Int :=
    match s.toList.dropWhile fun c => c = ' ' || ('\t' ≤ c && c ≤ '\r') with
    | '-' :: cs => - digits cs
    | '+' :: cs => digits cs
    | cs => digits cs
  Int.bmod (max (- 2 ^ 63) (min number (2 ^ 63 - 1))) (2 ^ 32)

def radiusMinMpl : Nat := 1

def radiusMaxMpl : Nat := 15

/-- The level for a number; one that is out of range counts as the lowest. -/
def mplOf (n : Int) : Nat :=
  if (radiusMinMpl : Int) ≤ n ∧ n ≤ radiusMaxMpl then n.toNat else radiusMinMpl

theorem mplOf_mplOf (n : Int) : mplOf (mplOf n) = mplOf n := by
  have hrange : radiusMinMpl ≤ mplOf n ∧ mplOf n ≤ radiusMaxMpl := by
    unfold mplOf radiusMinMpl radiusMaxMpl
    split <;> omega
  rw [mplOf, if_pos ⟨by omega, by omega⟩]
  rfl

/-- `RADIUS_NSS_MPL`, as far as it is used for accounts of their own. -/
structure RadiusNssMpl where
  groups : List String
  shell : String

structure RadiusNssConf where
  allowAnonymous : Bool
  unconfirmedAgeout : Int
  unconfirmedClearLimit : Nat
  rnm : Nat → RadiusNssMpl

/-- `(conf->rnm)[mpl-1]` -/
def RadiusNssConf.level (conf : RadiusNssConf) (mpl : Nat) : RadiusNssMpl := conf.rnm (mpl - 1)

/-! ## Accounts -/

structure Account where
  uid : Nat
  gecos : String
  dir : String
  shell : String
  groups : List String
  deriving DecidableEq

/-- /etc/passwd; a name is there once. -/
structure Passwd where
  entries : Dict String Account
  nodup : (Dict.keys entries).Nodup

namespace Passwd

/-- `radius_getpwnam_r` -/
def getpwnam (p : Passwd) (name : String) : Option Account := Dict.get? p.entries name

def put (p : Passwd) (name : String) (a : Account) : Passwd :=
  ⟨Dict.set p.entries name a, Dict.keys_set_nodup p.nodup _ _⟩

def delete (p : Passwd) (name : String) : Passwd :=
  ⟨Dict.erase p.entries name, Dict.keys_filter_nodup p.nodup _⟩

end Passwd

/-- `strncmp(gecos, "Unconfirmed-", 12) == 0` -/
def unconfirmed (gecos : String) : Bool := startswith gecos "Unconfirmed-"

/-- The commands, with their arguments. -/
inductive Command where
  | useradd (groups : List String) (comment home shell name : String)
  | usermod (groups : List String) (comment name : String)
  | userdel (name : String)

def Command.name : Command → String
  | .useradd _ _ _ _ name => name
  | .usermod _ _ name => name
  | .userdel name => name

/-- How a command ends: with status 0, or with another status and without or with its effect. -/
inductive Outcome where
  | done
  | failed
  | failedDone
  deriving DecidableEq

structure Sys where
  passwd : Passwd
  /-- the number in the cache file of a user -/
  cache : String → Option Int
  /-- whether a run of cache_radius for the account counts since it was created -/
  served : String → Bool
  /-- the accounts that were deleted although one did -/
  lost : List String

namespace Sys

def getpwnam (s : Sys) (name : String) : Option Account := s.passwd.getpwnam name

/-- useradd wants a new name, the others an old one. -/
def accepts (s : Sys) : Command → Bool
  | .useradd _ _ _ _ name => (s.getpwnam name).isNone
  | .usermod _ _ name => (s.getpwnam name).isSome
  | .userdel name => (s.getpwnam name).isSome

/-- What a command does; `uid` is the user id that useradd takes. -/
def effect (s : Sys) (uid : Nat) : Command → Sys
  | .useradd groups comment home shell name =>
    { s with
      passwd := s.passwd.put name ⟨uid, comment, home, shell, groups⟩
      served := Function.update s.served name false }
  | .usermod groups comment name =>
    match s.getpwnam name with
    | none => s
    | some a => { s with passwd := s.passwd.put name { a with gecos := comment, groups := groups } }
  | .userdel name =>
    { s with
      passwd := s.passwd.delete name
      served := Function.update s.served name false
      lost := if s.served name then s.lost ++ [name] else s.lost }

def exec (s : Sys) (c : Command) (o : Outcome) (uid : Nat) : Sys :=
  if s.accepts c = true ∧ o ≠ .failed then s.effect uid c else s

/-- The exit status is 0. -/
def succeeds (s : Sys) (c : Command) (o : Outcome) : Bool := s.accepts c && o = .done

/-- `radius_lookup_cache` -/
def lookupCache (s : Sys) (nam : String) : Option Nat := (s.cache nam).map mplOf

/-- `radius_update_cache` -/
def updateCache (s : Sys) (nam : String) (mpl : Nat) : Sys :=
  { s with cache := Function.update s.cache nam (some mpl) }

end Sys

/-! ## Lookups, logins and clean-ups -/

/-- A program that works on the system, with the commands it has issued and their success. -/
structure Job where
  sys : Sys
  issued : List (Command × Bool)

def Job.run (j : Job) (c : Command) (o : Outcome) (uid : Nat) : Job :=
  ⟨j.sys.exec c o uid, j.issued ++ [(c, j.sys.succeeds c o)]⟩

/-- How useradd or usermod ends in a job, the user id for useradd, and the time. -/
structure AccountEnv where
  outcome : Outcome
  uid : Nat
  now : Int

/-- `radius_create_user`; no caller looks at its status. -/
def createUser (conf : RadiusNssConf) (env : AccountEnv) (j : Job) (user : String) (mpl : Nat)
    (radiusUnconfirmed : Bool) : Job :=
  let rnm := conf.level mpl
  if 32 < user.utf8ByteSize then j
  else
    let comment := if radiusUnconfirmed then "Unconfirmed-" ++ toString env.now else user
    j.run (.useradd rnm.groups comment ("/home/" ++ user) rnm.shell user) env.outcome env.uid

/-- `radius_update_user`; no caller looks at its status. -/
def updateUser (conf : RadiusNssConf) (env : AccountEnv) (j : Job) (user : String) (mpl : Nat) :
    Job :=
  match j.sys.getpwnam user with
  | none => createUser conf env j user mpl false
  | some a =>
    if a.uid ≤ 1000 then j
    else j.run (.usermod (conf.level mpl).groups user user) env.outcome env.uid

/-- The account is unconfirmed and old enough. -/
def aged (conf : RadiusNssConf) (curr : Int) (a : Account) : Bool :=
  let ts := atoi (dropLen a.gecos "Unconfirmed-")
  unconfirmed a.gecos && ts ≠ 0 && conf.unconfirmedAgeout ≤ curr - ts

/-- `radius_clear_unconfirmed_users`, and whether its status is 0. -/
def clearUnconfirmedUsers (conf : RadiusNssConf) (curr : Int) (o : Outcome) (j : Job) :
    Job × Bool :=
  match j.sys.passwd.entries.find? fun e => aged conf curr e.2 with
  | none => (j, false)
  | some e => (j.run (.userdel e.1) o 0, j.sys.succeeds (.userdel e.1) o)

/-- The loop of `main`; `clears` has the time and the outcome for each call. -/
def clearLoop (conf : RadiusNssConf) (clears : Nat → Int × Outcome) (limit : Nat) (j : Job) : Job :=
  let r := clearUnconfirmedUsers conf (clears limit).1 (clears limit).2 j
  if r.2 then
    match limit with
    | 0 => r.1
    | limit + 1 => clearLoop conf clears limit r.1
  else r.1

/-- A call of cache_radius: its environment, its option and what it meets. -/
structure Login where
  pamUser : String
  privilege : Option String
  noClearUnconfirmed : Bool
  env : AccountEnv
  clears : Nat → Int × Outcome

namespace Login

def mpl (l : Login) : Nat :=
  match l.privilege with
  | none => radiusMinMpl
  | some privilege => mplOf (atoi privilege)

/-- The account has to be brought up to date. -/
def refresh (s : Sys) (l : Login) : Bool :=
  s.lookupCache l.pamUser ≠ some l.mpl || (s.getpwnam l.pamUser).isNone

end Login

/-- How a program ends. -/
structure Exit where
  status : Nat
  job : Job

def statusEnoent : Nat := 2

/-- `main` of cache_radius -/
def cacheRadius (conf : RadiusNssConf) (s : Sys) (l : Login) : Exit :=
  if l.pamUser = "" then ⟨statusEnoent, s, []⟩
  else
    let job :=
      if l.refresh s then
        updateUser conf l.env ⟨s.updateCache l.pamUser l.mpl, []⟩ l.pamUser l.mpl
      else ⟨s, []⟩
    ⟨0, if l.noClearUnconfirmed then job
      else clearLoop conf l.clears conf.unconfirmedClearLimit job⟩

/-- A call of `_nss_radius_getpwnam_r`; `locked` says whether it gets the lock, and `sshd` what
    `is_sshd_lookup` says. -/
structure Lookup where
  nam : String
  locked : Bool
  sshd : Bool
  env : AccountEnv

/-- `_nss_radius_getpwnam_r` -/
def nssRadiusGetpwnam (conf : RadiusNssConf) (s : Sys) (k : Lookup) : Sys × Option Account :=
  let allowAnonymous := conf.allowAnonymous && k.locked
  if k.nam = "*" then (s, none)
  else
    match s.lookupCache k.nam with
    | some mpl =>
      if allowAnonymous then
        let s' := (createUser conf k.env ⟨s, []⟩ k.nam mpl false).sys
        (s', s'.getpwnam k.nam)
      else (s, none)
    | none =>
      if allowAnonymous && k.sshd then
        let s' := (createUser conf k.env ⟨s, []⟩ k.nam radiusMinMpl true).sys
        (s', s'.getpwnam k.nam)
      else (s, none)

/-! ## Runs -/

inductive Event where
  | lookup (k : Lookup)
  | login (l : Login)
  | clear (curr : Int) (o : Outcome)

/-- The run counts: it ends with status 0, all its commands succeed, and the user is not one of the
    reserved accounts. -/
def counts (conf : RadiusNssConf) (s : Sys) (l : Login) : Bool :=
  let r := cacheRadius conf s l
  r.status = 0 && r.job.issued.all (·.2) && (s.getpwnam l.pamUser).all (1000 < ·.uid)

def next (conf : RadiusNssConf) (s : Sys) : Event → Option Sys
  | .lookup k => some (nssRadiusGetpwnam conf s k).1
  | .login l =>
    let s' := (cacheRadius conf s l).job.sys
    some { s' with
      served := if counts conf s l then Function.update s'.served l.pamUser true else s'.served }
  | .clear curr o => some (clearUnconfirmedUsers conf curr o ⟨s, []⟩).1.sys

def Step (conf : RadiusNssConf) (s : Sys) (e : Event) (s' : Sys) : Prop := next conf s e = some s'

theorem step_next (conf : RadiusNssConf) (s : Sys) (e : Event) (s' : Sys)
    (h : next conf s e = some s') : Step conf s e s' := h

/-- At first nothing is cached. -/
def start (passwd : Passwd) : Sys := ⟨passwd, fun _ => none, fun _ => false, []⟩

/-- The name can be that of a new account and is not taken for a mark, and a usermod succeeds. -/
def Login.Fit (s : Sys) (l : Login) : Prop :=
  unconfirmed l.pamUser = false ∧
    (s.getpwnam l.pamUser = none → l.pamUser.utf8ByteSize ≤ 32) ∧
    ∀ a ∈ s.getpwnam l.pamUser, l.refresh s = true → 1000 < a.uid → l.env.outcome = .done

def Ok (s : Sys) : Event → Prop
  | .login l => l.Fit s
  | _ => True

instance (s : Sys) (e : Event) : Decidable (Ok s e) :=
  match e with
  | .lookup _ => isTrue trivial
  | .clear _ _ => isTrue trivial
  | .login l => inferInstanceAs (Decidable (_ ∧ (_ → _) ∧ ∀ a ∈ s.getpwnam l.pamUser, _))

/-- The account exists, is confirmed and has the groups of a level. -/
def Entitled (conf : RadiusNssConf) (s : Sys) (user : String) (mpl : Nat) : Prop :=
  ∃ a, s.getpwnam user = some a ∧ unconfirmed a.gecos = false ∧ a.groups = (conf.level mpl).groups

/-! ## What a command changes -/

namespace Sys

theorem cache_updateCache_self (s : Sys) (nam : String) (mpl : Nat) :
    (s.updateCache nam mpl).cache nam = some (mpl : Int) := Function.update_self _ _ _

theorem cache_exec (s : Sys) (c : Command) (o : Outcome) (uid : Nat) :
    (s.exec c o uid).cache = s.cache := by
  unfold exec
  split
  · cases c with
    | useradd groups comment home shell name => rfl
    | usermod groups comment name =>
      unfold effect
      dsimp only
      split <;> rfl
    | userdel name => rfl
  · rfl

theorem getpwnam_exec_ne (s : Sys) {c : Command} (o : Outcome) (uid : Nat) {name : String}
    (h : c.name ≠ name) : (s.exec c o uid).getpwnam name = s.getpwnam name := by
  unfold exec
  split
  · cases c with
    | useradd groups comment home shell name' => exact Dict.get?_set_ne _ _ h
    | usermod groups comment name' =>
      unfold effect
      dsimp only
      split
      · rfl
      · exact Dict.get?_set_ne _ _ h
    | userdel name' => exact Dict.get?_erase_ne _ h
  · rfl

theorem served_exec_ne (s : Sys) {c : Command} (o : Outcome) (uid : Nat) {name : String}
    (h : c.name ≠ name) : (s.exec c o uid).served name = s.served name := by
  unfold exec
  split
  · cases c with
    | useradd groups comment home shell name' => exact Function.update_of_ne (Ne.symm h) _ _
    | usermod groups comment name' =>
      unfold effect
      dsimp only
      split <;> rfl
    | userdel name' => exact Function.update_of_ne (Ne.symm h) _ _
  · rfl

/-- useradd for a name that is free: it fails, or there is a new account. -/
theorem exec_useradd {s : Sys} {name : String} (h : s.getpwnam name = none) (groups : List String)
    (comment home shell : String) (o : Outcome) (uid : Nat) :
    s.exec (.useradd groups comment home shell name) o uid =
      if o = .failed then s
      else s.effect uid (.useradd groups comment home shell name) := by
  rw [exec, accepts, h]
  by_cases ho : o = .failed
  · rw [if_neg (fun hand => hand.2 ho), if_pos ho]
  · rw [if_pos ⟨rfl, ho⟩, if_neg ho]

theorem exec_useradd_of_some {s : Sys} {name : String} {a : Account}
    (h : s.getpwnam name = some a) (groups : List String) (comment home shell : String)
    (o : Outcome) (uid : Nat) : s.exec (.useradd groups comment home shell name) o uid = s := by
  rw [exec, accepts, h]
  exact if_neg (by simp)

theorem getpwnam_effect_useradd (s : Sys) (groups : List String)
    (comment home shell name : String) (uid : Nat) :
    (s.effect uid (.useradd groups comment home shell name)).getpwnam name =
      some ⟨uid, comment, home, shell, groups⟩ := Dict.get?_set_self _ _ _

theorem exec_usermod_done {s : Sys} {name : String} {a : Account} (h : s.getpwnam name = some a)
    (groups : List String) (comment : String) (uid : Nat) :
    s.exec (.usermod groups comment name) .done uid =
      { s with passwd := s.passwd.put name { a with gecos := comment, groups := groups } } := by
  rw [exec, accepts, h, if_pos ⟨rfl, by decide⟩, effect, h]

end Sys

/-! ## The invariant -/

/-- What is cached for a user is what the account has. -/
def Consistent (conf : RadiusNssConf) (s : Sys) (user : String) : Prop :=
  ∀ n, s.cache user = some n → ∀ a, s.getpwnam user = some a → 1000 < a.uid →
    unconfirmed a.gecos = false ∧ a.groups = (conf.level (mplOf n)).groups

/-- The account is there and confirmed. -/
def Confirmed (s : Sys) (user : String) : Prop :=
  ∃ a, s.getpwnam user = some a ∧ unconfirmed a.gecos = false

structure Inv (conf : RadiusNssConf) (s : Sys) : Prop where
  consistent : ∀ user, Consistent conf s user
  named : ∀ user n, s.cache user = some n → unconfirmed user = false
  served : ∀ user, s.served user = true → Confirmed s user
  lost : s.lost = []

theorem inv_start (conf : RadiusNssConf) (passwd : Passwd) : Inv conf (start passwd) where
  consistent _ n hn := absurd hn (by simp [start])
  named _ n hn := absurd hn (by simp [start])
  served _ h := absurd h (by simp [start])
  lost := rfl

section OneUser

variable {conf : RadiusNssConf} {s s' : Sys} {user : String}

/-- Nothing is different for the others. -/
structure SameBut (user : String) (s s' : Sys) : Prop where
  cache : ∀ u, u ≠ user → s'.cache u = s.cache u
  getpwnam : ∀ u, u ≠ user → s'.getpwnam u = s.getpwnam u
  served : ∀ u, u ≠ user → s'.served u = s.served u

/-- The invariant has to be looked at only for the user that is worked on. -/
theorem Inv.of_sameBut (h : Inv conf s) (hsame : SameBut user s s')
    (hcons : Consistent conf s' user)
    (hnamed : ∀ n, s'.cache user = some n → unconfirmed user = false)
    (hserved : s'.served user = true → Confirmed s' user) (hlost : s'.lost = []) :
    Inv conf s' where
  consistent u := by
    by_cases hu : u = user
    · rw [hu]
      exact hcons
    · unfold Consistent
      rw [hsame.cache u hu, hsame.getpwnam u hu]
      exact h.consistent u
  named u := by
    by_cases hu : u = user
    · rw [hu]
      exact hnamed
    · rw [hsame.cache u hu]
      exact h.named u
  served u := by
    by_cases hu : u = user
    · rw [hu]
      exact hserved
    · unfold Confirmed
      rw [hsame.served u hu, hsame.getpwnam u hu]
      exact h.served u
  lost := hlost

theorem sameBut_exec (s : Sys) (c : Command) (o : Outcome) (uid : Nat) :
    SameBut c.name s (s.exec c o uid) where
  cache u _ := by rw [Sys.cache_exec]
  getpwnam u hu := s.getpwnam_exec_ne o uid (Ne.symm hu)
  served u hu := s.served_exec_ne o uid (Ne.symm hu)

theorem sameBut_updateCache (s : Sys) (user : String) (mpl : Nat) :
    SameBut user s (s.updateCache user mpl) where
  cache _ hu := Function.update_of_ne hu _ _
  getpwnam _ _ := rfl
  served _ _ := rfl

theorem SameBut.trans {s'' : Sys} (h : SameBut user s s') (h' : SameBut user s' s'') :
    SameBut user s s'' where
  cache u hu := (h'.cache u hu).trans (h.cache u hu)
  getpwnam u hu := (h'.getpwnam u hu).trans (h.getpwnam u hu)
  served u hu := (h'.served u hu).trans (h.served u hu)

end OneUser

/-! ## Creating and adjusting -/

section Account

variable {conf : RadiusNssConf} {env : AccountEnv} {s : Sys} {user : String} {mpl : Nat}

/-- useradd, when the others and the name of the user are in order. -/
theorem Inv.useradd {s₀ : Sys} (h : Inv conf s₀) (hsame : SameBut user s₀ s)
    (hnone : s.getpwnam user = none) (hnew : s.served user = false) (hlost : s.lost = [])
    (hnamed : ∀ n, s.cache user = some n → unconfirmed user = false) {groups : List String}
    {comment home shell : String}
    (hcache : ∀ n, s.cache user = some n →
      unconfirmed comment = false ∧ groups = (conf.level (mplOf n)).groups)
    (o : Outcome) (uid : Nat) :
    Inv conf (s.exec (.useradd groups comment home shell user) o uid) := by
  have hexec := Sys.exec_useradd hnone groups comment home shell o uid
  have hsame' := hsame.trans (sameBut_exec s (.useradd groups comment home shell user) o uid)
  rw [hexec] at hsame' ⊢
  split
  · next hfailed =>
    -- the command failed, and there is no account yet
    rw [if_pos hfailed] at hsame'
    refine h.of_sameBut hsame' ?_ hnamed ?_ hlost
    · intro n _ a ha
      rw [hnone] at ha
      cases ha
    · intro hserved
      rw [hnew] at hserved
      cases hserved
  · next hfailed =>
    rw [if_neg hfailed] at hsame'
    refine h.of_sameBut hsame' ?_ hnamed ?_ hlost
    · intro n hn a ha _
      rw [Sys.getpwnam_effect_useradd] at ha
      cases ha
      exact hcache n hn
    · intro hserved
      have hfalse : (s.effect uid (.useradd groups comment home shell user)).served user = false :=
        Function.update_self _ _ _
      rw [hfalse] at hserved
      cases hserved

theorem Inv.not_served (h : Inv conf s) (hnone : s.getpwnam user = none) :
    s.served user = false := by
  by_contra hserved
  obtain ⟨a, ha, _⟩ := h.served user (Bool.eq_true_of_not_eq_false hserved)
  rw [hnone] at ha
  cases ha

/-- A lookup by NSS creates the account of the level that is cached, if one is. -/
theorem Inv.createUser (h : Inv conf s) {radiusUnconfirmed : Bool}
    (hcache : ∀ n, s.cache user = some n → mpl = mplOf n ∧ radiusUnconfirmed = false) :
    Inv conf (Radius.createUser conf env ⟨s, []⟩ user mpl radiusUnconfirmed).sys := by
  unfold Radius.createUser
  dsimp only
  split
  · exact h
  · cases hget : s.getpwnam user with
    | some a =>
      rw [Job.run, Sys.exec_useradd_of_some hget]
      exact h
    | none =>
      refine h.useradd ⟨fun _ _ => rfl, fun _ _ => rfl, fun _ _ => rfl⟩ hget (h.not_served hget)
        h.lost (h.named user) ?_ _ _
      intro n hn
      obtain ⟨hmpl, hconfirmed⟩ := hcache n hn
      rw [hconfirmed, hmpl]
      exact ⟨h.named user n hn, rfl⟩

/-- The account of a login is brought up to date after its level was cached. -/
theorem Inv.updateUser (h : Inv conf s) (hname : unconfirmed user = false)
    (hmpl : mplOf mpl = mpl)
    (hok : ∀ a, s.getpwnam user = some a → 1000 < a.uid → env.outcome = .done) :
    Inv conf (Radius.updateUser conf env ⟨s.updateCache user mpl, []⟩ user mpl).sys := by
  have hsame := sameBut_updateCache s user mpl
  have hget' : (s.updateCache user mpl).getpwnam user = s.getpwnam user := rfl
  have hlevel : ∀ n, (s.updateCache user mpl).cache user = some n → mplOf n = mpl := by
    intro n hn
    have hn' : some (mpl : Int) = some n := by
      rw [← hn, Sys.cache_updateCache_self]
    rw [← Option.some.inj hn']
    exact hmpl
  unfold Radius.updateUser
  dsimp only
  rw [hget']
  cases hget : s.getpwnam user with
  | none =>
    unfold Radius.createUser
    dsimp only
    split
    · refine h.of_sameBut hsame ?_ (fun _ _ => hname) (h.served user) h.lost
      intro n _ a ha
      rw [hget', hget] at ha
      cases ha
    · refine h.useradd hsame hget (h.not_served hget) h.lost (fun _ _ => hname) ?_ _ _
      intro n hn
      rw [hlevel n hn]
      exact ⟨hname, rfl⟩
  | some a =>
    dsimp only
    split
    · next huid =>
      refine h.of_sameBut hsame ?_ (fun _ _ => hname) (h.served user) h.lost
      intro n _ a' ha' huid'
      rw [hget', hget] at ha'
      cases ha'
      omega
    · next huid =>
      have hexec := Sys.exec_usermod_done (s := s.updateCache user mpl) (hget'.trans hget)
        (conf.level mpl).groups user env.uid
      have hsame' := hsame.trans (sameBut_exec _ (.usermod (conf.level mpl).groups user user) .done
        env.uid)
      rw [Job.run, hok a hget (by omega)]
      rw [hexec] at hsame' ⊢
      have hnew := Dict.get?_set_self (s.updateCache user mpl).passwd.entries user
        { a with gecos := user, groups := (conf.level mpl).groups }
      refine h.of_sameBut hsame' ?_ (fun _ _ => hname) ?_ h.lost
      · intro n hn a' ha' _
        rw [Option.some.inj (ha'.symm.trans hnew), hlevel n hn]
        exact ⟨hname, rfl⟩
      · intro _
        exact ⟨_, hnew, hname⟩

end Account

/-! ## The clean-up -/

/-- The entry that is deleted is that of an unconfirmed account. -/
theorem unconfirmed_of_find {conf : RadiusNssConf} {curr : Int} {p : Passwd}
    {e : String × Account} (h : p.entries.find? (fun e => aged conf curr e.2) = some e) :
    p.getpwnam e.1 = some e.2 ∧ unconfirmed e.2.gecos = true := by
  have haged := List.find?_some h
  unfold aged at haged
  simp only [Bool.and_eq_true] at haged
  refine ⟨?_, haged.1.1⟩
  rw [Passwd.getpwnam, Dict.get?_eq_some_iff p.nodup]
  exact List.mem_of_find?_eq_some h

/-- A confirmed account stays as it is. -/
theorem getpwnam_clear {conf : RadiusNssConf} (curr : Int) (o : Outcome) {j : Job} {user : String}
    {a : Account} (hget : j.sys.getpwnam user = some a) (ha : unconfirmed a.gecos = false) :
    (clearUnconfirmedUsers conf curr o j).1.sys.getpwnam user = some a := by
  unfold clearUnconfirmedUsers
  split
  · exact hget
  · next e he =>
    obtain ⟨hentry, hmarked⟩ := unconfirmed_of_find he
    have hne : e.1 ≠ user := by
      intro heq
      rw [heq] at hentry
      rw [Option.some.inj (hentry.symm.trans hget), ha] at hmarked
      cases hmarked
    exact (j.sys.getpwnam_exec_ne o 0 (c := .userdel e.1) hne).trans hget

theorem Inv.clear {conf : RadiusNssConf} {j : Job} (h : Inv conf j.sys) (curr : Int)
    (o : Outcome) : Inv conf (clearUnconfirmedUsers conf curr o j).1.sys := by
  unfold clearUnconfirmedUsers
  split
  · exact h
  · next e he =>
    obtain ⟨hentry, hmarked⟩ := unconfirmed_of_find he
    have hnot : j.sys.served e.1 = false := by
      by_contra hserved
      obtain ⟨a, ha, hconf⟩ := h.served e.1 (Bool.eq_true_of_not_eq_false hserved)
      rw [Option.some.inj (ha.symm.trans hentry), hmarked] at hconf
      cases hconf
    have hsame : SameBut e.1 j.sys _ := sameBut_exec j.sys (.userdel e.1) o 0
    rw [Job.run]
    dsimp only
    unfold Sys.exec at hsame ⊢
    split
    · next hexec =>
      rw [if_pos hexec] at hsame
      have hgone : (j.sys.effect 0 (.userdel e.1)).getpwnam e.1 = none := Dict.get?_erase_self _ _
      refine h.of_sameBut hsame ?_ (h.named e.1) ?_ ?_
      · intro n _ a ha
        rw [hgone] at ha
        cases ha
      · intro hserved
        have hfalse : (j.sys.effect 0 (.userdel e.1)).served e.1 = false :=
          Function.update_self _ _ _
        rw [hfalse] at hserved
        cases hserved
      · rw [Sys.effect, hnot]
        exact h.lost
    · exact h

section Loop

variable {conf : RadiusNssConf} {clears : Nat → Int × Outcome}

/-- What every call of the clean-up keeps, the loop keeps. -/
theorem clearLoop_keeps {P : Job → Prop}
    (hstep : ∀ j curr o, P j → P (clearUnconfirmedUsers conf curr o j).1) {limit : Nat} {j : Job}
    (h : P j) : P (clearLoop conf clears limit j) := by
  induction limit generalizing j with
  | zero =>
    unfold clearLoop
    dsimp only
    split <;> exact hstep j _ _ h
  | succ limit ih =>
    unfold clearLoop
    dsimp only
    split
    · exact ih (hstep j _ _ h)
    · exact hstep j _ _ h

theorem Entitled.clear {j : Job} {user : String} {mpl : Nat} (h : Entitled conf j.sys user mpl)
    (curr : Int) (o : Outcome) :
    Entitled conf (clearUnconfirmedUsers conf curr o j).1.sys user mpl := by
  obtain ⟨a, ha, hconf, hgroups⟩ := h
  exact ⟨a, getpwnam_clear curr o ha hconf, hconf, hgroups⟩

/-- The commands that were issued before stay in the list. -/
theorem issued_clear {c : Command × Bool} {j : Job} (h : c ∈ j.issued) (curr : Int) (o : Outcome) :
    c ∈ (clearUnconfirmedUsers conf curr o j).1.issued := by
  unfold clearUnconfirmedUsers
  split
  · exact h
  · exact List.mem_append_left _ h

end Loop

/-! ## Runs -/

section Login

variable {conf : RadiusNssConf} {s : Sys} {l : Login}

theorem mplOf_mpl (l : Login) : mplOf l.mpl = l.mpl := by
  unfold Login.mpl
  split
  · rfl
  · exact mplOf_mplOf _

/-- The job of a login before the clean-up. -/
def accountJob (conf : RadiusNssConf) (s : Sys) (l : Login) : Job :=
  if l.refresh s then updateUser conf l.env ⟨s.updateCache l.pamUser l.mpl, []⟩ l.pamUser l.mpl
  else ⟨s, []⟩

/-- What the job has before the clean-up, and every call of the clean-up keeps, it has in the
    end. -/
theorem cacheRadius_keeps {P : Job → Prop} (huser : l.pamUser ≠ "")
    (hstep : ∀ j curr o, P j → P (clearUnconfirmedUsers conf curr o j).1)
    (h : P (accountJob conf s l)) : P (cacheRadius conf s l).job := by
  rw [cacheRadius, if_neg huser]
  dsimp only
  split
  · exact h
  · exact clearLoop_keeps hstep h

theorem Inv.cacheRadius (h : Inv conf s) (hok : Ok s (.login l)) :
    Inv conf (Radius.cacheRadius conf s l).job.sys := by
  obtain ⟨hname, _, hdone⟩ := hok
  by_cases huser : l.pamUser = ""
  · rw [Radius.cacheRadius, if_pos huser]
    exact h
  · refine cacheRadius_keeps (P := fun j => Inv conf j.sys) huser
      (fun j curr o hj => hj.clear curr o) ?_
    unfold accountJob
    split
    · next hrefresh =>
      exact h.updateUser hname (mplOf_mpl l) fun a ha huid => hdone a ha hrefresh huid
    · exact h

/-- The account after the level was cached, when the command for it succeeded. -/
theorem entitled_updateUser (hok : Ok s (.login l))
    (huid : ∀ a, s.getpwnam l.pamUser = some a → 1000 < a.uid)
    (hissued : ∀ c ∈ (updateUser conf l.env ⟨s.updateCache l.pamUser l.mpl, []⟩ l.pamUser
      l.mpl).issued, c.2 = true) :
    Entitled conf (updateUser conf l.env ⟨s.updateCache l.pamUser l.mpl, []⟩ l.pamUser l.mpl).sys
      l.pamUser l.mpl := by
  obtain ⟨hname, hlength, _⟩ := hok
  have hget' : (s.updateCache l.pamUser l.mpl).getpwnam l.pamUser = s.getpwnam l.pamUser := rfl
  unfold updateUser at hissued ⊢
  dsimp only at hissued ⊢
  rw [hget'] at hissued ⊢
  cases hget : s.getpwnam l.pamUser with
  | none =>
    have hshort := hlength hget
    rw [hget] at hissued
    unfold createUser at hissued ⊢
    dsimp only at hissued ⊢
    rw [if_neg (by omega)] at hissued ⊢
    have hsucc := hissued _ (List.mem_append_right _ List.mem_cons_self)
    rw [Sys.succeeds, Bool.and_eq_true, decide_eq_true_eq] at hsucc
    rw [Job.run, Sys.exec_useradd (hget'.trans hget), hsucc.2]
    exact ⟨_, Sys.getpwnam_effect_useradd _ _ _ _ _ _ _, hname, rfl⟩
  | some a =>
    rw [hget] at hissued
    dsimp only at hissued ⊢
    have hlarge := huid a hget
    rw [if_neg (by omega)] at hissued ⊢
    have hsucc := hissued _ (List.mem_append_right _ List.mem_cons_self)
    rw [Sys.succeeds, Bool.and_eq_true, decide_eq_true_eq] at hsucc
    rw [Job.run, hsucc.2, Sys.exec_usermod_done (hget'.trans hget)]
    exact ⟨_, Dict.get?_set_self _ _ _, hname, rfl⟩

/-- Where nothing has to be done, the account was in order. -/
theorem entitled_of_not_refresh (h : Inv conf s)
    (huid : ∀ a, s.getpwnam l.pamUser = some a → 1000 < a.uid) (hrefresh : ¬ l.refresh s = true) :
    Entitled conf s l.pamUser l.mpl := by
  unfold Login.refresh at hrefresh
  simp only [Bool.or_eq_true, decide_eq_true_eq, not_or, not_not, Option.isNone_iff_eq_none]
    at hrefresh
  obtain ⟨hcached, hsome⟩ := hrefresh
  obtain ⟨n, hn, hmpl⟩ := Option.map_eq_some_iff.1 hcached
  obtain ⟨a, ha⟩ := Option.ne_none_iff_exists'.1 hsome
  have hcons := h.consistent l.pamUser n hn a ha (huid a ha)
  rw [hmpl] at hcons
  exact ⟨a, ha, hcons⟩

/-- A run that counts leaves the account in order. -/
theorem entitled_of_counts (h : Inv conf s) (hok : Ok s (.login l))
    (hcounts : counts conf s l = true) :
    Entitled conf (cacheRadius conf s l).job.sys l.pamUser l.mpl := by
  unfold counts at hcounts
  simp only [Bool.and_eq_true, decide_eq_true_eq, List.all_eq_true, Option.all_eq_true] at hcounts
  obtain ⟨⟨hstatus, hissued⟩, huid⟩ := hcounts
  have huser : l.pamUser ≠ "" := by
    intro heq
    rw [cacheRadius, if_pos heq] at hstatus
    exact absurd hstatus (show statusEnoent ≠ 0 by decide)
  have hissued' : ∀ c ∈ (accountJob conf s l).issued, c.2 = true := by
    intro c hc
    exact hissued c (cacheRadius_keeps (P := fun j => c ∈ j.issued) huser
      (fun j curr o hj => issued_clear hj curr o) hc)
  refine cacheRadius_keeps (P := fun j => Entitled conf j.sys l.pamUser l.mpl) huser
    (fun j curr o hj => hj.clear curr o) ?_
  unfold accountJob at hissued' ⊢
  split
  · next hrefresh =>
    rw [if_pos hrefresh] at hissued'
    exact entitled_updateUser hok huid hissued'
  · next hrefresh =>
    exact entitled_of_not_refresh h huid hrefresh

end Login

theorem Inv.lookup {conf : RadiusNssConf} {s : Sys} (h : Inv conf s) (k : Lookup) :
    Inv conf (nssRadiusGetpwnam conf s k).1 := by
  unfold nssRadiusGetpwnam
  dsimp only
  split
  · exact h
  · split
    · next mpl hcached =>
      split
      · refine h.createUser fun n hn => ?_
        rw [Sys.lookupCache, hn] at hcached
        exact ⟨(Option.some.inj hcached).symm, rfl⟩
      · exact h
    · next hcached =>
      split
      · refine h.createUser fun n hn => ?_
        rw [Sys.lookupCache, hn] at hcached
        cases hcached
      · exact h

theorem Inv.step {conf : RadiusNssConf} {s s' : Sys} {e : Event} (h : Inv conf s) (hok : Ok s e)
    (hstep : Step conf s e s') : Inv conf s' := by
  unfold Step next at hstep
  cases e with
  | lookup k =>
    cases hstep
    exact h.lookup k
  | clear curr o =>
    cases hstep
    exact Inv.clear (j := ⟨s, []⟩) h curr o
  | login l =>
    cases hstep
    have h' := h.cacheRadius hok
    refine ⟨h'.consistent, h'.named, fun user hserved => ?_, h'.lost⟩
    dsimp only at hserved
    split at hserved
    · next hcounts =>
      by_cases hu : user = l.pamUser
      · obtain ⟨a, ha, hconf, _⟩ := entitled_of_counts h hok hcounts
        rw [hu]
        exact ⟨a, ha, hconf⟩
      · rw [Function.update_of_ne hu] at hserved
        exact h'.served user hserved
    · exact h'.served user hserved

/-- A login whose run counts leaves the account with the groups of its level and confirmed, and no
    clean-up deletes an account for which a run counts. -/
theorem privilege_of_run (conf : RadiusNssConf) (passwd : Passwd) {es : List Event} {s : Sys}
    (hrun : Run (Step conf) Ok (start passwd) es s) :
    (∀ l, Ok s (.login l) → counts conf s l = true →
      Entitled conf (cacheRadius conf s l).job.sys l.pamUser l.mpl) ∧
    s.lost = [] := by
  have hinv : Inv conf s :=
    hrun.invariant (fun _ _ _ h hok hstep => h.step hok hstep) (inv_start conf passwd)
  exact ⟨fun l hok hcounts => entitled_of_counts hinv hok hcounts, hinv.lost⟩

/-- The levels that are there without a configuration. -/
def sampleConf : RadiusNssConf where
  allowAnonymous := true
  unconfirmedAgeout := 600
  unconfirmedClearLimit := 10
  rnm i := ⟨if i = 14 then ["admin", "sudo", "docker"] else ["docker"],
    "/usr/bin/sonic-launch-shell"⟩

def samplePasswd : Passwd where
  entries := [("admin", ⟨1000, "", "/home/admin", "/bin/bash", ["sudo"]⟩)]
  nodup := by decide

/-- sshd looks a new user up before the authentication. -/
def sampleLookup : Lookup := ⟨"alice", true, true, ⟨.done, 1001, 1000⟩⟩

/-- A login at the highest level, with the way its command ends. -/
def sampleLogin (o : Outcome) : Login := ⟨"alice", some "15", false, ⟨o, 1001, 1002⟩,
  fun _ => (1002, .done)⟩

theorem privilege_granted :
    ∃ s, Run (Step sampleConf) Ok (start samplePasswd)
        [.lookup sampleLookup, .login (sampleLogin .done)] s ∧
      counts sampleConf s (sampleLogin .done) = true ∧
      Entitled sampleConf (cacheRadius sampleConf s (sampleLogin .done)).job.sys "alice" 15 ∧
      s.lost = [] := by
  refine exists_run_imp (step_next sampleConf) (fun s => Ok s (.login (sampleLogin .done)) ∧
    counts sampleConf s (sampleLogin .done) = true) (by decide +kernel) ?_
  rintro s hrun ⟨hok, hcounts⟩
  obtain ⟨hentitled, hlost⟩ := privilege_of_run sampleConf samplePasswd hrun
  exact ⟨hcounts, hentitled _ hok hcounts, hlost⟩

/-- The first login has cached the level but not adjusted the account.  For the second one there is
    nothing to do, and later the account is deleted. -/
theorem privilege_lost :
    (∃ s, Run (Step sampleConf) (fun _ _ => True) (start samplePasswd)
        [.lookup sampleLookup, .login (sampleLogin .failed)] s ∧
      counts sampleConf s (sampleLogin .done) = true ∧
      ¬ Entitled sampleConf (cacheRadius sampleConf s (sampleLogin .done)).job.sys "alice" 15) ∧
    ∃ s, Run (Step sampleConf) (fun _ _ => True) (start samplePasswd)
        [.lookup sampleLookup, .login (sampleLogin .failed), .login (sampleLogin .done),
          .clear 1700 .done] s ∧
      s.lost = ["alice"] := by
  constructor
  · obtain ⟨s, hrun, hcounts, haccount⟩ :
        ∃ s, Run (Step sampleConf) (fun _ _ => True) (start samplePasswd)
            [.lookup sampleLookup, .login (sampleLogin .failed)] s ∧
          counts sampleConf s (sampleLogin .done) = true ∧
          ((cacheRadius sampleConf s (sampleLogin .done)).job.sys.getpwnam "alice").map
            Account.gecos = some "Unconfirmed-1000" :=
      exists_run (step_next sampleConf) (by decide +kernel)
    refine ⟨s, hrun, hcounts, ?_⟩
    rintro ⟨a, ha, hconf, _⟩
    rw [ha, Option.map_some, Option.some.injEq] at haccount
    rw [haccount] at hconf
    exact absurd hconf (by decide +kernel)
  · exact exists_run (step_next sampleConf) (by decide +kernel)

end SonicBuildimage.Radius
