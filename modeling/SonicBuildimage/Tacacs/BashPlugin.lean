/-
  The TACACS+ plugin of bash: may a user run a command?

  Model.  `on_shell_execve` with the functions it calls.  A server is what the calls of libtac
  return for it: any numbers.  Besides the result the model returns the servers that were
  connected to (`asked`), in their order; the C code only counts them.  The name of a user that
  cannot be found out is `none`, for which the C code compares pointers.

  Proved: `closed_iff`, for a remote user with TACACS+ authorization.  A command is let through
  only if a server has accepted it, or local authorization is enabled and no server could be
  connected to, exactly if
  * the shell is at level 2 or below, and it is not the case that local authorization is enabled,
    no server accepts and the last one that can be connected to ends with -2;
  * or the shell is deeper, local authorization is enabled and no server can be connected to.
  -2 is also the code for "no server" (`open_protocol_error`).

  Not modelled: the attributes of the request, host and terminal, and the logs.
-/
import SonicBuildimage.Lib.PyStr

namespace SonicBuildimage.Tacacs

open SonicBuildimage.Lib

/-! ## Servers -/

/-- The results of the calls of libtac for a server. -/
structure TacServer where
  /-- `tac_connect_single` -/
  connect : Int
  /-- `tac_author_send` -/
  authorSend : Int
  /-- `tac_author_read` -/
  authorRead : Int
  /-- the status in the reply -/
  status : Int
  deriving DecidableEq

def authorStatusPassAdd : Int := 1
def authorStatusPassRepl : Int := 2

def sendAuthorizationMessage (sv : TacServer) : Int :=
  if sv.authorSend < 0 then sv.authorSend
  else if sv.authorRead < 0 then sv.authorRead
  else if sv.status = authorStatusPassAdd ∨ sv.status = authorStatusPassRepl then 0
  else 1

/-- The loop of `tacacs_authorization`: the result so far, and the servers connected to so far -/
def authorizationLoop : List TacServer → Int → List TacServer → Int × List TacServer
  | [], result, asked => (result, asked)
  | sv :: rest, result, asked =>
    if sv.connect < 0 then authorizationLoop rest result asked
    else
      let result := sendAuthorizationMessage sv
      if result ≠ 0 then authorizationLoop rest result (asked ++ [sv])
      else (result, asked ++ [sv])

def tacacsAuthorization (servers : List TacServer) : Int × List TacServer :=
  let (result, asked) := authorizationLoop servers 1 []
  if asked.length = 0 then (-2, asked) else (result, asked)

/-! ## Users -/

/-- The results of `is_local_user` -/
inductive UserCheck where
  | isLocalUser
  | isRemoteUser
  | errorCheckLocalUser
  deriving DecidableEq

/-- An entry of the user database. -/
structure Passwd where
  pwName : String
  pwGecos : String

/-- The user whose command it is: the name that bash passes, the names of the real and the
    effective user id, and the entries that `getpwent_r` gives before it fails. -/
structure UserEnv where
  user : Option String
  byUid : Option String
  byEuid : Option String
  entries : List Passwd

def getUserName (env : UserEnv) : Option String :=
  (env.user.filter fun name => name ≠ "").or (env.byUid.or env.byEuid)

def isLocalUser (entries : List Passwd) : Option String → UserCheck
  | none => .isRemoteUser
  | some user =>
    match entries.find? fun e => e.pwName = user with
    | some e => if startswith e.pwGecos "remote_user" then .isRemoteUser else .isLocalUser
    | none => .errorCheckLocalUser

/-! ## The plugin -/

/-- What is loaded from the configuration file, and the time of the file. -/
structure TacConfig where
  mtime : Int
  /-- `tacacs_ctrl` -/
  ctrl : Nat
  servers : List TacServer

def authorizationFlagLocal : Nat := 0x40
def authorizationFlagTacacs : Nat := 0x80

/-- `check_and_load_changed_tacacs_config`, where loading the file gives `file` -/
def checkAndLoadChanged (loaded file : TacConfig) : TacConfig :=
  if file.mtime = loaded.mtime then loaded else file

/-- What `on_shell_execve` returns, and the servers that were connected to. -/
structure Verdict where
  ret : Int
  asked : List TacServer

def onShellExecve (env : UserEnv) (loaded file : TacConfig) (shellLevel : Int) : Verdict :=
  if shellLevel > 2 then ⟨0, []⟩
  else
    let config := checkAndLoadChanged loaded file
    if isLocalUser env.entries (getUserName env) ≠ .isRemoteUser then ⟨0, []⟩
    else if config.ctrl &&& authorizationFlagTacacs ≠ 0 then
      let (ret, asked) := tacacsAuthorization config.servers
      if ret ≠ 0 ∧ ret ≠ -2 then ⟨ret, asked⟩
      else if config.ctrl &&& authorizationFlagLocal = 0 then ⟨ret, asked⟩
      else ⟨0, asked⟩
    else ⟨0, []⟩

/-! ## What the servers say -/

/-- The server accepts the command. -/
def TacServer.Accepts (sv : TacServer) : Prop :=
  0 ≤ sv.authorSend ∧ 0 ≤ sv.authorRead ∧
    (sv.status = authorStatusPassAdd ∨ sv.status = authorStatusPassRepl)

instance (sv : TacServer) : Decidable sv.Accepts := inferInstanceAs (Decidable (_ ∧ _))

/-- The request cannot be sent, or the answer cannot be read, and the code for it is -2. -/
def TacServer.EndsWithMinusTwo (sv : TacServer) : Prop :=
  sv.authorSend = -2 ∨ 0 ≤ sv.authorSend ∧ sv.authorRead = -2

/-- The servers that can be connected to. -/
def connected (servers : List TacServer) : List TacServer := servers.filter fun sv => 0 ≤ sv.connect

theorem sendAuthorizationMessage_eq_zero (sv : TacServer) :
    sendAuthorizationMessage sv = 0 ↔ sv.Accepts := by
  unfold sendAuthorizationMessage TacServer.Accepts
  split
  · omega
  · split
    · omega
    · split
      · next hsend hread hstatus =>
        exact ⟨fun _ => ⟨by omega, by omega, hstatus⟩, fun _ => rfl⟩
      · next hstatus =>
        exact ⟨fun h => absurd h (by decide), fun h => absurd h.2.2 hstatus⟩

theorem sendAuthorizationMessage_eq_minus_two (sv : TacServer) :
    sendAuthorizationMessage sv = -2 ↔ sv.EndsWithMinusTwo := by
  unfold sendAuthorizationMessage TacServer.EndsWithMinusTwo
  split
  · omega
  · split
    · omega
    · split
      · omega
      · omega

/-- Some server accepts: the loop ends there. -/
theorem authorizationLoop_accepts {servers : List TacServer}
    (h : ∃ sv ∈ connected servers, sv.Accepts) (result : Int) (asked : List TacServer) :
    (authorizationLoop servers result asked).1 = 0 ∧
      ∃ sv ∈ (authorizationLoop servers result asked).2, sv.Accepts := by
  induction servers generalizing result asked with
  | nil =>
    obtain ⟨sv, hsv, -⟩ := h
    exact absurd hsv List.not_mem_nil
  | cons sv servers ih =>
    obtain ⟨sv', hsv', hacc⟩ := h
    unfold connected at hsv'
    by_cases hconn : sv.connect < 0
    · rw [List.filter_cons_of_neg (by simpa using hconn)] at hsv'
      rw [authorizationLoop, if_pos hconn]
      exact ih ⟨sv', hsv', hacc⟩ result asked
    · rw [authorizationLoop, if_neg hconn]
      by_cases hzero : sendAuthorizationMessage sv = 0
      · simp only [hzero, ne_eq, not_true_eq_false, if_false]
        exact ⟨trivial, sv, by simp, (sendAuthorizationMessage_eq_zero sv).1 hzero⟩
      · simp only [ne_eq, hzero, not_false_eq_true, if_true]
        rw [List.filter_cons_of_pos (by simpa using hconn)] at hsv'
        rcases List.mem_cons.1 hsv' with rfl | hrest
        · exact absurd ((sendAuthorizationMessage_eq_zero sv').2 hacc) hzero
        · exact ih ⟨sv', hrest, hacc⟩ _ _

/-- No server accepts: all are asked, and the last one decides. -/
theorem authorizationLoop_rejects {servers : List TacServer}
    (h : ∀ sv ∈ connected servers, ¬sv.Accepts) (result : Int) (asked : List TacServer) :
    authorizationLoop servers result asked =
      ((((connected servers).getLast?).map sendAuthorizationMessage).getD result,
        asked ++ connected servers) := by
  induction servers generalizing result asked with
  | nil => simp [authorizationLoop, connected]
  | cons sv servers ih =>
    by_cases hconn : sv.connect < 0
    · have hskip : connected (sv :: servers) = connected servers :=
        List.filter_cons_of_neg (by simpa using hconn)
      rw [authorizationLoop, if_pos hconn, hskip]
      rw [hskip] at h
      exact ih h result asked
    · have hcons : connected (sv :: servers) = sv :: connected servers :=
        List.filter_cons_of_pos (by simpa using hconn)
      rw [hcons] at h
      have hne : sendAuthorizationMessage sv ≠ 0 := fun hzero =>
        h sv List.mem_cons_self ((sendAuthorizationMessage_eq_zero sv).1 hzero)
      rw [authorizationLoop, if_neg hconn]
      simp only [if_pos hne]
      rw [ih fun sv' hsv' => h sv' (List.mem_cons_of_mem _ hsv'), hcons, List.append_assoc,
        List.singleton_append, List.getLast?_cons]
      cases (connected servers).getLast? with
      | none => rfl
      | some last => rfl

/-! ## When a command is let through -/

/-- A command is let through only if a server has accepted it, or local authorization is enabled
    and no server can be connected to. -/
def Verdict.Closed (v : Verdict) (config : TacConfig) : Prop :=
  v.ret = 0 → (∃ sv ∈ v.asked, sv.Accepts) ∨
    config.ctrl &&& authorizationFlagLocal ≠ 0 ∧ connected config.servers = []

/-- The last server that can be connected to is taken for no server at all, and local
    authorization is enabled. -/
def Mistaken (config : TacConfig) : Prop :=
  config.ctrl &&& authorizationFlagLocal ≠ 0 ∧ (∀ sv ∈ connected config.servers, ¬sv.Accepts) ∧
    ∃ sv ∈ (connected config.servers).getLast?, sv.EndsWithMinusTwo

theorem tacacsAuthorization_accepts {servers : List TacServer}
    (h : ∃ sv ∈ connected servers, sv.Accepts) :
    (tacacsAuthorization servers).1 = 0 ∧
      ∃ sv ∈ (tacacsAuthorization servers).2, sv.Accepts := by
  obtain ⟨hzero, sv, hsv, hacc⟩ := authorizationLoop_accepts h 1 []
  have hne : (authorizationLoop servers 1 []).2.length ≠ 0 := by
    rw [Ne, List.length_eq_zero_iff]
    exact List.ne_nil_of_mem hsv
  unfold tacacsAuthorization
  simp only [if_neg hne]
  exact ⟨hzero, sv, hsv, hacc⟩

theorem tacacsAuthorization_rejects {servers : List TacServer}
    (h : ∀ sv ∈ connected servers, ¬sv.Accepts) :
    tacacsAuthorization servers =
      ((((connected servers).getLast?).map sendAuthorizationMessage).getD (-2),
        connected servers) := by
  unfold tacacsAuthorization
  rw [authorizationLoop_rejects h]
  cases hlast : connected servers with
  | nil => rfl
  | cons sv rest =>
    simp only [List.nil_append, List.length_cons, Nat.add_eq_zero_iff, one_ne_zero, and_false,
      if_false]
    rw [List.getLast?_cons]
    rfl

/-- What becomes of the result of the servers. -/
theorem onShellExecve_remote {env : UserEnv} {loaded file : TacConfig} {shellLevel : Int}
    (hlevel : ¬shellLevel > 2)
    (hremote : isLocalUser env.entries (getUserName env) = .isRemoteUser)
    (htacacs : (checkAndLoadChanged loaded file).ctrl &&& authorizationFlagTacacs ≠ 0) :
    onShellExecve env loaded file shellLevel =
      ⟨if (tacacsAuthorization (checkAndLoadChanged loaded file).servers).1 = -2 ∧
          (checkAndLoadChanged loaded file).ctrl &&& authorizationFlagLocal ≠ 0 then 0
        else (tacacsAuthorization (checkAndLoadChanged loaded file).servers).1,
        (tacacsAuthorization (checkAndLoadChanged loaded file).servers).2⟩ := by
  unfold onShellExecve
  rw [if_neg hlevel]
  simp only [hremote, ne_eq, not_true_eq_false, if_false]
  rw [if_pos htacacs]
  generalize tacacsAuthorization (checkAndLoadChanged loaded file).servers = r
  obtain ⟨ret, asked⟩ := r
  dsimp only
  by_cases hret : ret = -2
  · by_cases hlocal : (checkAndLoadChanged loaded file).ctrl &&& authorizationFlagLocal = 0
    · simp [hret, hlocal]
    · simp [hret, hlocal]
  · by_cases hzero : ret = 0
    · simp [hzero]
    · simp [hret, hzero]

/-- When the plugin fails closed, for a remote user with TACACS+ authorization. -/
theorem closed_iff (env : UserEnv) (loaded file : TacConfig) (shellLevel : Int)
    (hremote : isLocalUser env.entries (getUserName env) = .isRemoteUser)
    (htacacs : (checkAndLoadChanged loaded file).ctrl &&& authorizationFlagTacacs ≠ 0) :
    (onShellExecve env loaded file shellLevel).Closed (checkAndLoadChanged loaded file) ↔
      shellLevel ≤ 2 ∧ ¬Mistaken (checkAndLoadChanged loaded file) ∨
        2 < shellLevel ∧ (checkAndLoadChanged loaded file).ctrl &&& authorizationFlagLocal ≠ 0 ∧
          connected (checkAndLoadChanged loaded file).servers = [] := by
  by_cases hlevel : shellLevel > 2
  · have hverdict : onShellExecve env loaded file shellLevel = ⟨0, []⟩ := if_pos hlevel
    rw [hverdict]
    unfold Verdict.Closed
    constructor
    · intro h
      rcases h rfl with ⟨sv, hsv, -⟩ | hlocal
      · exact absurd hsv List.not_mem_nil
      · exact Or.inr ⟨hlevel, hlocal⟩
    · rintro (⟨hle, -⟩ | ⟨-, hlocal⟩)
      · omega
      · exact fun _ => Or.inr hlocal
  · rw [onShellExecve_remote hlevel hremote htacacs]
    generalize checkAndLoadChanged loaded file = config
    have hright : (shellLevel ≤ 2 ∧ ¬Mistaken config ∨
        2 < shellLevel ∧ config.ctrl &&& authorizationFlagLocal ≠ 0 ∧
          connected config.servers = []) ↔ ¬Mistaken config := by
      constructor
      · rintro (⟨-, h⟩ | ⟨h, -⟩)
        · exact h
        · exact absurd h hlevel
      · exact fun h => Or.inl ⟨by omega, h⟩
    rw [hright]
    by_cases hacc : ∃ sv ∈ connected config.servers, sv.Accepts
    · obtain ⟨-, hasked⟩ := tacacsAuthorization_accepts hacc
      refine ⟨fun _ hmis => ?_, fun _ _ => Or.inl hasked⟩
      obtain ⟨sv, hsv, h⟩ := hacc
      exact hmis.2.1 sv hsv h
    · have hrej : ∀ sv ∈ connected config.servers, ¬sv.Accepts :=
        fun sv hsv h => hacc ⟨sv, hsv, h⟩
      rw [tacacsAuthorization_rejects hrej]
      unfold Verdict.Closed Mistaken
      cases hlast : (connected config.servers).getLast? with
      | none =>
        have hnil : connected config.servers = [] := List.getLast?_eq_none_iff.1 hlast
        simp [hnil]
      | some sv =>
        have hmem : sv ∈ connected config.servers := List.mem_of_getLast? hlast
        have hne : connected config.servers ≠ [] := List.ne_nil_of_mem hmem
        have hzero : sendAuthorizationMessage sv ≠ 0 := fun h =>
          hrej sv hmem ((sendAuthorizationMessage_eq_zero sv).1 h)
        simp only [Option.map_some, Option.getD_some, Option.mem_def, Option.some.injEq,
          exists_eq_left', ← sendAuthorizationMessage_eq_minus_two, hne, and_false, or_false, hacc]
        by_cases hmis : sendAuthorizationMessage sv = -2 ∧
            config.ctrl &&& authorizationFlagLocal ≠ 0
        · rw [if_pos hmis]
          exact ⟨fun h => absurd rfl h, fun h => absurd ⟨hmis.2, hrej, hmis.1⟩ h⟩
        · rw [if_neg hmis]
          exact ⟨fun _ h => hmis ⟨h.2.2, h.1⟩, fun _ h => absurd h hzero⟩

/-- The user "bob", who has logged in remotely. -/
def remoteUser : UserEnv := ⟨some "bob", none, none, [⟨"bob", "remote_user"⟩]⟩

/-- TACACS+ and local authorization, with these servers. -/
def bothFlags (servers : List TacServer) : TacConfig := ⟨1, 0xc0, servers⟩

/-- The first server cannot be connected to, the second one refuses the command. -/
def refusing : List TacServer := [⟨-9, 0, 0, 1⟩, ⟨3, 0, 0, 16⟩]

theorem closed_refusing :
    (onShellExecve remoteUser (bothFlags refusing) (bothFlags refusing) 1).Closed
      (checkAndLoadChanged (bothFlags refusing) (bothFlags refusing)) := by
  refine (closed_iff remoteUser (bothFlags refusing) (bothFlags refusing) 1 (by decide +kernel)
    (by decide)).2 (Or.inl ⟨by decide, ?_⟩)
  rintro ⟨-, -, sv, hsv, hcode⟩
  obtain rfl : sv = ⟨3, 0, 0, 16⟩ := by
    have hlast : (connected refusing).getLast? = some ⟨3, 0, 0, 16⟩ := by decide
    exact Option.some.inj (hsv.symm.trans hlast)
  rcases hcode with h | h
  · exact absurd h (by decide)
  · exact absurd h.2 (by decide)

/-- The first server refuses the command; the second one answers with a packet that is not
    understood, and the command is let through. -/
def misunderstood : List TacServer := [⟨3, 0, 0, 16⟩, ⟨4, 0, -2, 0⟩]

theorem open_protocol_error :
    (onShellExecve remoteUser (bothFlags misunderstood) (bothFlags misunderstood) 1).ret = 0 ∧
      (∀ sv ∈ misunderstood, 0 ≤ sv.connect ∧ ¬sv.Accepts) ∧
        ¬(onShellExecve remoteUser (bothFlags misunderstood) (bothFlags misunderstood) 1).Closed
          (bothFlags misunderstood) := by
  have hret :
      (onShellExecve remoteUser (bothFlags misunderstood) (bothFlags misunderstood) 1).ret = 0 ∧
      (onShellExecve remoteUser (bothFlags misunderstood) (bothFlags misunderstood) 1).asked =
        misunderstood := by
    decide +kernel
  refine ⟨hret.1, by decide, fun h => ?_⟩
  rcases h hret.1 with ⟨sv, hsv, hacc⟩ | ⟨-, hnone⟩
  · rw [hret.2] at hsv
    have hrej : ∀ sv ∈ misunderstood, ¬sv.Accepts := by decide
    exact hrej sv hsv hacc
  · exact absurd hnone (by decide)

end SonicBuildimage.Tacacs
