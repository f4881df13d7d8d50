/-
  bgpmon: the BGP summary of FRR in `NEIGH_STATE_TABLE` of STATE_DB.

  Model.  One cycle is `get_all_neigh_states`, with up to three attempts to read the summary, and
  `update_neigh_states`, which compares it with what it remembers of the cycle before and sends
  the differences through a Redis pipeline, more than 50 at a time (`WriteBuffer`).  `none` is the
  end of the process: the third attempt that cannot be decoded, or a `KeyError`.  A summary has
  the three fields of every peer.

  Proved: `mirror_of_run`.  After every cycle of a run in which a peer that keeps its state also
  keeps its type, the table holds exactly the peers of the last summary with their state and
  their type, and no `KeyError` ends the next cycle.  A peer that keeps its state while its AS
  number changes keeps the old type in the table (`mirror_stale`).

  Not modelled: the time stamp of the log of FRR, which decides whether a cycle is made at all,
  and the texts of the log.
-/
import SonicBuildimage.Lib.WriteBuffer
import SonicBuildimage.Lib.Run

namespace SonicBuildimage.Bgpmon

open SonicBuildimage.Lib

/-! ## Summaries -/

/-- What is used of a peer in a summary. -/
structure PeerInfo where
  state : String
  remoteAs : Nat
  localAs : Nat
  deriving DecidableEq

/-- A row of `NEIGH_STATE_TABLE`. -/
structure NeighRow where
  state : String
  peerType : String
  deriving DecidableEq

def peerType (p : PeerInfo) : String := if p.remoteAs = p.localAs then "i-BGP" else "e-BGP"

def rowOf (p : PeerInfo) : NeighRow := ⟨p.state, peerType p⟩

/-- The output of `show bgp summary json`: for each address family its peers. -/
abbrev Summary := Dict String (Dict String PeerInfo)

/-- The families whose peers are read. -/
def family (name : String) : Bool := name = "ipv4Unicast" || name = "ipv6Unicast"

/-- What a summary says of a peer; a later family is the one that counts. -/
def Summary.info (m : Summary) (peer : String) : Option PeerInfo :=
  Dict.get? ((m.filter fun e => family e.1).flatMap Prod.snd).reverse peer

/-- How an attempt to read the summary ends. -/
inductive Attempt where
  /-- the command returns an error -/
  | failed
  /-- there is no output -/
  | silent
  /-- the output is not JSON -/
  | undecodable
  | summary (m : Summary)

/-- The outcomes of the attempts of a cycle, as far as they are made. -/
structure Poll where
  first : Attempt
  second : Attempt
  third : Attempt

/-! ## The daemon -/

/-- `BgpStateGet`, with the table it writes -/
structure BgpStateGet where
  peerL : List String
  peerState : Dict String String
  newPeerL : List String
  newPeerState : Dict String PeerInfo
  table : Dict String NeighRow

namespace BgpStateGet

variable (order : List String → List String) (s : BgpStateGet)

/-- The rows of an earlier run are deleted at the start. -/
def init : BgpStateGet := ⟨[], [], [], [], []⟩

def updateNewPeerStates (peers : Dict String PeerInfo) : BgpStateGet :=
  { s with
    newPeerL := (Dict.keys peers).foldl setAdd s.newPeerL
    newPeerState := peers.foldl (fun d e => Dict.set d e.1 e.2) s.newPeerState }

/-- A new snapshot. -/
def snapshot (m : Summary) : BgpStateGet :=
  m.foldl (fun s e => if family e.1 then s.updateNewPeerStates e.2 else s)
    { s with newPeerL := [], newPeerState := [] }

/-- The loop of `get_all_neigh_states` over the attempts that are left -/
def attempts : List Attempt → Option BgpStateGet
  | [] => none
  | .failed :: _ => some s
  | .silent :: _ => some s
  | .undecodable :: rest => attempts rest
  | .summary m :: _ => some (s.snapshot m)

def getAllNeighStates (poll : Poll) : Option BgpStateGet :=
  s.attempts [poll.first, poll.second, poll.third]

def neighKey (peer : String) : String := "NEIGH_STATE_TABLE|" ++ peer

/-- The variables that the loops of `update_neigh_states` change. -/
structure Diff where
  peerL : List String
  peerState : Dict String String
  pipe : WriteBuffer String NeighRow

/-- `flush_pipe` once there are more than `PIPE_BATCH_MAX_COUNT` entries -/
def flushFull (pipe : WriteBuffer String NeighRow) : WriteBuffer String NeighRow :=
  if 50 < pipe.data.length then pipe.flush else pipe

/-- The entry of a peer is updated. -/
def Diff.update (d : Diff) (peer : String) (p : PeerInfo) : Diff :=
  { d with
    peerState := Dict.set d.peerState peer p.state
    pipe := d.pipe.put (neighKey peer) (some (rowOf p)) }

/-- A peer of the new snapshot -/
def visit (new : Dict String PeerInfo) (d : Diff) (peer : String) : Option Diff :=
  if peer ∈ d.peerL then
    (Dict.get? d.peerState peer).bind fun old => (Dict.get? new peer).map fun p =>
      let d := if old ≠ p.state then d.update peer p else d
      { d with peerL := setDiscard d.peerL peer, pipe := flushFull d.pipe }
  else
    (Dict.get? new peer).map fun p =>
      let d := d.update peer p
      { d with pipe := flushFull d.pipe }

/-- A peer that is no longer there -/
def clean (d : Diff) (peer : String) : Diff :=
  { d with
    peerState := Dict.erase d.peerState peer
    pipe := flushFull (d.pipe.put (neighKey peer) none) }

def updateNeighStates : Option BgpStateGet :=
  ((order s.newPeerL).foldlM (visit s.newPeerState)
    ⟨s.peerL, s.peerState, WriteBuffer.empty s.table⟩).map fun d =>
      let d := (order d.peerL).foldl clean d
      { s with
        peerL := s.newPeerL
        peerState := d.peerState
        table := (if 0 < d.pipe.data.length then d.pipe.flush else d.pipe).table }

/-- One cycle of the main loop -/
def cycle (poll : Poll) : Option BgpStateGet :=
  (s.getAllNeighStates poll).bind fun s => s.updateNeighStates order

/-! ## What the table is to hold -/

/-- The table holds the peers of a summary, and nothing else. -/
def Mirrors (m : Summary) : Prop :=
  (∀ peer, Dict.get? s.table (neighKey peer) = (m.info peer).map rowOf) ∧
    ∀ key ∈ Dict.keys s.table, ∃ peer, key = neighKey peer

end BgpStateGet

/-- The summary that a poll gives. -/
def Attempt.read : List Attempt → Option Summary
  | [] => none
  | .failed :: _ => none
  | .silent :: _ => none
  | .undecodable :: rest => Attempt.read rest
  | .summary m :: _ => some m

def Poll.read (poll : Poll) : Option Summary := Attempt.read [poll.first, poll.second, poll.third]

def lastSummary (polls : List Poll) : Summary :=
  polls.foldl (fun m poll => poll.read.getD m) []

namespace BgpStateGet

variable {order : List String → List String} {s : BgpStateGet}

/-! ## The snapshot -/

theorem neighKey_inj {p q : String} (h : neighKey p = neighKey q) : p = q := by
  have hlist := congrArg String.toList h
  unfold neighKey at hlist
  rw [String.toList_append, String.toList_append] at hlist
  exact String.toList_inj.1 (List.append_cancel_left hlist)

/-- The new snapshot is that of a summary, and the old one is untouched. -/
structure Reads (m : Summary) (s s' : BgpStateGet) : Prop where
  state : ∀ peer, Dict.get? s'.newPeerState peer = m.info peer
  mem : ∀ peer, peer ∈ s'.newPeerL ↔ m.info peer ≠ none
  peerL : s'.peerL = s.peerL
  peerState : s'.peerState = s.peerState
  table : s'.table = s.table

theorem Summary.info_concat (m : Summary) (e : String × Dict String PeerInfo) (peer : String) :
    Summary.info (m ++ [e]) peer =
      if family e.1 then (Dict.get? e.2.reverse peer).or (m.info peer) else m.info peer := by
  unfold Summary.info
  rw [List.filter_append, List.flatMap_append, List.reverse_append, Dict.get?_append]
  by_cases hf : family e.1 = true
  · simp [hf]
  · simp [hf]

theorem reads_snapshot (s : BgpStateGet) (m : Summary) : Reads m s (s.snapshot m) := by
  unfold snapshot
  induction m using List.reverseRecOn with
  | nil => exact ⟨fun _ => rfl, fun _ => by simp [Summary.info], rfl, rfl, rfl⟩
  | append_singleton m e ih =>
    rw [List.foldl_append, List.foldl_cons, List.foldl_nil]
    split
    · next hf =>
      refine ⟨fun peer => ?_, fun peer => ?_, ih.peerL, ih.peerState, ih.table⟩
      · rw [Summary.info_concat, if_pos hf, ← ih.state]
        exact Dict.get?_foldl_set _ _ _
      · have hkeys : Dict.get? e.2.reverse peer ≠ none ↔ peer ∈ Dict.keys e.2 := by
          rw [← Dict.mem_keys_iff]
          unfold Dict.keys
          rw [List.map_reverse, List.mem_reverse]
        rw [Summary.info_concat, if_pos hf, Ne, Option.or_eq_none_iff, not_and_or, ← Ne, ← Ne,
          hkeys, ← ih.mem, or_comm]
        exact mem_foldl_setAdd _ _ _
    · next hf =>
      refine ⟨fun peer => ?_, fun peer => ?_, ih.peerL, ih.peerState, ih.table⟩
      · rw [Summary.info_concat, if_neg hf, ih.state]
      · rw [Summary.info_concat, if_neg hf, ih.mem]

/-- What the attempts lead to, unless the process ends. -/
theorem attempts_spec {l : List Attempt} {s' : BgpStateGet} (h : s.attempts l = some s') :
    s' = match Attempt.read l with
      | some m => s.snapshot m
      | none => s := by
  induction l with
  | nil => cases h
  | cons a l ih =>
    cases a with
    | failed => exact (Option.some.inj h).symm
    | silent => exact (Option.some.inj h).symm
    | undecodable => exact ih h
    | summary m => exact (Option.some.inj h).symm

/-! ## The loops -/

@[simp] theorem seen_flushFull (pipe : WriteBuffer String NeighRow) (key : String) :
    (flushFull pipe).seen key = pipe.seen key := by
  unfold flushFull
  split
  · exact pipe.seen_flush key
  · rfl

/-- Where the first loop is, after the peers `done`. -/
structure Visited (s : BgpStateGet) (done : List String) (d : Diff) : Prop where
  peerL : ∀ p, p ∈ d.peerL ↔ p ∈ s.peerL ∧ p ∉ done
  visited : ∀ p ∈ done,
    Dict.get? d.peerState p = (Dict.get? s.newPeerState p).map PeerInfo.state ∧
      d.pipe.seen (neighKey p) = (Dict.get? s.newPeerState p).map rowOf
  unvisited : ∀ p ∉ done, Dict.get? d.peerState p = Dict.get? s.peerState p ∧
    d.pipe.seen (neighKey p) = Dict.get? s.table (neighKey p)
  other : ∀ key, (∀ p, key ≠ neighKey p) → d.pipe.seen key = Dict.get? s.table key

/-- What the first loop needs of a peer: it is in the new snapshot, and if it was in the old one
    with the same state, its row is right. -/
def Ready (s : BgpStateGet) (p : String) : Prop :=
  ∃ new, Dict.get? s.newPeerState p = some new ∧
    (p ∈ s.peerL → ∃ old, Dict.get? s.peerState p = some old ∧
      (old = new.state → Dict.get? s.table (neighKey p) = some (rowOf new)))

theorem Visited.cons {done : List String} {d d' : Diff} {p : String} {new : PeerInfo}
    (h : Visited s done d) (hnew : Dict.get? s.newPeerState p = some new)
    (hpeerL : ∀ q, q ∈ d'.peerL ↔ q ∈ d.peerL ∧ q ≠ p)
    (hstate : ∀ q, Dict.get? d'.peerState q =
      if p = q then some new.state else Dict.get? d.peerState q)
    (hseen : ∀ key, d'.pipe.seen key =
      if neighKey p = key then some (rowOf new) else d.pipe.seen key) :
    Visited s (p :: done) d' := by
  refine ⟨fun q => ?_, fun q hq => ?_, fun q hq => ?_, fun key hkey => ?_⟩
  · rw [hpeerL, h.peerL, List.mem_cons]
    tauto
  · rw [hstate, hseen]
    by_cases hpq : p = q
    · subst hpq
      rw [if_pos rfl, if_pos rfl, hnew]
      exact ⟨rfl, rfl⟩
    · rw [if_neg hpq, if_neg fun hk => hpq (neighKey_inj hk)]
      exact h.visited q ((List.mem_cons.1 hq).resolve_left fun hqp => hpq hqp.symm)
  · have hpq : p ≠ q := fun hpq => hq (hpq ▸ List.mem_cons_self)
    rw [hstate, hseen, if_neg hpq, if_neg fun hk => hpq (neighKey_inj hk)]
    exact h.unvisited q fun hmem => hq (List.mem_cons_of_mem _ hmem)
  · rw [hseen, if_neg (hkey p).symm]
    exact h.other key hkey

theorem visit_spec {done : List String} {d : Diff} {p : String} (h : Visited s done d)
    (hp : Ready s p) : ∃ d', visit s.newPeerState d p = some d' ∧ Visited s (p :: done) d' := by
  obtain ⟨new, hnew, hold⟩ := hp
  unfold visit
  by_cases hmem : p ∈ d.peerL
  · obtain ⟨hmem₀, hdone⟩ := (h.peerL p).1 hmem
    obtain ⟨old, hold, hrow⟩ := hold hmem₀
    obtain ⟨hstate, hseen⟩ := h.unvisited p hdone
    rw [if_pos hmem, hstate, hold, Option.bind_some, hnew, Option.map_some]
    refine ⟨_, rfl, ?_⟩
    by_cases hne : old ≠ new.state
    · simp only [if_pos hne]
      refine h.cons hnew (fun q => mem_setDiscard _ _ _) (fun q => Dict.get?_set _ _ _ _)
        fun key => ?_
      rw [seen_flushFull]
      exact WriteBuffer.seen_put _ _ _ _
    · -- the state is the same: nothing is sent, and the row is as it should be
      simp only [if_neg hne]
      rw [ne_eq, not_not] at hne
      refine h.cons hnew (fun q => mem_setDiscard _ _ _) (fun q => ?_) fun key => ?_
      · split
        · next hpq =>
          rw [← hpq, hstate, hold, hne]
        · rfl
      · rw [seen_flushFull]
        split
        · next hkey =>
          rw [← hkey, hseen, hrow hne]
        · rfl
  · rw [if_neg hmem, hnew, Option.map_some]
    refine ⟨_, rfl, h.cons hnew (fun q => ?_) (fun q => Dict.get?_set _ _ _ _) fun key => ?_⟩
    · exact ⟨fun hq => ⟨hq, fun hqp => hmem (hqp ▸ hq)⟩, fun hq => hq.1⟩
    · rw [seen_flushFull]
      exact WriteBuffer.seen_put _ _ _ _

theorem foldlM_visit {done : List String} {d : Diff} {peers : List String} (h : Visited s done d)
    (hready : ∀ p ∈ peers, Ready s p) :
    ∃ d', peers.foldlM (visit s.newPeerState) d = some d' ∧
      Visited s (peers.reverse ++ done) d' := by
  induction peers generalizing done d with
  | nil => exact ⟨d, rfl, h⟩
  | cons p peers ih =>
    obtain ⟨d₁, hvisit, h₁⟩ := visit_spec h (hready p List.mem_cons_self)
    obtain ⟨d', hfold, h'⟩ := ih h₁ fun q hq => hready q (List.mem_cons_of_mem _ hq)
    refine ⟨d', ?_, ?_⟩
    · rw [List.foldlM_cons, hvisit]
      exact hfold
    · rw [List.reverse_cons, List.append_assoc]
      exact h'

theorem foldl_clean (d : Diff) (peers : List String) :
    (∀ p, Dict.get? (peers.foldl clean d).peerState p =
        if p ∈ peers then none else Dict.get? d.peerState p) ∧
      (∀ p, (peers.foldl clean d).pipe.seen (neighKey p) =
        if p ∈ peers then none else d.pipe.seen (neighKey p)) ∧
      ∀ key, (∀ p, key ≠ neighKey p) → (peers.foldl clean d).pipe.seen key = d.pipe.seen key := by
  induction peers generalizing d with
  | nil => exact ⟨fun _ => rfl, fun _ => rfl, fun _ _ => rfl⟩
  | cons p peers ih =>
    obtain ⟨hstate, hseen, hother⟩ := ih (clean d p)
    refine ⟨fun q => ?_, fun q => ?_, fun key hkey => ?_⟩
    · rw [List.foldl_cons, hstate, clean, Dict.get?_erase]
      by_cases hpq : p = q
      · simp [hpq]
      · simp [hpq, Ne.symm hpq]
    · rw [List.foldl_cons, hseen, clean, seen_flushFull, WriteBuffer.seen_put]
      by_cases hpq : p = q
      · simp [hpq]
      · rw [if_neg fun hk => hpq (neighKey_inj hk)]
        simp [Ne.symm hpq]
    · rw [List.foldl_cons, hother key hkey, clean, seen_flushFull,
        WriteBuffer.seen_put_ne _ _ (hkey p).symm]

/-! ## Cycles -/

/-- What is remembered is what the summary `old` says, and the new snapshot is `new`. -/
structure Between (old new : Summary) (s : BgpStateGet) : Prop where
  state : ∀ p, Dict.get? s.newPeerState p = new.info p
  mem : ∀ p, p ∈ s.newPeerL ↔ new.info p ≠ none
  peerL : ∀ p, p ∈ s.peerL ↔ old.info p ≠ none
  peerState : ∀ p, Dict.get? s.peerState p = (old.info p).map PeerInfo.state
  table : s.Mirrors old

/-- A peer that keeps its state keeps its type. -/
def Steady (old new : Summary) : Prop :=
  ∀ p i j, old.info p = some i → new.info p = some j → i.state = j.state → peerType i = peerType j

theorem ready_of_between {old new : Summary} (h : Between old new s) (hs : Steady old new)
    {p : String} (hp : p ∈ s.newPeerL) : Ready s p := by
  obtain ⟨j, hj⟩ := Option.ne_none_iff_exists'.1 ((h.mem p).1 hp)
  refine ⟨j, (h.state p).trans hj, fun hmem => ?_⟩
  obtain ⟨i, hi⟩ := Option.ne_none_iff_exists'.1 ((h.peerL p).1 hmem)
  refine ⟨i.state, by rw [h.peerState, hi]; rfl, fun hstate => ?_⟩
  rw [h.table.1, hi, Option.map_some, rowOf, hs p i j hi hj hstate, hstate]
  rfl

theorem updateNeighStates_spec (ho : IterOrder order) {old new : Summary} (h : Between old new s)
    (hs : Steady old new) :
    ∃ s', s.updateNeighStates order = some s' ∧ Between new new s' := by
  have hstart : Visited s [] ⟨s.peerL, s.peerState, WriteBuffer.empty s.table⟩ :=
    ⟨fun _ => by simp, fun _ hp => absurd hp List.not_mem_nil, fun _ _ => ⟨rfl, rfl⟩,
      fun _ _ => rfl⟩
  obtain ⟨d, hfold, hd⟩ := foldlM_visit hstart fun p hp =>
    ready_of_between h hs (ho.mem.1 hp)
  have hdone : ∀ p, p ∈ (order s.newPeerL).reverse ++ [] ↔ new.info p ≠ none := by
    intro p
    rw [List.append_nil, List.mem_reverse, ho.mem, h.mem]
  obtain ⟨hstate, hseen, hother⟩ := foldl_clean d (order d.peerL)
  have hstale : ∀ p, p ∈ order d.peerL ↔ old.info p ≠ none ∧ new.info p = none := by
    intro p
    rw [ho.mem, hd.peerL, hdone, h.peerL, not_not]
  have hgone : ∀ p, new.info p = none → p ∉ order d.peerL → old.info p = none := by
    intro p hp hnot
    by_contra hne
    exact hnot ((hstale p).2 ⟨hne, hp⟩)
  -- the rest of the pipeline is flushed
  have htable : ∀ b : WriteBuffer String NeighRow, ∀ key,
      Dict.get? (if 0 < b.data.length then b.flush else b).table key = b.seen key := by
    intro b key
    split
    · exact b.get?_table_flush key
    · next hempty =>
      have hnil : b.data = [] := List.length_eq_zero_iff.1 (Nat.eq_zero_of_not_pos hempty)
      unfold WriteBuffer.seen
      rw [hnil]
      rfl
  unfold updateNeighStates
  rw [hfold, Option.map_some]
  refine ⟨_, rfl, h.state, h.mem, h.mem, fun p => ?_, fun p => ?_, fun key hkey => ?_⟩
  · rw [hstate]
    by_cases hp : new.info p = none
    · obtain ⟨hunvisited, -⟩ := hd.unvisited p (by rw [hdone, not_not]; exact hp)
      rw [hunvisited, h.peerState, hp]
      split
      · rfl
      · next hnot =>
        rw [hgone p hp hnot]
    · rw [if_neg fun hmem => hp ((hstale p).1 hmem).2, (hd.visited p ((hdone p).2 hp)).1, h.state]
  · rw [htable, hseen]
    by_cases hp : new.info p = none
    · obtain ⟨-, hunvisited⟩ := hd.unvisited p (by rw [hdone, not_not]; exact hp)
      rw [hunvisited, h.table.1, hp]
      split
      · rfl
      · next hnot =>
        rw [hgone p hp hnot]
    · rw [if_neg fun hmem => hp ((hstale p).1 hmem).2, (hd.visited p ((hdone p).2 hp)).2, h.state]
  · by_contra hne
    rw [not_exists] at hne
    rw [Dict.mem_keys_iff, htable, hother key hne, hd.other key hne, ← Dict.mem_keys_iff] at hkey
    obtain ⟨p, hp⟩ := h.table.2 key hkey
    exact hne p hp

/-! ## Runs -/

def Step (order : List String → List String) (s : BgpStateGet) (poll : Poll) (s' : BgpStateGet) :
    Prop := s.cycle order poll = some s'

/-- What is asked of a poll: a peer that has the state of the last snapshot has its type. -/
def Ok (s : BgpStateGet) (poll : Poll) : Prop :=
  ∀ m ∈ poll.read, ∀ e ∈ s.newPeerState, ∀ j ∈ m.info e.1,
    e.2.state = j.state → peerType e.2 = peerType j

instance (s : BgpStateGet) (poll : Poll) : Decidable (s.Ok poll) :=
  inferInstanceAs (Decidable (∀ m ∈ poll.read, _))

/-- A cycle of which the attempts to read the summary do not end the process. -/
theorem cycle_spec (ho : IterOrder order) {m : Summary} (h : Between m m s) {poll : Poll}
    (hok : s.Ok poll) (hread : s.getAllNeighStates poll ≠ none) :
    ∃ s', s.cycle order poll = some s' ∧ Between (poll.read.getD m) (poll.read.getD m) s' := by
  obtain ⟨s₁, hs₁⟩ := Option.ne_none_iff_exists'.1 hread
  obtain ⟨hbetween, hsteady⟩ : Between m (poll.read.getD m) s₁ ∧ Steady m (poll.read.getD m) := by
    have hspec := attempts_spec hs₁
    rw [← Poll.read] at hspec
    cases hm : poll.read with
    | none =>
      rw [hm] at hspec
      subst hspec
      refine ⟨h, fun p i j hi hj _ => ?_⟩
      rw [Option.getD_none, hi] at hj
      rw [Option.some.inj hj]
    | some new =>
      rw [hm] at hspec
      subst hspec
      have hsnap := reads_snapshot s new
      refine ⟨⟨hsnap.state, hsnap.mem, ?_, ?_, ?_⟩, fun p i j hi hj hstate => ?_⟩
      · rw [hsnap.peerL]
        exact h.peerL
      · rw [hsnap.peerState]
        exact h.peerState
      · unfold Mirrors
        rw [hsnap.table]
        exact h.table
      · have hmem : (p, i) ∈ s.newPeerState := Dict.mem_of_get? ((h.state p).trans hi)
        exact hok new hm (p, i) hmem j hj hstate
  obtain ⟨s', hupdate, hs'⟩ := updateNeighStates_spec ho hbetween hsteady
  refine ⟨s', ?_, hs'⟩
  unfold cycle
  rw [hs₁]
  exact hupdate

theorem between_init : Between [] [] init :=
  ⟨fun _ => rfl, fun _ => by simp [init, Summary.info], fun _ => by simp [init, Summary.info],
    fun _ => rfl, fun _ => rfl, fun _ h => absurd h List.not_mem_nil⟩

/-- After every cycle of a run whose polls meet the condition the table mirrors the last summary,
    and the next cycle is completed if its attempts to read the summary do not end the process. -/
theorem mirror_of_run (ho : IterOrder order) {polls : List Poll}
    (hrun : Run (Step order) Ok init polls s) :
    s.Mirrors (lastSummary polls) ∧
      ∀ poll, s.Ok poll → s.getAllNeighStates poll ≠ none → ∃ s', s.cycle order poll = some s' := by
  have hbetween : Between (lastSummary polls) (lastSummary polls) s := by
    refine hrun.history (P := fun polls s => Between (lastSummary polls) (lastSummary polls) s)
      (fun polls s poll s' h hok hstep => ?_) between_init
    have hread : s.getAllNeighStates poll ≠ none := by
      intro hnone
      unfold Step cycle at hstep
      rw [hnone] at hstep
      cases hstep
    obtain ⟨s₁, hs₁, h₁⟩ := cycle_spec ho h hok hread
    obtain rfl : s' = s₁ := Option.some.inj (hstep.symm.trans hs₁)
    unfold lastSummary
    rw [List.foldl_append]
    exact h₁
  refine ⟨hbetween.table, fun poll hok hread => ?_⟩
  obtain ⟨s', hs', -⟩ := cycle_spec ho hbetween hok hread
  exact ⟨s', hs'⟩

theorem step_next (order : List String → List String) (s : BgpStateGet) (poll : Poll)
    (s' : BgpStateGet) (h : s.cycle order poll = some s') : Step order s poll s' := h

/-- A poll that gives a summary with one peer at once. -/
def onePeer (state : String) (remoteAs : Nat) : Poll :=
  ⟨.summary [("ipv4Unicast", [("10.0.0.1", ⟨state, remoteAs, 65100⟩)])], .failed, .failed⟩

/-- A poll at whose second attempt the command fails. -/
def noPeers : Poll := ⟨.undecodable, .failed, .failed⟩

/-- The peer goes to another AS and comes up there; the poll in between fails. -/
theorem mirror_moved :
    ∃ s, Run (Step id) Ok init [onePeer "Active" 65200, noPeers, onePeer "Established" 65100] s ∧
      s.table = [(neighKey "10.0.0.1", ⟨"Established", "i-BGP"⟩)] ∧
        s.Mirrors (lastSummary [onePeer "Active" 65200, noPeers, onePeer "Established" 65100]) := by
  refine exists_run_imp (step_next id)
    (fun s => s.table = [(neighKey "10.0.0.1", ⟨"Established", "i-BGP"⟩)]) (by decide +kernel) ?_
  intro s hrun htable
  exact ⟨htable, (mirror_of_run iterOrder_id hrun).1⟩

/-- The peer goes to another AS and is not up yet. -/
theorem mirror_stale :
    ∃ s, Run (Step id) (fun _ _ => True) init [onePeer "Active" 65200, onePeer "Active" 65100] s ∧
      ¬s.Mirrors (lastSummary [onePeer "Active" 65200, onePeer "Active" 65100]) := by
  refine exists_run_imp (step_next id) (fun s => Dict.get? s.table (neighKey "10.0.0.1") ≠
    ((lastSummary [onePeer "Active" 65200, onePeer "Active" 65100]).info "10.0.0.1").map rowOf)
    (by decide +kernel) ?_
  intro s _ hrow h
  exact hrow (h.1 "10.0.0.1")

end BgpStateGet

end SonicBuildimage.Bgpmon
