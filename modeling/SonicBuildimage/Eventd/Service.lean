/-
  Requests to eventd: the loop of `run_eventd_service` (eventd.cpp), and how the cache is read out.

  Model.  The service keeps the current capture, if there is one, and what the last one has left:
  the events of the FIFO and the map of last events.  A request for the cache is handled by
  `handle`, which gives the status and the events of the response.  `std::move` of a range leaves
  strings behind of which nothing is known; they are given by `movedFrom`.

  Proved:
  * `read_out_iff`: the responses to reads of the cache, up to the first one without an event, are
    the events of the FIFO in order and then the last events, at most 100 in each, exactly if there
    are at most 100 of either, and none at all where caching is skipped.  A longer list is moved as
    a whole into the first response, and its first 100 entries are erased; what is left are strings
    that have been moved from.  `read_out_101` is such a cache.  Caching is skipped from then on
    when the capture of the start did not come up; a capture that a request starts later works, but
    no read gets to its events.

  Not modelled: heartbeats, options and the channel to the client.
-/
import SonicBuildimage.Eventd.Capture

namespace SonicBuildimage.Eventd

open SonicBuildimage.Lib

/-! ## The service -/

/-- `READ_SET_SIZE` -/
def readSetSize : Nat := 100

/-- `capture_control_t` -/
inductive Ctrl where
  | needInit
  | initCapture
  | startCapture
  | stopCapture
  deriving DecidableEq

structure Service where
  skipCaching : Bool
  capture : Option (Ctrl × Capture)
  captureFifoEvents : List String
  captureLastEvents : Dict String String

inductive Request where
  /-- whether the thread of the capture comes up -/
  | cacheInit (up : Bool)
  | cacheStart (stock : List String)
  | cacheStop
  | cacheRead
  | echo (data : List String)

/-- The status, which is 0 or -1, and the events of a response. -/
structure Response where
  ok : Bool
  data : List String

/-- What the service needs to know besides its state. -/
structure ServiceEnv where
  codec : Codec
  cacheMax : Int
  maxPublishersCount : Nat
  /-- what `std::move` leaves of a string -/
  movedFrom : String → String

/-- `read_cache`: what a capture leaves. -/
def Service.readCache (s : Service) (c : Capture) : Service :=
  { s with captureFifoEvents := c.events, captureLastEvents := c.last }

/-- The last events are put behind the FIFO once it is empty. -/
def Service.refill (s : Service) : Service :=
  if s.captureFifoEvents = [] then
    { s with captureFifoEvents := s.captureLastEvents.map Prod.snd, captureLastEvents := [] }
  else s

/-- `case EVENT_CACHE_READ`, once the capture has been stopped. -/
def Service.cacheRead (movedFrom : String → String) (s : Service) : Service × List String :=
  let s := s.refill
  let sz := min s.captureFifoEvents.length readSetSize
  if sz = 0 then (s, [])
  else if sz = s.captureFifoEvents.length then
    ({ s with captureFifoEvents := [] }, s.captureFifoEvents)
  else
    ({ s with captureFifoEvents := (s.captureFifoEvents.map movedFrom).drop sz },
      s.captureFifoEvents)

/-- A request. -/
def Service.handle (env : ServiceEnv) (s : Service) : Request → Service × Response
  | .cacheInit up =>
    let s := { s with captureFifoEvents := [], captureLastEvents := [] }
    let c := startCapture env.codec env.cacheMax env.maxPublishersCount []
    ({ s with capture := some (if up then .initCapture else .needInit, c) }, ⟨up, []⟩)
  | .cacheStart stock =>
    match s.capture with
    | some (.initCapture, _) =>
      let c := startCapture env.codec env.cacheMax env.maxPublishersCount stock
      ({ s with capture := some (.startCapture, c) }, ⟨true, []⟩)
    | _ => (s, ⟨false, []⟩)
  | .cacheStop =>
    match s.capture with
    | none => (s, ⟨false, []⟩)
    | some (.startCapture, c) => ({ s.readCache c with capture := none }, ⟨true, []⟩)
    | some _ => ({ s with capture := none }, ⟨false, []⟩)
  | .cacheRead =>
    if s.skipCaching then (s, ⟨false, []⟩)
    else
      match s.capture with
      | some _ => (s, ⟨false, []⟩)
      | none =>
        let (s, data) := s.cacheRead env.movedFrom
        (s, ⟨true, data⟩)
  | .echo data => (s, ⟨true, data⟩)

/-! ## Reading the cache out -/

/-- The events of the first `n` responses to reads. -/
def Service.reads (env : ServiceEnv) : Nat → Service → List (List String)
  | 0, _ => []
  | n + 1, s =>
    let (s', r) := s.handle env .cacheRead
    r.data :: s'.reads env n

/-- The responses up to the first one without an event. -/
def Service.ReadsOut (env : ServiceEnv) (s : Service) (out : List (List String)) : Prop :=
  ∃ n, s.reads env n = out ++ [[]] ∧ ∀ r ∈ out, r ≠ []

/-- The capture has been stopped, and what is left is the events `fifo` and the map `last`. -/
def stopped (fifo : List String) (last : Dict String String) : Service := ⟨false, none, fifo, last⟩

/-- Reading the cache out gives these events and these last events, not too many at once. -/
def Service.ReadsExactly (env : ServiceEnv) (s : Service) (fifo : List String)
    (last : Dict String String) : Prop :=
  ∃ out, s.ReadsOut env out ∧ out.flatten = fifo ++ last.map Prod.snd ∧
    ∀ r ∈ out, r.length ≤ readSetSize

section Reads

variable (env : ServiceEnv) (fifo : List String) (last : Dict String String)

theorem reads_succ (n : Nat) : (stopped fifo last).reads env (n + 1) =
    ((stopped fifo last).cacheRead env.movedFrom).2 ::
      ((stopped fifo last).cacheRead env.movedFrom).1.reads env n := rfl

/-- A list of at most 100 events is one response. -/
theorem cacheRead_short (hne : fifo ≠ []) (hle : fifo.length ≤ readSetSize) :
    (stopped fifo last).cacheRead env.movedFrom = (stopped [] last, fifo) := by
  have hpos : 0 < fifo.length := List.length_pos_iff.mpr hne
  have hrefill : (stopped fifo last).refill = stopped fifo last := if_neg hne
  unfold Service.cacheRead
  rw [hrefill]
  have hmin : min (stopped fifo last).captureFifoEvents.length readSetSize = fifo.length :=
    Nat.min_eq_left hle
  dsimp only
  rw [hmin, if_neg (by omega)]
  exact if_pos rfl

/-- Once the FIFO is empty, the last events are read in its place. -/
theorem cacheRead_last : (stopped [] last).cacheRead env.movedFrom =
    (stopped (last.map Prod.snd) []).cacheRead env.movedFrom := by
  have hrefill : (stopped [] last).refill = stopped (last.map Prod.snd) [] := rfl
  have hrefill' : (stopped (last.map Prod.snd) []).refill = stopped (last.map Prod.snd) [] := by
    unfold Service.refill
    by_cases hempty : last.map Prod.snd = []
    · rw [hempty]
      rfl
    · exact if_neg hempty
  unfold Service.cacheRead
  rw [hrefill, hrefill']

/-- A longer list is one response, too. -/
theorem cacheRead_long (hlong : readSetSize < fifo.length) :
    ((stopped fifo last).cacheRead env.movedFrom).2 = fifo := by
  have hne : fifo ≠ [] := fun h => by rw [h] at hlong; exact absurd hlong (Nat.not_lt_zero _)
  have hrefill : (stopped fifo last).refill = stopped fifo last := if_neg hne
  have hmin : min fifo.length readSetSize = readSetSize := Nat.min_eq_right (by omega)
  unfold Service.cacheRead
  rw [hrefill]
  change (if min fifo.length readSetSize = 0 then _ else _ : Service × List String).2 = fifo
  rw [hmin, if_neg (show ¬ readSetSize = 0 by decide)]
  split
  · rfl
  · rfl

/-- The first response is a prefix of what is read out. -/
theorem ReadsOut.head {out : List (List String)} (h : (stopped fifo last).ReadsOut env out)
    (hne : ((stopped fifo last).cacheRead env.movedFrom).2 ≠ []) :
    ∃ out', out = ((stopped fifo last).cacheRead env.movedFrom).2 :: out' ∧
      ((stopped fifo last).cacheRead env.movedFrom).1.ReadsOut env out' := by
  obtain ⟨n, hreads, hall⟩ := h
  cases n with
  | zero =>
    have hlen := congrArg List.length hreads
    simp [Service.reads] at hlen
  | succ n =>
    rw [reads_succ] at hreads
    cases out with
    | nil =>
      rw [List.nil_append] at hreads
      exact absurd (List.cons.inj hreads).1 hne
    | cons r out' =>
      rw [List.cons_append] at hreads
      obtain ⟨hr, hrest⟩ := List.cons.inj hreads
      refine ⟨out', by rw [hr], n, hrest, fun r' hr' => hall r' (List.mem_cons_of_mem _ hr')⟩

theorem readsOut_cons {s' : Service} {r : List String} {out : List (List String)}
    (hread : (stopped fifo last).cacheRead env.movedFrom = (s', r)) (hne : r ≠ [])
    (h : s'.ReadsOut env out) : (stopped fifo last).ReadsOut env (r :: out) := by
  obtain ⟨n, hreads, hall⟩ := h
  refine ⟨n + 1, ?_, List.forall_mem_cons.mpr ⟨hne, hall⟩⟩
  rw [reads_succ, hread, hreads]
  rfl

theorem readsOut_empty : (stopped [] []).ReadsOut env [] :=
  ⟨1, rfl, fun _ hr => absurd hr List.not_mem_nil⟩

/-- The last events, when there are not too many. -/
theorem readsExactly_last (hle : last.length ≤ readSetSize) :
    (stopped [] last).ReadsExactly env [] last := by
  have hlen : (last.map Prod.snd).length ≤ readSetSize := by rwa [List.length_map]
  by_cases hne : last.map Prod.snd = []
  · have hnil : last = [] := List.map_eq_nil_iff.mp hne
    subst hnil
    exact ⟨[], readsOut_empty env, rfl, fun _ hr => absurd hr List.not_mem_nil⟩
  · have hread : (stopped [] last).cacheRead env.movedFrom =
        (stopped [] [], last.map Prod.snd) := by
      rw [cacheRead_last, cacheRead_short env _ [] hne hlen]
    refine ⟨[last.map Prod.snd], readsOut_cons env [] last hread hne (readsOut_empty env), ?_, ?_⟩
    · simp
    · simpa using hle

theorem readsExactly_iff : (stopped fifo last).ReadsExactly env fifo last ↔
    fifo.length ≤ readSetSize ∧ last.length ≤ readSetSize := by
  constructor
  · rintro ⟨out, hout, hflat, hall⟩
    have hfifo : fifo.length ≤ readSetSize := by
      by_contra hlong
      have hread := cacheRead_long env fifo last (by omega)
      have hne : fifo ≠ [] := by
        rintro rfl
        exact hlong (Nat.zero_le _)
      obtain ⟨out', rfl, -⟩ := ReadsOut.head env fifo last hout (by rw [hread]; exact hne)
      have hle := hall _ List.mem_cons_self
      rw [hread] at hle
      exact hlong hle
    refine ⟨hfifo, ?_⟩
    by_contra hlong
    -- the response with the last events is the first or the second one
    have hread : ((stopped [] last).cacheRead env.movedFrom).2 = last.map Prod.snd := by
      rw [cacheRead_last]
      exact cacheRead_long env _ [] (by rw [List.length_map]; omega)
    have hne : last.map Prod.snd ≠ [] := by
      intro h
      rw [List.map_eq_nil_iff.mp h] at hlong
      exact hlong (Nat.zero_le _)
    have hcontra : ∀ {out : List (List String)}, (stopped [] last).ReadsOut env out →
        (∀ r ∈ out, r.length ≤ readSetSize) → False := by
      intro out hout hall
      obtain ⟨out', rfl, -⟩ := ReadsOut.head env [] last hout (by rw [hread]; exact hne)
      have hle := hall _ List.mem_cons_self
      rw [hread, List.length_map] at hle
      exact hlong hle
    by_cases hempty : fifo = []
    · subst hempty
      exact hcontra hout hall
    · have hread₁ := cacheRead_short env fifo last hempty hfifo
      obtain ⟨out', rfl, hout'⟩ :=
        ReadsOut.head env fifo last hout (by rw [hread₁]; exact hempty)
      rw [hread₁] at hout'
      exact hcontra hout' fun r hr => hall r (List.mem_cons_of_mem _ hr)
  · rintro ⟨hfifo, hlast⟩
    obtain ⟨out, hout, hflat, hall⟩ := readsExactly_last env last hlast
    by_cases hempty : fifo = []
    · subst hempty
      exact ⟨out, hout, hflat, hall⟩
    · refine ⟨fifo :: out,
        readsOut_cons env fifo last (cacheRead_short env fifo last hempty hfifo) hempty hout, ?_,
        List.forall_mem_cons.mpr ⟨hfifo, hall⟩⟩
      rw [List.flatten_cons, hflat, List.nil_append]

/-- Where caching is skipped, nothing is read. -/
theorem readsExactly_skipped {s : Service} (h : s.skipCaching = true) :
    s.ReadsExactly env fifo last ↔ fifo = [] ∧ last = [] := by
  have hread : s.handle env .cacheRead = (s, ⟨false, []⟩) := if_pos h
  have hnone : ∀ n, ∀ r ∈ s.reads env n, r = [] := by
    intro n
    induction n with
    | zero => exact fun _ hr => absurd hr List.not_mem_nil
    | succ n ih =>
      rw [Service.reads, hread]
      exact List.forall_mem_cons.2 ⟨rfl, ih⟩
  constructor
  · rintro ⟨out, ⟨n, hreads, hall⟩, hflat, -⟩
    have hout : out = [] := by
      refine List.eq_nil_iff_forall_not_mem.2 fun r hr => hall r hr (hnone n r ?_)
      rw [hreads]
      exact List.mem_append_left _ hr
    rw [hout, List.flatten_nil] at hflat
    obtain ⟨hfifo, hlast⟩ := List.append_eq_nil_iff.1 hflat.symm
    exact ⟨hfifo, List.map_eq_nil_iff.1 hlast⟩
  · rintro ⟨rfl, rfl⟩
    refine ⟨[], ⟨1, ?_, by simp⟩, rfl, by simp⟩
    rw [Service.reads, hread]
    rfl

end Reads

/-- After a capture was stopped, reading the cache out gives exactly its events, if and only if
    there is room for the FIFO in one response and for the last events in another one, and caching
    is not skipped while there are any. -/
theorem read_out_iff (env : ServiceEnv) (skip : Bool) (c : Capture) (fifo : List String)
    (last : Dict String String) :
    (Service.handle env ⟨skip, some (.startCapture, c), fifo, last⟩ .cacheStop).1.ReadsExactly env
        c.events c.last ↔
      (skip = true → c.events = [] ∧ c.last = []) ∧
        c.events.length ≤ readSetSize ∧ c.last.length ≤ readSetSize := by
  cases skip with
  | false =>
    have hskip : ¬false = true := by decide
    exact (readsExactly_iff env c.events c.last).trans
      ⟨fun h => ⟨fun h' => absurd h' hskip, h⟩, fun h => h.2⟩
  | true =>
    refine (readsExactly_skipped env c.events c.last rfl).trans ⟨fun h => ⟨fun _ => h, ?_⟩, ?_⟩
    · simp [h.1, h.2]
    · exact fun h => h.1 rfl

/-- A moved string is empty. -/
def emptiedEnv : ServiceEnv := ⟨barCodec, 200, 3, fun _ => ""⟩

/-- 101 events come in the first response, and an empty string in the second one. -/
theorem read_out_101 :
    (stopped (List.replicate 101 "event") []).reads emptiedEnv 3 =
      [List.replicate 101 "event", [""], []] := by
  decide +kernel

end SonicBuildimage.Eventd
