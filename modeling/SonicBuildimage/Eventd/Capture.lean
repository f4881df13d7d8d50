/-
  The cache of events: `capture_service` of eventd.cpp, and its count of missed events.

  Model.  A capture is the members of `capture_service` together with the locals of
  `do_capture`.  `doCapture1` is one round of its loop for an event that has been read;
  reads that fail or cannot be decoded are no rounds.  How events are serialized is a parameter
  (`Codec`).  Each event comes with whether `push_back` finds memory for it.  Without memory the
  round falls through to the last events in the state ACTIVE; in the state INIT the exception is
  not caught (`none`).

  Proved:
  * `accounted_iff`: at each point of a capture every event read is either a duplicate of the
    stock, or in the FIFO, or in the map of last events, or counted as missed, exactly if
    `push_back` finds memory and no publisher shows up for the first time once an event has been
    missed.  From the first missed event on, `total_overflow` exceeds the size of the map for good,
    so the first event of a publisher counts as missed although it is in the map;
    `new_publisher_missed` is such a capture.

  Not modelled: threads and sockets, and that counters are 64 bits wide.
-/
import SonicBuildimage.Lib.PyDict
import Mathlib.Tactic.Common

namespace SonicBuildimage.Eventd

open SonicBuildimage.Lib

/-! ## Events -/

/-- `internal_event_t` -/
abbrev InternalEvent := Dict String String

/-- The names of fields and the serialization of events, from swss-common. -/
structure Codec where
  runtimeId : String
  sequence : String
  strData : String
  strToSeq : String → Nat
  serialize : InternalEvent → String
  deserialize : String → Option InternalEvent

/-- `validate_event`: the runtime id and the sequence number. -/
def validateEvent (codec : Codec) (event : InternalEvent) : Option (String × Nat) :=
  match Dict.get? event codec.runtimeId, Dict.get? event codec.sequence,
    Dict.get? event codec.strData with
  | some rid, some seq, some _ => some (rid, codec.strToSeq seq)
  | _, _, _ => none

/-! ## The capture -/

inductive CapState where
  | init
  | active
  | last
  deriving DecidableEq

structure Capture where
  capState : CapState
  initCnt : Int
  totalOverflow : Nat
  cacheMax : Int
  events : List String
  lastEvents : Dict String String
  lastEventsInit : Bool
  preExistId : Dict String Nat
  totalMissedCache : Nat

/-- An event of the initial stock. -/
def cacheStock (codec : Codec) (c : Capture) (s : String) : Capture :=
  match (codec.deserialize s).bind (validateEvent codec) with
  | some (rid, seq) =>
    { c with preExistId := Dict.set c.preExistId rid seq, events := c.events ++ [s] }
  | none => c

/-- `init_capture_cache` -/
def initCaptureCache (codec : Codec) (c : Capture) (lst : List String) : Capture :=
  lst.foldl (cacheStock codec) c

/-- The capture when it starts to read.  The map of last events holds `maxPublishersCount` entries,
    so that there is memory for them. -/
def startCapture (codec : Codec) (cacheMax : Int) (maxPublishersCount : Nat) (lst : List String) :
    Capture :=
  let reserved := (List.range maxPublishersCount).map fun i => (toString i, "")
  let c := initCaptureCache codec ⟨.init, 0, 0, cacheMax, [], reserved, false, [], 0⟩ lst
  { c with initCnt := c.events.length }

/-- An event that has been read, and whether there is memory for it. -/
structure Captured where
  event : InternalEvent
  alloc : Bool

/-- Whether an event is not in the stock, and which publishers are still to be checked then. -/
def checkStock (preExistId : Dict String Nat) (rid : String) (seq : Nat) : Bool × Dict String Nat :=
  match Dict.get? preExistId rid with
  | none => (true, preExistId)
  | some s => (!decide (seq ≤ s), if seq ≥ s then Dict.erase preExistId rid else preExistId)

/-- `case CAP_STATE_INIT` -/
def capInit (c : Capture) (rid : String) (seq : Nat) (evt : String) (alloc : Bool) :
    Option Capture :=
  let (add, preExistId) := checkStock c.preExistId rid seq
  if add ∧ ¬ alloc then none
  else
    let events := if add then c.events ++ [evt] else c.events
    if preExistId = [] ∨ c.initCnt - 1 ≤ 0 then
      some { c with initCnt := c.initCnt - 1, preExistId := [], events := events,
                    capState := .active }
    else some { c with initCnt := c.initCnt - 1, preExistId := preExistId, events := events }

/-- `case CAP_STATE_LAST` -/
def capLast (c : Capture) (rid evt : String) : Capture :=
  let lastEvents := Dict.set c.lastEvents rid evt
  let totalOverflow := c.totalOverflow + 1
  { c with
    totalOverflow := totalOverflow
    lastEvents := lastEvents
    totalMissedCache :=
      if totalOverflow > lastEvents.length then c.totalMissedCache + 1 else c.totalMissedCache }

/-- `case CAP_STATE_ACTIVE` -/
def capActive (c : Capture) (rid evt : String) (alloc : Bool) : Capture :=
  if alloc then
    let events := c.events ++ [evt]
    if (events.length : Int) ≥ c.cacheMax then
      { c with events := events, capState := .last, lastEvents := [], lastEventsInit := true }
    else { c with events := events }
  else capLast { c with capState := .last } rid evt

/-- One round of the loop in `do_capture`. -/
def doCapture1 (codec : Codec) (c : Capture) (i : Captured) : Option Capture :=
  match validateEvent codec i.event with
  | none => some c
  | some (rid, seq) =>
    match c.capState with
    | .init => capInit c rid seq (codec.serialize i.event) i.alloc
    | .active => some (capActive c rid (codec.serialize i.event) i.alloc)
    | .last => some (capLast c rid (codec.serialize i.event))

/-- `do_capture` -/
def doCapture (codec : Codec) (c : Capture) (is : List Captured) : Option Capture :=
  is.foldlM (doCapture1 codec) c

/-! ## Accounting -/

/-- What `read_cache` finds in the map of last events. -/
def Capture.last (c : Capture) : Dict String String := if c.lastEventsInit then c.lastEvents else []

/-- A capture with the number of events read and of those skipped as duplicates. -/
structure Counted where
  capture : Capture
  read : Nat
  skipped : Nat

/-- Whether an event is skipped. -/
def isDuplicate (c : Capture) (rid : String) (seq : Nat) : Bool :=
  c.capState = .init && !(checkStock c.preExistId rid seq).1

def count1 (codec : Codec) (s : Counted) (i : Captured) : Option Counted :=
  (doCapture1 codec s.capture i).map fun c =>
    match validateEvent codec i.event with
    | none => ⟨c, s.read, s.skipped⟩
    | some (rid, seq) =>
      ⟨c, s.read + 1, s.skipped + if isDuplicate s.capture rid seq then 1 else 0⟩

def countAll (codec : Codec) (s : Counted) (is : List Captured) : Option Counted :=
  is.foldlM (count1 codec) s

/-- Every event read is accounted for; `stock` is the number of events in the initial stock. -/
def Accounted (stock : Nat) (s : Counted) : Prop :=
  stock + s.read =
    s.skipped + s.capture.events.length + s.capture.last.length + s.capture.totalMissedCache

instance (stock : Nat) (s : Counted) : Decidable (Accounted stock s) :=
  inferInstanceAs (Decidable (_ = _))

/-- There is memory for the event, and it is not the first one of its publisher after an event was
    missed. -/
def EventOk (codec : Codec) (c : Capture) (i : Captured) : Prop :=
  ∀ rid seq, validateEvent codec i.event = some (rid, seq) →
    (c.capState = .active → i.alloc = true) ∧
      (c.capState = .last → rid ∈ Dict.keys c.lastEvents ∨ c.totalMissedCache = 0)

/-- What holds at a point of a capture up to which all is accounted for. -/
structure Sound (stock : Nat) (s : Counted) : Prop where
  accounted : Accounted stock s
  early : s.capture.capState ≠ .last → s.capture.lastEventsInit = false ∧
    s.capture.totalOverflow = 0 ∧ s.capture.totalMissedCache = 0
  late : s.capture.capState = .last → s.capture.lastEventsInit = true ∧
    s.capture.totalOverflow = s.capture.lastEvents.length + s.capture.totalMissedCache

section Step

variable {codec : Codec} {stock : Nat} {s s' : Counted} {i : Captured}

/-- Before the state LAST the events are in the FIFO or were skipped. -/
theorem Sound.sum_early (h : Sound stock s) (hc : s.capture.capState ≠ .last) :
    stock + s.read = s.skipped + s.capture.events.length := by
  have hacc := h.accounted
  have hlast : s.capture.last = [] := by simp [Capture.last, (h.early hc).1]
  rw [Accounted, hlast, (h.early hc).2.2] at hacc
  exact hacc

/-- An event in the state INIT is a duplicate or gets into the FIFO. -/
theorem sound_init (h : Sound stock s) {rid : String} {seq : Nat} {evt : String} {alloc : Bool}
    (hinit : s.capture.capState = .init) {c : Capture}
    (hc : capInit s.capture rid seq evt alloc = some c) :
    Sound stock ⟨c, s.read + 1,
      s.skipped + if isDuplicate s.capture rid seq then 1 else 0⟩ := by
  have hne : s.capture.capState ≠ .last := by simp [hinit]
  obtain ⟨hflag, hover, hmissed⟩ := h.early hne
  have hacc := h.sum_early hne
  have hdup : isDuplicate s.capture rid seq = !(checkStock s.capture.preExistId rid seq).1 := by
    simp [isDuplicate, hinit]
  rw [hdup]
  unfold capInit at hc
  generalize checkStock s.capture.preExistId rid seq = p at hc
  obtain ⟨add, preExistId⟩ := p
  dsimp only at hc ⊢
  split at hc
  · cases hc
  · -- the two outcomes differ in the publishers to be checked and the next state only
    have hsum : stock + (s.read + 1) = s.skipped + (if !add then 1 else 0) +
        (if add then s.capture.events ++ [evt] else s.capture.events).length + 0 + 0 := by
      cases add with
      | true =>
        simp only [Bool.not_true, Bool.false_eq_true, if_false, if_true, List.length_append,
          List.length_singleton]
        omega
      | false =>
        simp only [Bool.not_false, if_true, Bool.false_eq_true, if_false]
        omega
    split at hc
    · obtain rfl := Option.some.inj hc
      refine ⟨?_, fun _ => ⟨hflag, hover, hmissed⟩, fun hl => nomatch hl⟩
      simpa [Accounted, Capture.last, hflag, hmissed] using hsum
    · obtain rfl := Option.some.inj hc
      refine ⟨?_, fun _ => ⟨hflag, hover, hmissed⟩, fun hl => absurd hl hne⟩
      simpa [Accounted, Capture.last, hflag, hmissed] using hsum

/-- An event for which there is memory gets into the FIFO. -/
theorem sound_active (h : Sound stock s) (rid evt : String)
    (hactive : s.capture.capState = .active) :
    Sound stock ⟨capActive s.capture rid evt true, s.read + 1, s.skipped⟩ := by
  have hne : s.capture.capState ≠ .last := by simp [hactive]
  obtain ⟨hflag, hover, hmissed⟩ := h.early hne
  have hacc := h.sum_early hne
  unfold capActive
  simp only [if_true]
  split
  · refine ⟨?_, fun hl => absurd rfl hl, fun _ => ⟨rfl, ?_⟩⟩
    · simp only [Accounted, Capture.last, if_true, List.length_append, List.length_singleton,
        List.length_nil, hmissed]
      omega
    · simp [hover, hmissed]
  · refine ⟨?_, fun _ => ⟨hflag, hover, hmissed⟩, fun hl => absurd hl hne⟩
    simp only [Accounted, Capture.last, hflag, Bool.false_eq_true, if_false, List.length_append,
      List.length_singleton, List.length_nil, hmissed]
    omega

/-- Without memory the event is lost, and this is not counted. -/
theorem not_accounted_active (h : Sound stock s) (rid evt : String)
    (hactive : s.capture.capState = .active) :
    ¬ Accounted stock ⟨capActive s.capture rid evt false, s.read + 1, s.skipped⟩ := by
  have hne : s.capture.capState ≠ .last := by simp [hactive]
  obtain ⟨hflag, hover, hmissed⟩ := h.early hne
  have hacc := h.sum_early hne
  have hpos : 0 < (Dict.set s.capture.lastEvents rid evt).length :=
    List.length_pos_iff.mpr (Dict.set_ne_nil _ _ _)
  have hle : ¬ 0 + 1 > (Dict.set s.capture.lastEvents rid evt).length := by omega
  simp only [Accounted, capActive, capLast, Bool.false_eq_true, if_false, Capture.last, hflag,
    hover, hmissed, if_neg hle, List.length_nil]
  omega

/-- An event in the state LAST replaces another one, or it is the first of its publisher. -/
theorem accounted_last (h : Sound stock s) (rid evt : String) (hlast : s.capture.capState = .last) :
    Accounted stock ⟨capLast s.capture rid evt, s.read + 1, s.skipped⟩ ↔
      rid ∈ Dict.keys s.capture.lastEvents ∨ s.capture.totalMissedCache = 0 := by
  obtain ⟨hflag, hover⟩ := h.late hlast
  have hacc := h.accounted
  simp only [Accounted, Capture.last, hflag, if_true] at hacc
  simp only [Accounted, capLast, Capture.last, hflag, if_true, Dict.length_set]
  by_cases hmem : rid ∈ Dict.keys s.capture.lastEvents
  · have hgt : s.capture.totalOverflow + 1 > s.capture.lastEvents.length := by omega
    simp only [hmem, if_true, if_pos hgt, true_or, iff_true]
    omega
  · simp only [hmem, if_false, false_or]
    by_cases hzero : s.capture.totalMissedCache = 0
    · have hle : ¬ s.capture.totalOverflow + 1 > s.capture.lastEvents.length + 1 := by omega
      simp only [if_neg hle, hzero, iff_true]
      omega
    · have hgt : s.capture.totalOverflow + 1 > s.capture.lastEvents.length + 1 := by omega
      simp only [if_pos hgt, hzero, iff_false]
      omega

theorem sound_last (h : Sound stock s) (rid evt : String) (hlast : s.capture.capState = .last)
    (hacc' : Accounted stock ⟨capLast s.capture rid evt, s.read + 1, s.skipped⟩) :
    Sound stock ⟨capLast s.capture rid evt, s.read + 1, s.skipped⟩ := by
  obtain ⟨hflag, hover⟩ := h.late hlast
  have hacc := h.accounted
  refine ⟨hacc', fun hl => absurd hlast hl, fun _ => ⟨hflag, ?_⟩⟩
  simp only [Accounted, Capture.last, hflag, if_true, capLast] at hacc hacc' ⊢
  omega

theorem isDuplicate_of_ne (c : Capture) (hc : c.capState ≠ .init) (rid : String) (seq : Nat) :
    isDuplicate c rid seq = false := by
  simp [isDuplicate, hc]

/-- One round: all is still accounted for exactly if the event meets the condition. -/
theorem sound_step (h : Sound stock s) (hs' : count1 codec s i = some s') :
    (Accounted stock s' ↔ EventOk codec s.capture i) ∧
      (EventOk codec s.capture i → Sound stock s') := by
  unfold count1 doCapture1 at hs'
  cases hval : validateEvent codec i.event with
  | none =>
    rw [hval] at hs'
    obtain rfl := Option.some.inj hs'
    have hok : EventOk codec s.capture i := by
      intro rid seq hsome
      rw [hval] at hsome
      cases hsome
    exact ⟨iff_of_true h.accounted hok, fun _ => h⟩
  | some p =>
    obtain ⟨rid, seq⟩ := p
    have hok : EventOk codec s.capture i ↔ (s.capture.capState = .active → i.alloc = true) ∧
        (s.capture.capState = .last →
          rid ∈ Dict.keys s.capture.lastEvents ∨ s.capture.totalMissedCache = 0) := by
      unfold EventOk
      rw [hval]
      exact ⟨fun hall => hall rid seq rfl, fun hone rid' seq' heq => by cases heq; exact hone⟩
    rw [hval] at hs'
    dsimp only at hs'
    cases hstate : s.capture.capState with
    | init =>
      rw [hstate] at hs'
      obtain ⟨c, hc, rfl⟩ := Option.map_eq_some_iff.mp hs'
      have hsound := sound_init h hstate hc
      have htrue : EventOk codec s.capture i := by
        rw [hok, hstate]
        exact ⟨nofun, nofun⟩
      exact ⟨iff_of_true hsound.accounted htrue, fun _ => hsound⟩
    | active =>
      rw [hstate] at hs'
      obtain rfl := Option.some.inj hs'
      simp only [isDuplicate_of_ne s.capture (by simp [hstate]), Bool.false_eq_true, if_false,
        Nat.add_zero]
      cases halloc : i.alloc with
      | true =>
        have hsound := sound_active h rid (codec.serialize i.event) hstate
        have htrue : EventOk codec s.capture i := by
          rw [hok, hstate]
          exact ⟨fun _ => halloc, nofun⟩
        exact ⟨iff_of_true hsound.accounted htrue, fun _ => hsound⟩
      | false =>
        have hfalse : ¬ EventOk codec s.capture i := by
          rw [hok, hstate, halloc]
          exact fun h' => nomatch h'.1 rfl
        exact ⟨iff_of_false (not_accounted_active h rid _ hstate) hfalse,
          fun h' => absurd h' hfalse⟩
    | last =>
      rw [hstate] at hs'
      obtain rfl := Option.some.inj hs'
      simp only [isDuplicate_of_ne s.capture (by simp [hstate]), Bool.false_eq_true, if_false,
        Nat.add_zero]
      have hiff := accounted_last h rid (codec.serialize i.event) hstate
      have hok' : EventOk codec s.capture i ↔
          rid ∈ Dict.keys s.capture.lastEvents ∨ s.capture.totalMissedCache = 0 := by
        rw [hok, hstate]
        exact ⟨fun h' => h'.2 rfl, fun h' => ⟨nofun, fun _ => h'⟩⟩
      rw [hok']
      exact ⟨hiff, fun h' => sound_last h rid _ hstate (hiff.mpr h')⟩

end Step

/-! ## Whole captures -/

/-- The counts when a capture starts to read. -/
def startCounted (codec : Codec) (cacheMax : Int) (maxPublishersCount : Nat)
    (stock : List String) : Counted :=
  ⟨startCapture codec cacheMax maxPublishersCount stock, 0, 0⟩

theorem cacheStock_other (codec : Codec) (c : Capture) (lst : List String) :
    let c' := initCaptureCache codec c lst
    c'.capState = c.capState ∧ c'.lastEventsInit = c.lastEventsInit ∧
      c'.totalOverflow = c.totalOverflow ∧ c'.totalMissedCache = c.totalMissedCache := by
  induction lst generalizing c with
  | nil => exact ⟨rfl, rfl, rfl, rfl⟩
  | cons s lst ih =>
    have hone : (cacheStock codec c s).capState = c.capState ∧
        (cacheStock codec c s).lastEventsInit = c.lastEventsInit ∧
        (cacheStock codec c s).totalOverflow = c.totalOverflow ∧
        (cacheStock codec c s).totalMissedCache = c.totalMissedCache := by
      unfold cacheStock
      split
      · exact ⟨rfl, rfl, rfl, rfl⟩
      · exact ⟨rfl, rfl, rfl, rfl⟩
    obtain ⟨h₁, h₂, h₃, h₄⟩ := ih (cacheStock codec c s)
    exact ⟨h₁.trans hone.1, h₂.trans hone.2.1, h₃.trans hone.2.2.1, h₄.trans hone.2.2.2⟩

theorem sound_start (codec : Codec) (cacheMax : Int) (maxPublishersCount : Nat)
    (stock : List String) :
    Sound (startCapture codec cacheMax maxPublishersCount stock).events.length
      (startCounted codec cacheMax maxPublishersCount stock) := by
  obtain ⟨hstate, hflag, hover, hmissed⟩ := cacheStock_other codec
    ⟨.init, 0, 0, cacheMax, [], (List.range maxPublishersCount).map fun i => (toString i, ""),
      false, [], 0⟩ stock
  have hstate' : (startCapture codec cacheMax maxPublishersCount stock).capState = .init := hstate
  have hflag' : (startCapture codec cacheMax maxPublishersCount stock).lastEventsInit = false :=
    hflag
  have hmissed' : (startCapture codec cacheMax maxPublishersCount stock).totalMissedCache = 0 :=
    hmissed
  refine ⟨?_, fun _ => ⟨hflag, hover, hmissed⟩, fun hl => ?_⟩
  · simp [Accounted, startCounted, Capture.last, hflag', hmissed']
  · rw [startCounted, hstate'] at hl
    cases hl

theorem countAll_append (codec : Codec) (s : Counted) (is js : List Captured) :
    countAll codec s (is ++ js) = (countAll codec s is).bind fun s' => countAll codec s' js := by
  unfold countAll
  rw [List.foldlM_append]
  rfl

theorem countAll_concat {codec : Codec} {s₀ s : Counted} {pre : List Captured} {i : Captured}
    (hs : countAll codec s₀ (pre ++ [i]) = some s) :
    ∃ s₁, countAll codec s₀ pre = some s₁ ∧ count1 codec s₁ i = some s := by
  rw [countAll_append] at hs
  obtain ⟨s₁, hs₁, hs⟩ := Option.bind_eq_some_iff.mp hs
  refine ⟨s₁, hs₁, ?_⟩
  simpa [countAll] using hs

/-- All is sound at each point of a capture, if each of its events keeps it so. -/
theorem sound_countAll {codec : Codec} {n : Nat} {s₀ : Counted} {is : List Captured}
    (h₀ : Sound n s₀)
    (hstep : ∀ pre i s₁ s, pre ++ [i] <+: is → countAll codec s₀ pre = some s₁ →
      countAll codec s₀ (pre ++ [i]) = some s → count1 codec s₁ i = some s → Sound n s₁ →
      Sound n s)
    {pre : List Captured} {s : Counted} (hpre : pre <+: is)
    (hs : countAll codec s₀ pre = some s) : Sound n s := by
  induction pre using List.reverseRecOn generalizing s with
  | nil =>
    obtain rfl := Option.some.inj hs
    exact h₀
  | append_singleton pre i ih =>
    obtain ⟨s₁, hs₁, hlast⟩ := countAll_concat hs
    exact hstep pre i s₁ s hpre hs₁ hs hlast (ih ((List.prefix_append pre [i]).trans hpre) hs₁)

/-- At each point of the capture all events read are accounted for exactly if each event met the
    condition when it was read. -/
theorem accounted_iff (codec : Codec) (cacheMax : Int) (maxPublishersCount : Nat)
    (stock : List String) (is : List Captured) :
    (∀ pre s, pre <+: is →
      countAll codec (startCounted codec cacheMax maxPublishersCount stock) pre = some s →
      Accounted (startCapture codec cacheMax maxPublishersCount stock).events.length s) ↔
    (∀ pre i s, pre ++ [i] <+: is →
      countAll codec (startCounted codec cacheMax maxPublishersCount stock) (pre ++ [i]) ≠ none →
      countAll codec (startCounted codec cacheMax maxPublishersCount stock) pre = some s →
      EventOk codec s.capture i) := by
  generalize hstart : startCounted codec cacheMax maxPublishersCount stock = s₀
  generalize hstock : (startCapture codec cacheMax maxPublishersCount stock).events.length = n
  have hsound₀ : Sound n s₀ := by
    rw [← hstart, ← hstock]
    exact sound_start codec cacheMax maxPublishersCount stock
  constructor
  · intro hall pre i s hpre hsome hs
    obtain ⟨s', hs'⟩ := Option.ne_none_iff_exists'.mp hsome
    obtain ⟨s₁, hs₁, hlast⟩ := countAll_concat hs'
    obtain rfl : s₁ = s := Option.some.inj (hs₁.symm.trans hs)
    have hsound : Sound n s₁ := by
      refine sound_countAll hsound₀ ?_ ((List.prefix_append pre [i]).trans hpre) hs
      intro pre i s₁ s hpre _ hs hstep h₁
      obtain ⟨hiff, hkeep⟩ := sound_step h₁ hstep
      exact hkeep (hiff.mp (hall _ s hpre hs))
    exact (sound_step hsound hlast).1.mp (hall _ s' hpre hs')
  · intro hall pre s hpre hs
    refine (sound_countAll hsound₀ ?_ hpre hs).accounted
    intro pre i s₁ s hpre hs₁ hs hstep h₁
    exact (sound_step h₁ hstep).2 (hall pre i s₁ hpre (by rw [hs]; exact nofun) hs₁)

/-- Events of two fields and their text, one after the other with bars between. -/
def barCodec : Codec where
  runtimeId := "r"
  sequence := "s"
  strData := "d"
  strToSeq := fun s => s.toList.length
  serialize := fun e => "|".intercalate (e.map Prod.snd)
  deserialize := fun s =>
    match s.toList.splitOn '|' with
    | [r, n, d] =>
      some [("r", String.ofList r), ("s", String.ofList n), ("d", String.ofList d)]
    | _ => none

/-- An event of a publisher, with as many strokes as its sequence number says. -/
def strokes (rid : String) (seq : Nat) : InternalEvent :=
  [("r", rid), ("s", String.ofList (List.replicate seq '1')), ("d", "{}")]

/-- After two events the cache is full.  Then come two events of `a` and one of `b`; one event is
    overwritten, and two are counted as missed. -/
theorem new_publisher_missed :
    ∃ s, countAll barCodec (startCounted barCodec 1 3 [])
        [⟨strokes "a" 1, true⟩, ⟨strokes "a" 2, true⟩, ⟨strokes "a" 3, true⟩,
          ⟨strokes "a" 4, true⟩, ⟨strokes "b" 1, true⟩] = some s ∧
      s.read = 5 ∧ s.skipped = 0 ∧ s.capture.events.length = 2 ∧ s.capture.last.length = 2 ∧
      s.capture.totalMissedCache = 2 ∧ ¬ Accounted 0 s := by
  refine ⟨_, rfl, ?_⟩
  decide +kernel

end SonicBuildimage.Eventd
