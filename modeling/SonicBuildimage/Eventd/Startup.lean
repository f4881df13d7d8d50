/-
  The start of a capture: events that are both in the initial stock and on the socket.

  The caller of the cache hands over the events that it has read itself.  Some of them are on the
  socket of the capture too, since that was connected before.  `do_capture` skips them by their
  sequence numbers, until each publisher of the stock has been seen with its last event, or as
  many events have been read as the stock has.

  Proved:
  * `captured_fifo`: if the socket starts with an event of the stock or right behind it, and the
    limit is not reached, the FIFO is the stock followed by the events behind it.
  * `captured_before_stock`: a socket that starts before the stock gives duplicates.
-/
import SonicBuildimage.Eventd.Capture

namespace SonicBuildimage.Eventd

open SonicBuildimage.Lib

variable {codec : Codec}

/-! ## Published events -/

/-- The second event is not older than the first one of its publisher. -/
def Newer (codec : Codec) (e e' : InternalEvent) : Prop :=
  ∀ rid s s', validateEvent codec e = some (rid, s) → validateEvent codec e' = some (rid, s') →
    s < s'

/-- Valid events whose sequence numbers increase for each publisher. -/
structure Published (codec : Codec) (l : List InternalEvent) : Prop where
  valid : ∀ e ∈ l, validateEvent codec e ≠ none
  increasing : l.Pairwise (Newer codec)

theorem Published.left {l l' : List InternalEvent} (h : Published codec (l ++ l')) :
    Published codec l :=
  ⟨fun e he => h.valid e (List.mem_append_left _ he), (List.pairwise_append.mp h.increasing).1⟩

theorem Published.right {l l' : List InternalEvent} (h : Published codec (l ++ l')) :
    Published codec l' :=
  ⟨fun e he => h.valid e (List.mem_append_right _ he), (List.pairwise_append.mp h.increasing).2.1⟩

theorem Published.newer {l l' : List InternalEvent} (h : Published codec (l ++ l')) :
    ∀ e ∈ l, ∀ e' ∈ l', Newer codec e e' :=
  (List.pairwise_append.mp h.increasing).2.2

theorem Published.exists_id {l : List InternalEvent} (h : Published codec l) {e : InternalEvent}
    (he : e ∈ l) : ∃ rid seq, validateEvent codec e = some (rid, seq) := by
  obtain ⟨p, hp⟩ := Option.ne_none_iff_exists'.mp (h.valid e he)
  exact ⟨p.1, p.2, hp⟩

/-! ## The publishers of the stock -/

/-- The sequence numbers to check against are those of events in the stock. -/
def KnownIds (codec : Codec) (stock : List InternalEvent) (preExistId : Dict String Nat) : Prop :=
  ∀ rid m, Dict.get? preExistId rid = some m →
    ∃ e ∈ stock, validateEvent codec e = some (rid, m)

/-- Each of these events will be found to be a duplicate. -/
def Covers (codec : Codec) (todo : List InternalEvent) (preExistId : Dict String Nat) : Prop :=
  ∀ e ∈ todo, ∀ rid s, validateEvent codec e = some (rid, s) →
    ∃ m, Dict.get? preExistId rid = some m ∧ s ≤ m

theorem cacheStock_eq (c : Capture) {e : InternalEvent} {rid : String} {seq : Nat}
    (hround : codec.deserialize (codec.serialize e) = some e)
    (hid : validateEvent codec e = some (rid, seq)) :
    cacheStock codec c (codec.serialize e) =
      { c with preExistId := Dict.set c.preExistId rid seq,
               events := c.events ++ [codec.serialize e] } := by
  unfold cacheStock
  rw [hround, Option.bind_some, hid]

theorem initCaptureCache_append (c : Capture) (l : List String) (s : String) :
    initCaptureCache codec c (l ++ [s]) = cacheStock codec (initCaptureCache codec c l) s := by
  unfold initCaptureCache
  rw [List.foldl_append]
  rfl

theorem initCaptureCache_spec (c : Capture) (hc : c.events = [] ∧ c.preExistId = [])
    {stock : List InternalEvent} (hpub : Published codec stock)
    (hround : ∀ e ∈ stock, codec.deserialize (codec.serialize e) = some e) :
    let c' := initCaptureCache codec c (stock.map codec.serialize)
    c'.events = stock.map codec.serialize ∧ c'.cacheMax = c.cacheMax ∧
      KnownIds codec stock c'.preExistId ∧ Covers codec stock c'.preExistId := by
  induction stock using List.reverseRecOn with
  | nil =>
    refine ⟨hc.1, rfl, ?_, fun e he => absurd he List.not_mem_nil⟩
    intro rid m hm
    rw [show (initCaptureCache codec c ([].map codec.serialize)).preExistId = [] from hc.2] at hm
    cases hm
  | append_singleton stock e ih =>
    have hmem : e ∈ stock ++ [e] := List.mem_append_right _ List.mem_cons_self
    obtain ⟨rid, seq, hid⟩ := hpub.exists_id hmem
    obtain ⟨hevents, hmax, hknown, hcovers⟩ :=
      ih hpub.left fun e' he' => hround e' (List.mem_append_left _ he')
    rw [List.map_append, List.map_singleton, initCaptureCache_append,
      cacheStock_eq _ (hround e hmem) hid]
    dsimp only
    refine ⟨by rw [hevents], hmax, ?_, ?_⟩
    · intro rid' m hm
      rw [Dict.get?_set] at hm
      split at hm
      · next hrid =>
        obtain rfl := hrid
        obtain rfl := Option.some.inj hm
        exact ⟨e, hmem, hid⟩
      · obtain ⟨e', he', hid'⟩ := hknown rid' m hm
        exact ⟨e', List.mem_append_left _ he', hid'⟩
    · intro e' he' rid' s hid'
      rw [Dict.get?_set]
      rcases List.mem_append.mp he' with he' | he'
      · -- an event of the same publisher is older than the one that was added
        split
        · next hrid =>
          obtain rfl := hrid
          have hlt := hpub.newer e' he' e List.mem_cons_self rid s seq hid' hid
          exact ⟨seq, rfl, by omega⟩
        · exact hcovers e' he' rid' s hid'
      · obtain rfl := List.mem_singleton.mp he'
        obtain ⟨rfl, rfl⟩ := Prod.mk.inj (Option.some.inj (hid.symm.trans hid'))
        exact ⟨seq, if_pos rfl, Nat.le_refl _⟩

/-! ## Duplicates -/

/-- The capture is done with the duplicates. -/
def Ready (codec : Codec) (stock : List InternalEvent) (c : Capture) : Prop :=
  c.capState = .active ∨ c.capState = .init ∧ KnownIds codec stock c.preExistId

theorem KnownIds.erase {stock : List InternalEvent} {preExistId : Dict String Nat}
    (h : KnownIds codec stock preExistId) (rid : String) :
    KnownIds codec stock (Dict.erase preExistId rid) := by
  intro rid' m hm
  rw [Dict.get?_erase] at hm
  split at hm
  · cases hm
  · exact h rid' m hm

theorem doCapture_cons (c : Capture) (i : Captured) (is : List Captured) :
    doCapture codec c (i :: is) = (doCapture1 codec c i).bind fun c' => doCapture codec c' is := by
  unfold doCapture
  rw [List.foldlM_cons]
  rfl

/-- With memory for each of them. -/
def stream (l : List InternalEvent) : List Captured := l.map fun e => ⟨e, true⟩

/-- A duplicate leaves the FIFO alone, and the others will still be found out. -/
theorem doCapture1_duplicate {c : Capture} {stock : List InternalEvent} {e : InternalEvent}
    {todo : List InternalEvent} (hinit : c.capState = .init)
    (hknown : KnownIds codec stock c.preExistId) (hcovers : Covers codec (e :: todo) c.preExistId)
    (hpub : Published codec (e :: todo)) :
    ∃ c', doCapture1 codec c ⟨e, true⟩ = some c' ∧ c'.events = c.events ∧
      c'.cacheMax = c.cacheMax ∧ Ready codec stock c' ∧
      (todo ≠ [] → 1 < c.initCnt → c'.capState = .init ∧ c'.initCnt = c.initCnt - 1 ∧
        KnownIds codec stock c'.preExistId ∧ Covers codec todo c'.preExistId) := by
  obtain ⟨rid, seq, hid⟩ := hpub.exists_id List.mem_cons_self
  obtain ⟨m, hm, hle⟩ := hcovers e List.mem_cons_self rid seq hid
  let preExistId := if seq ≥ m then Dict.erase c.preExistId rid else c.preExistId
  have hcheck : checkStock c.preExistId rid seq = (false, preExistId) := by
    unfold checkStock
    rw [hm]
    simp [hle, preExistId]
  have hknown' : KnownIds codec stock preExistId := by
    dsimp only [preExistId]
    split
    · exact hknown.erase rid
    · exact hknown
  have hcovers' : Covers codec todo preExistId := by
    intro e' he' rid' s hid'
    obtain ⟨m', hm', hle'⟩ := hcovers e' (List.mem_cons_of_mem _ he') rid' s hid'
    refine ⟨m', ?_, hle'⟩
    dsimp only [preExistId]
    split
    · next hge =>
      rw [Dict.get?_erase]
      split
      · next hrid =>
        -- the publisher of a later event would have been seen with its last one
        obtain rfl := hrid
        have hlt := (List.pairwise_cons.mp hpub.increasing).1 e' he' rid seq s hid hid'
        obtain rfl := Option.some.inj (hm.symm.trans hm')
        omega
      · exact hm'
    · exact hm'
  unfold doCapture1
  rw [hid, hinit]
  dsimp only
  unfold capInit
  rw [hcheck]
  simp only [Bool.false_eq_true, false_and, if_false]
  split
  · next hstop =>
    refine ⟨_, rfl, rfl, rfl, Or.inl rfl, fun hne hcnt => ?_⟩
    rcases hstop with hempty | hcnt'
    · obtain ⟨e', todo', rfl⟩ := List.exists_cons_of_ne_nil hne
      obtain ⟨rid', s, hid'⟩ := hpub.exists_id (List.mem_cons_of_mem _ List.mem_cons_self)
      obtain ⟨m', hm', -⟩ := hcovers' e' List.mem_cons_self rid' s hid'
      rw [hempty] at hm'
      cases hm'
    · omega
  · exact ⟨_, rfl, rfl, rfl, Or.inr ⟨hinit, hknown'⟩, fun _ _ => ⟨hinit, rfl, hknown', hcovers'⟩⟩

/-- The events of the stock that are on the socket are skipped. -/
theorem doCapture_duplicates {c : Capture} {stock todo : List InternalEvent}
    (hinit : c.capState = .init) (hknown : KnownIds codec stock c.preExistId)
    (hcovers : Covers codec todo c.preExistId) (hpub : Published codec todo)
    (hcnt : (todo.length : Int) ≤ c.initCnt) :
    ∃ c', doCapture codec c (stream todo) = some c' ∧ c'.events = c.events ∧
      c'.cacheMax = c.cacheMax ∧ Ready codec stock c' := by
  induction todo generalizing c with
  | nil => exact ⟨c, rfl, rfl, rfl, Or.inr ⟨hinit, hknown⟩⟩
  | cons e todo ih =>
    obtain ⟨c₁, hc₁, hevents, hmax, hready, hnext⟩ :=
      doCapture1_duplicate hinit hknown hcovers hpub
    have hsplit : stream (e :: todo) = ⟨e, true⟩ :: stream todo := rfl
    rw [hsplit, doCapture_cons, hc₁, Option.bind_some]
    by_cases hne : todo = []
    · subst hne
      exact ⟨c₁, rfl, hevents, hmax, hready⟩
    · have hpos : 0 < todo.length := List.length_pos_iff.mpr hne
      rw [List.length_cons] at hcnt
      obtain ⟨hinit₁, hcnt₁, hknown₁, hcovers₁⟩ := hnext hne (by omega)
      have hpub' : Published codec todo := Published.right (l := [e]) hpub
      obtain ⟨c₂, hc₂, hevents₂, hmax₂, hready₂⟩ :=
        ih hinit₁ hknown₁ hcovers₁ hpub' (by omega)
      exact ⟨c₂, hc₂, hevents₂.trans hevents, hmax₂.trans hmax, hready₂⟩

/-! ## New events -/

/-- An event behind the stock is added to the FIFO. -/
theorem doCapture1_new {c : Capture} {stock : List InternalEvent} {e : InternalEvent}
    (hready : Ready codec stock c) (hvalid : validateEvent codec e ≠ none)
    (hnewer : ∀ e' ∈ stock, Newer codec e' e) (hmax : (c.events.length : Int) + 1 < c.cacheMax) :
    ∃ c', doCapture1 codec c ⟨e, true⟩ = some c' ∧
      c'.events = c.events ++ [codec.serialize e] ∧ c'.cacheMax = c.cacheMax ∧
      Ready codec stock c' := by
  obtain ⟨⟨rid, seq⟩, hid⟩ := Option.ne_none_iff_exists'.mp hvalid
  unfold doCapture1
  rw [hid]
  rcases hready with hactive | ⟨hinit, hknown⟩
  · rw [hactive]
    have hlt : ¬ (((c.events ++ [codec.serialize e]).length : Nat) : Int) ≥ c.cacheMax := by
      rw [List.length_append, List.length_singleton]
      omega
    refine ⟨{ c with events := c.events ++ [codec.serialize e] }, ?_, rfl, rfl, Or.inl hactive⟩
    dsimp only
    unfold capActive
    rw [if_pos rfl, if_neg hlt]
  · rw [hinit]
    have hcheck : ∃ preExistId, checkStock c.preExistId rid seq = (true, preExistId) ∧
        KnownIds codec stock preExistId := by
      unfold checkStock
      cases hm : Dict.get? c.preExistId rid with
      | none => exact ⟨_, rfl, hknown⟩
      | some m =>
        obtain ⟨e', he', hid'⟩ := hknown rid m hm
        have hlt := hnewer e' he' rid m seq hid' hid
        have hge : seq ≥ m := by omega
        have hnle : ¬ seq ≤ m := by omega
        exact ⟨Dict.erase c.preExistId rid, by simp [hge, hnle], hknown.erase rid⟩
    obtain ⟨preExistId, hcheck, hknown'⟩ := hcheck
    dsimp only
    unfold capInit
    rw [hcheck]
    simp only [not_true_eq_false, and_false, if_false, if_true]
    split
    · exact ⟨_, rfl, rfl, rfl, Or.inl rfl⟩
    · exact ⟨_, rfl, rfl, rfl, Or.inr ⟨hinit, hknown'⟩⟩

theorem doCapture_new {c : Capture} {stock todo : List InternalEvent} (hready : Ready codec stock c)
    (hvalid : ∀ e ∈ todo, validateEvent codec e ≠ none)
    (hnewer : ∀ e' ∈ stock, ∀ e ∈ todo, Newer codec e' e)
    (hmax : (c.events.length : Int) + todo.length < c.cacheMax) :
    ∃ c', doCapture codec c (stream todo) = some c' ∧
      c'.events = c.events ++ todo.map codec.serialize := by
  induction todo generalizing c with
  | nil => exact ⟨c, rfl, (List.append_nil _).symm⟩
  | cons e todo ih =>
    rw [List.length_cons] at hmax
    obtain ⟨c₁, hc₁, hevents, hmax₁, hready₁⟩ := doCapture1_new hready
      (hvalid e List.mem_cons_self) (fun e' he' => hnewer e' he' e List.mem_cons_self) (by omega)
    have hlen : (c₁.events.length : Int) = c.events.length + 1 := by
      rw [hevents, List.length_append, List.length_singleton]
      omega
    obtain ⟨c₂, hc₂, hevents₂⟩ := ih hready₁ (fun e' he' => hvalid e' (List.mem_cons_of_mem _ he'))
      (fun e' he' e'' he'' => hnewer e' he' e'' (List.mem_cons_of_mem _ he'')) (by omega)
    have hsplit : stream (e :: todo) = ⟨e, true⟩ :: stream todo := rfl
    rw [hsplit, doCapture_cons, hc₁, Option.bind_some]
    refine ⟨c₂, hc₂, ?_⟩
    rw [hevents₂, hevents, List.append_assoc]
    rfl

/-! ## The FIFO -/

/-- The stock is a segment of what was published, and the socket starts in it or right behind it:
    `seen` is the part of the stock before the first event on the socket, `again` the rest of it. -/
theorem captured_fifo {before seen again new after : List InternalEvent} {cacheMax : Int}
    (maxPublishersCount : Nat)
    (hpub : Published codec (before ++ (seen ++ again) ++ new ++ after))
    (hround : ∀ e ∈ seen ++ again, codec.deserialize (codec.serialize e) = some e)
    (hmax : ((seen ++ again ++ new).length : Int) < cacheMax) :
    ∃ c, doCapture codec
        (startCapture codec cacheMax maxPublishersCount ((seen ++ again).map codec.serialize))
        (stream (again ++ new)) = some c ∧
      c.events = (seen ++ again ++ new).map codec.serialize := by
  have hpub' : Published codec (seen ++ again ++ new) := by
    have h := hpub.left
    rw [List.append_assoc before] at h
    exact h.right
  obtain ⟨hevents, hmax₀, hknown, hcovers⟩ := initCaptureCache_spec
    ⟨.init, 0, 0, cacheMax, [], (List.range maxPublishersCount).map fun i => (toString i, ""),
      false, [], 0⟩ ⟨rfl, rfl⟩ hpub'.left hround
  generalize hstart : startCapture codec cacheMax maxPublishersCount
    ((seen ++ again).map codec.serialize) = c₀
  have hinit : c₀.capState = .init := by
    rw [← hstart]
    exact (cacheStock_other codec _ _).1
  have hevents₀ : c₀.events = (seen ++ again).map codec.serialize := by
    rw [← hstart]
    exact hevents
  have hcnt : (again.length : Int) ≤ c₀.initCnt := by
    have hlen : c₀.initCnt = (c₀.events.length : Int) := by rw [← hstart]; rfl
    rw [hlen, hevents₀, List.length_map, List.length_append]
    omega
  have hknown₀ : KnownIds codec (seen ++ again) c₀.preExistId := by
    rw [← hstart]
    exact hknown
  have hcovers₀ : Covers codec again c₀.preExistId := by
    rw [← hstart]
    exact fun e he => hcovers e (List.mem_append_right _ he)
  have hcacheMax : c₀.cacheMax = cacheMax := by
    rw [← hstart]
    exact hmax₀
  obtain ⟨c₁, hc₁, hevents₁, hmax₁, hready⟩ :=
    doCapture_duplicates hinit hknown₀ hcovers₀ hpub'.left.right hcnt
  have hroom : (c₁.events.length : Int) + new.length < c₁.cacheMax := by
    rw [hevents₁, hevents₀, hmax₁, hcacheMax, List.length_map]
    rw [List.length_append] at hmax
    omega
  obtain ⟨c₂, hc₂, hevents₂⟩ := doCapture_new hready hpub'.right.valid hpub'.newer hroom
  refine ⟨c₂, ?_, ?_⟩
  · have hsplit : stream (again ++ new) = stream again ++ stream new := List.map_append
    unfold doCapture at hc₁ hc₂ ⊢
    rw [hsplit, List.foldlM_append, hc₁]
    exact hc₂
  · rw [hevents₂, hevents₁, hevents₀, ← List.map_append]

theorem newer_of_ids {e e' : InternalEvent} {rid rid' : String} {s s' : Nat}
    (h : validateEvent codec e = some (rid, s)) (h' : validateEvent codec e' = some (rid', s'))
    (hlt : rid = rid' → s < s') : Newer codec e e' := by
  intro r n n' hr hr'
  obtain ⟨rfl, rfl⟩ := Prod.mk.inj (Option.some.inj (h.symm.trans hr))
  obtain ⟨rfl, rfl⟩ := Prod.mk.inj (Option.some.inj (h'.symm.trans hr'))
  exact hlt rfl

theorem published_strokes :
    Published barCodec [strokes "a" 1, strokes "b" 1, strokes "a" 2] := by
  have ha : validateEvent barCodec (strokes "a" 1) = some ("a", 1) := by decide +kernel
  have hb : validateEvent barCodec (strokes "b" 1) = some ("b", 1) := by decide +kernel
  have ha' : validateEvent barCodec (strokes "a" 2) = some ("a", 2) := by decide +kernel
  refine ⟨by decide +kernel, ?_⟩
  simp only [List.pairwise_cons, List.mem_cons, List.not_mem_nil, or_false, forall_eq_or_imp,
    forall_eq, false_imp_iff, implies_true, List.Pairwise.nil, and_true]
  exact ⟨⟨newer_of_ids ha hb (by decide), newer_of_ids ha ha' (by decide)⟩,
    newer_of_ids hb ha' (by decide)⟩

/-- The second event of the stock is on the socket too. -/
theorem captured_fifo_strokes :
    ∃ c, doCapture barCodec
        (startCapture barCodec 10 3 ([strokes "a" 1, strokes "b" 1].map barCodec.serialize))
        (stream [strokes "b" 1, strokes "a" 2]) = some c ∧
      c.events = [strokes "a" 1, strokes "b" 1, strokes "a" 2].map barCodec.serialize :=
  @captured_fifo barCodec [] [strokes "a" 1] [strokes "b" 1] [strokes "a" 2] [] 10 3
    published_strokes (by decide +kernel) (by decide)

/-- The stock is the second event, and the socket starts with the first one.  It is of another
    publisher and is added behind the stock; then as many events have been read as the stock has,
    and the second one is added again. -/
theorem captured_before_stock :
    ∃ c, doCapture barCodec (startCapture barCodec 10 3 [barCodec.serialize (strokes "b" 1)])
        (stream [strokes "a" 1, strokes "b" 1]) = some c ∧
      c.events = [strokes "b" 1, strokes "a" 1, strokes "b" 1].map barCodec.serialize := by
  refine ⟨_, rfl, ?_⟩
  decide +kernel

end SonicBuildimage.Eventd
