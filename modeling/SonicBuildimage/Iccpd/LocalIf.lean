/-
  The lists of local interfaces of the CSMs: `mlacp_bind_local_if` and `mlacp_unbind_local_if`
  (app_csm.c).

  Model.  A list is a Lean list.  The links are inside the interface, so an interface can be in one
  `lif_list` and one purge list; `LIST_REMOVE` takes it out of the list it is in.  This is exact as
  long as an interface is in one list of each kind only, which `Linked` says.  The identifier of the
  port channel that a port belongs to is set from outside (`Event.setPo`), and the purge list is
  emptied when the purge is sent and when the session goes down (`Event.clearPurge`).

  `linked_of_run`: a sequence of calls keeps the lists consistent, under a condition on the
  bindings.  Without it a port channel stays in the purge list of the CSM it comes from, or is
  taken along with a member port although it is bound to another CSM or about to be purged.

  Not modelled: `port_config_sync`, the messages to mclagsyncd.
-/
import SonicBuildimage.Iccpd.MlacpFsm
import SonicBuildimage.Lib.Run

namespace SonicBuildimage.Iccpd.LocalIf

open SonicBuildimage.Lib

inductive IfType where
  | port
  | portChannel
  deriving DecidableEq

structure State (Csm Lif : Type) where
  lifList : Csm → List Lif
  purgeList : Csm → List Lif
  state : Csm → MlacpState
  csm : Lif → Option Csm
  poId : Lif → Int

inductive Event (Csm Lif : Type) where
  | bind (csm : Csm) (lif : Lif)
  | unbind (lif : Lif)
  | setState (csm : Csm) (state : MlacpState)
  | clearPurge (csm : Csm)
  | setPo (lif : Lif) (poId : Int)

variable {Csm Lif : Type} [DecidableEq Csm] [DecidableEq Lif]

/-- `LIST_INSERT_HEAD(&(MLACP(csm).lif_list), lif, mlacp_next); lif->csm = csm` -/
def insert (st : State Csm Lif) (csm : Csm) (lif : Lif) : State Csm Lif :=
  { st with
    lifList := Function.update st.lifList csm (lif :: st.lifList csm)
    csm := Function.update st.csm lif (some csm) }

def removePurge (st : State Csm Lif) (csm : Csm) (lif : Lif) : State Csm Lif :=
  { st with
    purgeList := Function.update st.purgeList csm ((st.purgeList csm).filter fun l => l ≠ lif) }

section Calls

variable (type : Lif → IfType) (sysList : List Lif)

def mlacpUnbindLocalIf (st : State Csm Lif) (lif : Lif) : State Csm Lif :=
  match st.csm lif with
  | none => st
  | some csm =>
    { st with
      lifList := fun c => (st.lifList c).filter fun l => l ≠ lif
      purgeList :=
        if st.state csm = .exchange ∧ type lif = .portChannel then
          Function.update st.purgeList csm (lif :: st.purgeList csm)
        else st.purgeList
      poId := if type lif = .port then Function.update st.poId lif (-1) else st.poId
      csm := Function.update st.csm lif none }

/-- A port channel with the identifier of the port. -/
def isPo (st : State Csm Lif) (lif po : Lif) : Bool :=
  type po = .portChannel && st.poId po = st.poId lif

/-- The result is the return value; `MCLAG_ERROR` is -1. -/
def mlacpBindLocalIf (st : State Csm Lif) (csm : Csm) (lif : Lif) : State Csm Lif × Int :=
  if st.csm lif = some csm then (st, 0)
  else
    let st := removePurge st csm lif
    if lif ∈ st.lifList csm then (st, 0)
    else
      -- an interface that is not bound comes back as it is
      let st := mlacpUnbindLocalIf type st lif
      let st := insert st csm lif
      if type lif = .portChannel then (st, 0)
      else if (st.lifList csm).any (isPo type st lif) then (st, 0)
      else
        match sysList.find? (isPo type st lif) with
        | none => (st, -1)
        | some po => (insert st csm po, 0)

/-- A change from outside; the identifier of a port channel does not change. -/
def next (st : State Csm Lif) : Event Csm Lif → State Csm Lif
  | .bind csm lif => (mlacpBindLocalIf type sysList st csm lif).1
  | .unbind lif => mlacpUnbindLocalIf type st lif
  | .setState csm state => { st with state := Function.update st.state csm state }
  | .clearPurge csm => { st with purgeList := Function.update st.purgeList csm [] }
  | .setPo lif poId =>
    if type lif = .port then { st with poId := Function.update st.poId lif poId } else st

def Step (st : State Csm Lif) (e : Event Csm Lif) (st' : State Csm Lif) : Prop :=
  next type sysList st e = st'

/-- The lists and the pointers of the interfaces say the same, and what is purged is not bound. -/
structure Linked (st : State Csm Lif) : Prop where
  member : ∀ csm lif, lif ∈ st.lifList csm ↔ st.csm lif = some csm
  nodup : ∀ csm, (st.lifList csm).Nodup
  purged : ∀ csm lif, lif ∈ st.purgeList csm → st.csm lif = none

/-- In no purge list of another CSM, and not on the way into one. -/
def Movable (st : State Csm Lif) (csm : Csm) (lif : Lif) : Prop :=
  ∀ c, c ≠ csm → lif ∉ st.purgeList c ∧
    (type lif = .portChannel → st.csm lif = some c → st.state c ≠ .exchange)

/-- The port channel that is taken along with a port is free.  A port that comes from another CSM
    has lost its identifier. -/
def Free (st : State Csm Lif) (csm : Csm) (lif : Lif) : Prop :=
  type lif = .port → ∀ po ∈ sysList, type po = .portChannel →
    st.poId po = (if st.csm lif = none then st.poId lif else -1) →
    st.csm po = some csm ∨ st.csm po = none ∧ ∀ c, po ∉ st.purgeList c

/-- A binding that moves nothing out of a list behind its back. -/
def Clean (st : State Csm Lif) : Event Csm Lif → Prop
  | .bind csm lif => st.csm lif ≠ some csm → Movable type st csm lif ∧ Free type sysList st csm lif
  | _ => True

end Calls

section Linked

variable {type : Lif → IfType} {sysList : List Lif} {st : State Csm Lif}

/-- A free interface is put in a list. -/
theorem Linked.insert {csm : Csm} {lif : Lif} (h : Linked st) (hfree : st.csm lif = none)
    (hpurge : ∀ c, lif ∉ st.purgeList c) : Linked (insert st csm lif) where
  member c l := by
    unfold LocalIf.insert
    dsimp only
    by_cases hl : l = lif
    · subst hl
      have hnot : ∀ c, l ∉ st.lifList c := by
        intro c hmem
        rw [h.member, hfree] at hmem
        exact absurd hmem (by simp)
      by_cases hc : c = csm
      · subst hc
        simp
      · simp [Function.update_of_ne hc, hnot c, Ne.symm hc]
    · rw [Function.update_of_ne hl, ← h.member]
      by_cases hc : c = csm
      · subst hc
        simp [hl]
      · rw [Function.update_of_ne hc]
  nodup c := by
    unfold LocalIf.insert
    dsimp only
    by_cases hc : c = csm
    · subst hc
      rw [Function.update_self, List.nodup_cons]
      refine ⟨fun hmem => ?_, h.nodup c⟩
      rw [h.member, hfree] at hmem
      exact absurd hmem (by simp)
    · rw [Function.update_of_ne hc]
      exact h.nodup c
  purged c l hl := by
    have hne : l ≠ lif := fun heq => hpurge c (heq ▸ hl)
    exact (Function.update_of_ne hne ..).trans (h.purged c l hl)

theorem mem_removePurge {csm c : Csm} {lif l : Lif} :
    l ∈ (removePurge st csm lif).purgeList c ↔ l ∈ st.purgeList c ∧ (c = csm → l ≠ lif) := by
  unfold removePurge
  dsimp only
  by_cases hc : c = csm
  · subst hc
    simp
  · rw [Function.update_of_ne hc]
    simp [hc]

theorem Linked.removePurge (h : Linked st) (csm : Csm) (lif : Lif) :
    Linked (removePurge st csm lif) where
  member := h.member
  nodup := h.nodup
  purged c l hl := h.purged c l (mem_removePurge.1 hl).1

/-- Behind `mlacp_unbind_local_if` an interface is free. -/
theorem csm_unbind (st : State Csm Lif) (lif : Lif) :
    (mlacpUnbindLocalIf type st lif).csm = Function.update st.csm lif none := by
  unfold mlacpUnbindLocalIf
  cases hcsm : st.csm lif with
  | none => exact (Function.update_eq_self_iff.2 hcsm.symm).symm
  | some c => rfl

theorem mem_purge_unbind {c : Csm} {lif l : Lif}
    (hl : l ∈ (mlacpUnbindLocalIf type st lif).purgeList c) :
    l ∈ st.purgeList c ∨
      l = lif ∧ st.csm lif = some c ∧ st.state c = .exchange ∧ type lif = .portChannel := by
  unfold mlacpUnbindLocalIf at hl
  cases hcsm : st.csm lif with
  | none =>
    rw [hcsm] at hl
    exact Or.inl hl
  | some csm =>
    rw [hcsm] at hl
    dsimp only at hl
    split at hl
    · next hpurge =>
      by_cases hc : c = csm
      · subst hc
        rw [Function.update_self, List.mem_cons] at hl
        exact hl.symm.imp_right fun heq => ⟨heq, rfl, hpurge⟩
      · rw [Function.update_of_ne hc] at hl
        exact Or.inl hl
    · exact Or.inl hl

theorem Linked.unbind (h : Linked st) (lif : Lif) : Linked (mlacpUnbindLocalIf type st lif) where
  member c l := by
    rw [csm_unbind]
    unfold mlacpUnbindLocalIf
    by_cases hl : l = lif
    · subst hl
      cases hcsm : st.csm l with
      | none => simp [h.member, hcsm]
      | some c' => simp
    · rw [Function.update_of_ne hl, ← h.member]
      cases hcsm : st.csm lif with
      | none => rfl
      | some c' => simp [hl]
  nodup c := by
    unfold mlacpUnbindLocalIf
    cases hcsm : st.csm lif with
    | none => exact h.nodup c
    | some c' => exact (h.nodup c).filter _
  purged c l hl := by
    rw [csm_unbind]
    rcases mem_purge_unbind hl with hl | ⟨rfl, -⟩
    · by_cases heq : l = lif
      · rw [heq, Function.update_self]
      · rw [Function.update_of_ne heq]
        exact h.purged c l hl
    · exact Function.update_self ..

theorem poId_unbind {lif : Lif} (hport : type lif = .port) (st : State Csm Lif) :
    (mlacpUnbindLocalIf type st lif).poId =
      Function.update st.poId lif (if st.csm lif = none then st.poId lif else -1) := by
  unfold mlacpUnbindLocalIf
  cases hcsm : st.csm lif with
  | none => exact (Function.update_eq_self ..).symm
  | some c => simp [hport]

theorem Linked.bind (h : Linked st) {csm : Csm} {lif : Lif}
    (hok : Clean type sysList st (.bind csm lif)) :
    Linked (mlacpBindLocalIf type sysList st csm lif).1 := by
  unfold mlacpBindLocalIf
  by_cases hne : st.csm lif = some csm
  · rw [if_pos hne]
    exact h
  rw [if_neg hne]
  obtain ⟨hmovable, hfree⟩ := hok hne
  dsimp only
  split
  · exact h.removePurge csm lif
  have hlinked : Linked (mlacpUnbindLocalIf type (LocalIf.removePurge st csm lif) lif) :=
    (h.removePurge csm lif).unbind lif
  have hcsm : (mlacpUnbindLocalIf type (LocalIf.removePurge st csm lif) lif).csm =
      Function.update st.csm lif none := csm_unbind ..
  -- what is purged behind the removals was purged before, and is not the interface
  have hpurge : ∀ c l,
      l ∈ (mlacpUnbindLocalIf type (LocalIf.removePurge st csm lif) lif).purgeList c →
      l ∈ st.purgeList c ∧ l ≠ lif := by
    intro c l hl
    rcases mem_purge_unbind hl with hl | ⟨rfl, hbound, hstate, htype⟩
    · obtain ⟨hold, hother⟩ := mem_removePurge.1 hl
      refine ⟨hold, ?_⟩
      rintro rfl
      by_cases hc : c = csm
      · exact hother hc rfl
      · exact (hmovable c hc).1 hold
    · by_cases hc : c = csm
      · exact absurd (hc ▸ hbound) hne
      · exact absurd hstate ((hmovable c hc).2 htype hbound)
  have hinsert : Linked
      (LocalIf.insert (mlacpUnbindLocalIf type (LocalIf.removePurge st csm lif) lif)
      csm lif) :=
    hlinked.insert (by rw [hcsm, Function.update_self]) fun c hl => (hpurge c lif hl).2 rfl
  split_ifs with htype hnone
  · exact hinsert
  · exact hinsert
  have hport : type lif = .port := by
    cases ht : type lif with
    | port => rfl
    | portChannel => exact absurd ht htype
  split
  · exact hinsert
  next po hfind =>
  have hpo := List.find?_some hfind
  have hmem := List.mem_of_find?_eq_some hfind
  have hpoId := poId_unbind hport (LocalIf.removePurge st csm lif)
  simp only [isPo, Bool.and_eq_true, decide_eq_true_eq] at hpo
  have hpo_ne : po ≠ lif := by
    rintro rfl
    exact htype hpo.1
  have hpoCsm : (LocalIf.insert
      (mlacpUnbindLocalIf type (LocalIf.removePurge st csm lif) lif) csm lif).csm po =
      st.csm po := by
    refine (Function.update_of_ne hpo_ne ..).trans ?_
    rw [hcsm, Function.update_of_ne hpo_ne]
  have hid : st.poId po = if st.csm lif = none then st.poId lif else -1 := by
    have hid := hpo.2
    change (mlacpUnbindLocalIf type (LocalIf.removePurge st csm lif) lif).poId po =
      (mlacpUnbindLocalIf type (LocalIf.removePurge st csm lif) lif).poId lif at hid
    rw [hpoId, Function.update_self, Function.update_of_ne hpo_ne] at hid
    exact hid
  rcases hfree hport po hmem hpo.1 hid with hbound | ⟨hunbound, hclear⟩
  · rw [← hpoCsm, ← hinsert.member] at hbound
    refine absurd (List.any_eq_true.2 ⟨po, hbound, ?_⟩) hnone
    exact List.find?_some hfind
  · exact hinsert.insert (hpoCsm.trans hunbound) fun c hl => hclear c (hpurge c po hl).1

/-- Every call keeps the lists. -/
theorem Linked.step {e : Event Csm Lif} (h : Linked st) (hok : Clean type sysList st e) :
    Linked (next type sysList st e) := by
  cases e with
  | bind csm lif => exact h.bind hok
  | unbind lif => exact h.unbind lif
  | setState csm state => exact ⟨h.member, h.nodup, h.purged⟩
  | clearPurge csm =>
    refine ⟨h.member, h.nodup, fun c l hl => ?_⟩
    by_cases hc : c = csm
    · subst hc
      simp [next] at hl
    · exact h.purged c l (by simpa [next, Function.update_of_ne hc] using hl)
  | setPo lif poId =>
    dsimp only [next]
    split
    · exact ⟨h.member, h.nodup, h.purged⟩
    · exact h

end Linked

/-- Over every sequence of clean calls and state changes. -/
theorem linked_of_run {type : Lif → IfType} {sysList : List Lif} {st st' : State Csm Lif}
    {es : List (Event Csm Lif)} (h0 : Linked st)
    (hrun : Run (Step type sysList) (Clean type sysList) st es st') : Linked st' := by
  refine hrun.invariant ?_ h0
  rintro s e _ h hok rfl
  exact h.step hok

/-- Two CSMs in the state EXCHANGE, the port channel 0 with the identifier 1 and the port 1 of it,
    nothing bound. -/
def sampleType : Fin 2 → IfType := fun lif => if lif = 0 then .portChannel else .port

def sampleState : State (Fin 2) (Fin 2) :=
  ⟨fun _ => [], fun _ => [], fun _ => .exchange, fun _ => none, fun _ => 1⟩

theorem linked_sampleState : Linked sampleState :=
  ⟨by decide, by decide, by decide⟩

/-- The port channel comes along with its port. -/
theorem port_bound : Linked (next sampleType [0, 1] sampleState (.bind 0 1)) ∧
    (next sampleType [0, 1] sampleState (.bind 0 1)).lifList 0 = [0, 1] := by
  refine ⟨linked_of_run linked_sampleState (.cons ?_ rfl (.nil _)), by decide⟩
  intro _
  exact ⟨by unfold Movable; decide, by unfold Free; decide⟩

/-- A port channel that moves to another CSM stays in the purge list of the first one; and a port
    takes its port channel along that is bound to another CSM. -/
theorem moved_unlinked :
    (∃ st', Run (Step sampleType [0, 1]) (fun _ _ => True) sampleState [.bind 0 0, .bind 1 0] st' ∧
      ¬Linked st') ∧
    ∃ st', Run (Step sampleType [0, 1]) (fun _ _ => True) sampleState [.bind 0 0, .bind 1 1] st' ∧
      ¬Linked st' := by
  refine ⟨⟨_, .cons trivial rfl (.cons trivial rfl (.nil _)), fun h => ?_⟩,
    ⟨_, .cons trivial rfl (.cons trivial rfl (.nil _)), fun h => ?_⟩⟩
  · exact absurd (h.purged 0 0 (by decide)) (by decide)
  · exact absurd ((h.member 0 0).1 (by decide)) (by decide)

end SonicBuildimage.Iccpd.LocalIf
