/-
  Runs of a labelled transition system, and the rule that carries an invariant over them.

  `Run step ok s es s'`: from `s` the events `es` lead to `s'`, and every event met the
  side condition `ok` in the state it was handled in. A statement about the end of every
  run is a statement about every state on the way, since a prefix of a run is a run.
-/
import Mathlib

namespace SonicBuildimage.Lib

variable {σ ε : Type}

/-- Runs of `step` whose steps all satisfy `ok`. -/
inductive Run (step : σ → ε → σ → Prop) (ok : σ → ε → Prop) : σ → List ε → σ → Prop
  | nil (s : σ) : Run step ok s [] s
  | cons {s s₁ s₂ : σ} {e : ε} {es : List ε} (hok : ok s e) (hstep : step s e s₁)
      (hrun : Run step ok s₁ es s₂) : Run step ok s (e :: es) s₂

variable {step : σ → ε → σ → Prop} {ok : σ → ε → Prop}

/-- The invariant rule: what holds at the start and is kept by every admitted step holds
    at the end of every run. -/
theorem Run.invariant {P : σ → Prop} {s s' : σ} {es : List ε} (hrun : Run step ok s es s')
    (hstep : ∀ s e s', P s → ok s e → step s e s' → P s') (h : P s) : P s' := by
  induction hrun with
  | nil s => exact h
  | cons hok hst _ ih => exact ih (hstep _ _ _ h hok hst)

/-- The invariant rule for what relates the events so far to the state. -/
theorem Run.history {P : List ε → σ → Prop} {s s' : σ} {es : List ε}
    (hrun : Run step ok s es s')
    (hstep : ∀ es s e s', P es s → ok s e → step s e s' → P (es ++ [e]) s') (h : P [] s) :
    P es s' := by
  have hgen : ∀ pre, P pre s → P (pre ++ es) s' := by
    clear h
    induction hrun with
    | nil s =>
      intro pre h
      rw [List.append_nil]
      exact h
    | @cons s s₁ s₂ e es hok hst _ ih =>
      intro pre h
      rw [show pre ++ e :: es = (pre ++ [e]) ++ es by simp]
      exact ih (pre ++ [e]) (hstep pre s e s₁ h hok hst)
  exact hgen [] h

/-- Compute the run over `es`; `none` where there is no step or the side condition fails. -/
def execOk (next : σ → ε → Option σ) (ok : σ → ε → Prop) [∀ s e, Decidable (ok s e)] :
    σ → List ε → Option σ
  | s, [] => some s
  | s, e :: es => if ok s e then (next s e).bind fun s₁ => execOk next ok s₁ es else none

/-- What is computed is a run. -/
theorem run_of_execOk {next : σ → ε → Option σ} [∀ s e, Decidable (ok s e)]
    (hnext : ∀ s e s', next s e = some s' → step s e s') {s s' : σ} {es : List ε}
    (h : execOk next ok s es = some s') : Run step ok s es s' := by
  induction es generalizing s with
  | nil => exact Option.some.inj h ▸ Run.nil s
  | cons e es ih =>
    unfold execOk at h
    split at h
    · next hok =>
      obtain ⟨s₁, hs₁, h⟩ := Option.bind_eq_some_iff.1 h
      exact Run.cons hok (hnext _ _ _ hs₁) (ih h)
    · simp at h

/-- A run whose end has a property, from one evaluation. -/
theorem exists_run {next : σ → ε → Option σ} [∀ s e, Decidable (ok s e)]
    (hnext : ∀ s e s', next s e = some s' → step s e s') {P : σ → Prop} {s : σ} {es : List ε}
    (h : ∃ s' ∈ execOk next ok s es, P s') : ∃ s', Run step ok s es s' ∧ P s' := by
  obtain ⟨s', hs', hp⟩ := h
  exact ⟨s', run_of_execOk hnext hs', hp⟩

/-- A run whose end has a property that follows from an evaluated one. -/
theorem exists_run_imp {next : σ → ε → Option σ} [∀ s e, Decidable (ok s e)]
    (hnext : ∀ s e s', next s e = some s' → step s e s') (P : σ → Prop) {Q : σ → Prop} {s : σ}
    {es : List ε} (h : ∃ s' ∈ execOk next ok s es, P s')
    (himp : ∀ s', Run step ok s es s' → P s' → Q s') : ∃ s', Run step ok s es s' ∧ Q s' := by
  obtain ⟨s', hrun, hp⟩ := exists_run hnext h
  exact ⟨s', hrun, himp s' hrun hp⟩

/-- The invariant rule for a loop that may fail: what every iteration keeps, the loop keeps. -/
theorem foldlM_invariant {α : Type} {P : σ → Prop} {f : σ → α → Option σ} {L : List α}
    (hstep : ∀ s a s', a ∈ L → P s → f s a = some s' → P s')
    {s s' : σ} (hrun : L.foldlM f s = some s') (h : P s) : P s' := by
  induction L generalizing s with
  | nil =>
    rw [List.foldlM_nil] at hrun
    exact Option.some.inj hrun ▸ h
  | cons a L ih =>
    rw [List.foldlM_cons] at hrun
    obtain ⟨s₁, hs₁, hrun⟩ := Option.bind_eq_some_iff.1 hrun
    exact ih (fun s b s' hb => hstep s b s' (List.mem_cons_of_mem _ hb)) hrun
      (hstep s a s₁ List.mem_cons_self h hs₁)

end SonicBuildimage.Lib
