/-
  Timers of an event loop, kept in a dictionary from the time to the handlers that are due then.

  The loop takes the earliest time that has passed and calls all handlers registered for it.
  `count p t` is the number of outstanding handlers that satisfy `p`: registering adds one
  (`count_register`), and what is taken out is no longer there (`count_popDue`).
-/
import SonicBuildimage.Lib.PyDict

namespace SonicBuildimage.Lib

abbrev Timers (τ α : Type) := Dict τ (List α)

namespace Timers

variable {τ α : Type} [LinearOrder τ]

/-- `timers[ts].append(h)` on a `defaultdict(list)`. -/
def register (t : Timers τ α) (ts : τ) (h : α) : Timers τ α := t.set ts (t.getD ts [] ++ [h])

def registerAll (t : Timers τ α) (l : List (τ × α)) : Timers τ α :=
  l.foldl (fun t e => t.register e.1 e.2) t

/-- The handlers of the earliest time, if that has passed, and the other timers. -/
def popDue (t : Timers τ α) (now : τ) : Option (List α × Timers τ α) :=
  match t.keys.min? with
  | none => none
  | some k => if k ≤ now then some (t.getD k [], t.erase k) else none

/-- The number of outstanding handlers that satisfy `p`. -/
def count (p : α → Bool) (t : Timers τ α) : Nat := (t.map fun e => e.2.countP p).sum

theorem keys_register_nodup {t : Timers τ α} (h : (Dict.keys t).Nodup) (ts : τ) (x : α) :
    (Dict.keys (t.register ts x)).Nodup := Dict.keys_set_nodup h _ _

theorem count_register (p : α → Bool) (t : Timers τ α) (ts : τ) (h : α) :
    count p (t.register ts h) = count p t + [h].countP p := by
  unfold register count
  induction t with
  | nil => simp [Dict.set, Dict.getD]
  | cons e t ih =>
    by_cases he : e.1 = ts
    · simp only [Dict.getD, Dict.get?_cons, Dict.set, he, if_true, Option.getD_some,
        List.map_cons, List.sum_cons, List.countP_append]
      omega
    · simp only [Dict.getD, Dict.get?_cons, Dict.set, he, if_false, List.map_cons,
        List.sum_cons] at ih ⊢
      omega

theorem count_erase (p : α → Bool) {t : Timers τ α} (ht : (Dict.keys t).Nodup) (k : τ) :
    count p (t.erase k) + (t.getD k []).countP p = count p t := by
  induction t with
  | nil => rfl
  | cons e t ih =>
    obtain ⟨hnot, ht⟩ := List.nodup_cons.1 ht
    have ih := ih ht
    simp only [count, Dict.erase, Dict.getD, ne_eq] at ih ⊢
    rw [Dict.get?_cons, List.filter_cons]
    by_cases he : e.1 = k
    · -- the key is at the head, so it is nowhere else
      have hget : Dict.get? t k = none := by
        have hk : k ∉ Dict.keys t := he ▸ hnot
        rwa [Dict.mem_keys_iff, not_not] at hk
      rw [hget] at ih
      simp only [he, not_true_eq_false, decide_false, Bool.false_eq_true, if_false, if_true,
        Option.getD_some, List.map_cons, List.sum_cons]
      simp only [Option.getD_none, List.countP_nil] at ih
      omega
    · simp only [he, not_false_eq_true, decide_true, if_true, if_false, List.map_cons,
        List.sum_cons]
      omega

theorem popDue_spec {t t' : Timers τ α} {now : τ} {l : List α} (h : popDue t now = some (l, t')) :
    ∃ k, k ≤ now ∧ l = t.getD k [] ∧ t' = t.erase k := by
  unfold popDue at h
  split at h
  · simp at h
  · next k _ =>
    split at h
    · next hk =>
      obtain ⟨rfl, rfl⟩ := Prod.mk.inj (Option.some.inj h)
      exact ⟨k, hk, rfl, rfl⟩
    · simp at h

theorem count_popDue (p : α → Bool) {t t' : Timers τ α} (ht : (Dict.keys t).Nodup) {now : τ}
    {l : List α} (h : popDue t now = some (l, t')) : count p t' + l.countP p = count p t := by
  obtain ⟨k, -, rfl, rfl⟩ := popDue_spec h
  exact count_erase p ht k

theorem keys_popDue_nodup {t t' : Timers τ α} (ht : (Dict.keys t).Nodup) {now : τ} {l : List α}
    (h : popDue t now = some (l, t')) : (Dict.keys t').Nodup := by
  obtain ⟨k, -, -, rfl⟩ := popDue_spec h
  exact Dict.keys_filter_nodup ht _

/-- Handlers of another kind may be registered without an effect on the count. -/
theorem count_registerAll {p : α → Bool} (l : List (τ × α)) (t : Timers τ α)
    (hl : ∀ e ∈ l, p e.2 = false) : count p (t.registerAll l) = count p t := by
  induction l generalizing t with
  | nil => rfl
  | cons e l ih =>
    have he : [e.2].countP p = 0 := by simp [hl e List.mem_cons_self]
    have hrest := ih (t.register e.1 e.2) fun x hx => hl x (List.mem_cons_of_mem _ hx)
    rw [registerAll, List.foldl_cons, ← registerAll, hrest, count_register, he, Nat.add_zero]

theorem keys_registerAll_nodup (l : List (τ × α)) {t : Timers τ α} (ht : (Dict.keys t).Nodup) :
    (Dict.keys (t.registerAll l)).Nodup := by
  induction l generalizing t with
  | nil => exact ht
  | cons e l ih => exact ih (keys_register_nodup ht _ _)

end Timers

end SonicBuildimage.Lib
