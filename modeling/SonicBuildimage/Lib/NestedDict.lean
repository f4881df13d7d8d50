/-
  Dictionaries of dictionaries, written and deleted by two keys (`set2`, `erase2`), where an inner
  dictionary goes away with its last value (`WF2`).
-/
import SonicBuildimage.Lib.PyDict

namespace SonicBuildimage.Lib.Dict

variable {κ μ ν : Type} [DecidableEq κ] [DecidableEq μ]

/-- `d.get(k, {}).get(m)`. -/
def lookup2 (d : Dict κ (Dict μ ν)) (k : κ) (m : μ) : Option ν := (d.getD k []).get? m

/-- `d.setdefault(k, {})[m] = v`. -/
def set2 (d : Dict κ (Dict μ ν)) (k : κ) (m : μ) (v : ν) : Dict κ (Dict μ ν) :=
  d.set k ((d.getD k []).set m v)

/-- `del d[k][m]`, and `del d[k]` if nothing is left under `k`. -/
def erase2 [DecidableEq ν] (d : Dict κ (Dict μ ν)) (k : κ) (m : μ) : Dict κ (Dict μ ν) :=
  if (d.getD k []).erase m = [] then d.erase k else d.set k ((d.getD k []).erase m)

/-- Keys occur once, and no dictionary is empty. -/
structure WF2 (d : Dict κ (Dict μ ν)) : Prop where
  outer : (keys d).Nodup
  inner : ∀ e ∈ d, (keys e.2).Nodup
  nonempty : ∀ e ∈ d, e.2 ≠ []

theorem lookup2_set2 (d : Dict κ (Dict μ ν)) (k k' : κ) (m m' : μ) (v : ν) :
    lookup2 (set2 d k m v) k' m' = if (k, m) = (k', m') then some v else lookup2 d k' m' := by
  unfold lookup2 set2
  rw [getD_set]
  by_cases hk : k = k'
  · subst hk
    rw [if_pos rfl, get?_set]
    simp
  · rw [if_neg hk, if_neg fun h => hk (Prod.mk.inj h).1]

theorem lookup2_erase2 [DecidableEq ν] (d : Dict κ (Dict μ ν)) (k k' : κ) (m m' : μ) :
    lookup2 (erase2 d k m) k' m' = if (k, m) = (k', m') then none else lookup2 d k' m' := by
  have hrest : (getD d k []).erase m = [] → ∀ m', m ≠ m' → (getD d k []).get? m' = none := by
    intro h m' hm
    rw [← get?_erase_ne _ hm, h, get?_nil]
  unfold lookup2 erase2
  by_cases hempty : (getD d k []).erase m = []
  · rw [if_pos hempty, getD_erase]
    by_cases hk : k = k'
    · subst hk
      rw [if_pos rfl, get?_nil]
      by_cases hm : m = m'
      · rw [if_pos (by rw [hm])]
      · rw [if_neg fun h => hm (Prod.mk.inj h).2, hrest hempty m' hm]
    · rw [if_neg hk, if_neg fun h => hk (Prod.mk.inj h).1]
  · rw [if_neg hempty, getD_set]
    by_cases hk : k = k'
    · subst hk
      rw [if_pos rfl, get?_erase]
      simp
    · rw [if_neg hk, if_neg fun h => hk (Prod.mk.inj h).1]

omit [DecidableEq μ] in
theorem WF2.getD_nodup {d : Dict κ (Dict μ ν)} (h : WF2 d) (k : κ) :
    (keys (getD d k [])).Nodup := by
  unfold getD
  cases hk : get? d k with
  | none => exact List.nodup_nil
  | some e => exact h.inner _ (mem_of_get? hk)

theorem WF2.set2 {d : Dict κ (Dict μ ν)} (h : WF2 d) (k : κ) (m : μ) (v : ν) :
    WF2 (set2 d k m v) := by
  refine ⟨keys_set_nodup h.outer _ _, fun e he => ?_, fun e he => ?_⟩
  · rcases mem_of_mem_set he with rfl | he
    · exact keys_set_nodup (h.getD_nodup k) m v
    · exact h.inner e he
  · rcases mem_of_mem_set he with rfl | he
    · exact set_ne_nil _ _ _
    · exact h.nonempty e he

theorem WF2.erase2 [DecidableEq ν] {d : Dict κ (Dict μ ν)} (h : WF2 d) (k : κ) (m : μ) :
    WF2 (erase2 d k m) := by
  unfold Dict.erase2
  split
  · exact
      { outer := keys_filter_nodup h.outer _
        inner := fun e he => h.inner e (List.mem_filter.1 he).1
        nonempty := fun e he => h.nonempty e (List.mem_filter.1 he).1 }
  · next hrest =>
    refine ⟨keys_set_nodup h.outer _ _, fun e he => ?_, fun e he => ?_⟩
    · rcases mem_of_mem_set he with rfl | he
      · exact keys_filter_nodup (h.getD_nodup k) _
      · exact h.inner e he
    · rcases mem_of_mem_set he with rfl | he
      · exact hrest
      · exact h.nonempty e he

theorem get?_of_lookup2 {d : Dict κ (Dict μ ν)} {k : κ} {m : μ} {v : ν}
    (h : lookup2 d k m = some v) :
    get? d k = some (getD d k []) := by
  unfold lookup2 getD at h
  unfold getD
  cases hk : get? d k with
  | none => simp [hk] at h
  | some e => rfl

theorem set2_of_lookup2 {d : Dict κ (Dict μ ν)} {k : κ} {m : μ} {v : ν}
    (h : lookup2 d k m = some v) : Dict.set2 d k m v = d := by
  have hinner : (getD d k []).set m v = getD d k [] := set_of_get? h
  rw [Dict.set2, hinner]
  exact set_of_get? (get?_of_lookup2 h)

theorem getD_ne_nil_iff {d : Dict κ (Dict μ ν)} {k : κ} :
    getD d k [] ≠ [] ↔ ∃ m, lookup2 d k m ≠ none := by
  constructor
  · intro h
    obtain ⟨e, l, hl⟩ := List.exists_cons_of_ne_nil h
    refine ⟨e.1, ?_⟩
    rw [lookup2, ← mem_keys_iff, hl]
    exact List.mem_cons_self
  · rintro ⟨m, hm⟩ hnil
    rw [lookup2, hnil] at hm
    exact hm rfl

end SonicBuildimage.Lib.Dict
