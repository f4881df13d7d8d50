/-
  Python dictionaries and sets as lists.

  `Dict κ ν` is the list of items of a dictionary in insertion order: `Dict.set` replaces
  the value of a key that is there and appends otherwise, as a Python dictionary does.
  A Python set is a list that `setAdd` never lets grow twice by the same element; where
  a program iterates over one, the order is that of a permutation of the list
  (`IterOrder`), since Python fixes none.

  Programs read these tables only through the lookup lemmas (`get?_set`, `get?_erase`,
  `getD_set`) and the membership lemmas (`mem_setAdd`, `mem_getD_addMember`, ...).
-/
import Mathlib

namespace SonicBuildimage.Lib

/-- The items of a Python dictionary, in insertion order. -/
abbrev Dict (κ ν : Type) := List (κ × ν)

namespace Dict

variable {κ ν : Type} [DecidableEq κ]

/-- `d.get(k)`. -/
def get? : Dict κ ν → κ → Option ν
  | [], _ => none
  | (k', v) :: d, k => if k' = k then some v else get? d k

/-- `d[k] = v`. -/
def set : Dict κ ν → κ → ν → Dict κ ν
  | [], k, v => [(k, v)]
  | (k', v') :: d, k, v => if k' = k then (k, v) :: d else (k', v') :: set d k v

/-- `d.pop(k, None)`. -/
def erase (d : Dict κ ν) (k : κ) : Dict κ ν := d.filter fun e => e.1 ≠ k

/-- `d.get(k, v)`, and `d[k]` of a `defaultdict` whose factory gives `v`. -/
def getD (d : Dict κ ν) (k : κ) (v : ν) : ν := (get? d k).getD v

/-- `list(d.keys())`. -/
def keys (d : Dict κ ν) : List κ := d.map Prod.fst

@[simp] theorem get?_nil (k : κ) : get? ([] : Dict κ ν) k = none := rfl

theorem get?_cons (e : κ × ν) (d : Dict κ ν) (k : κ) :
    get? (e :: d) k = if e.1 = k then some e.2 else get? d k := rfl

theorem get?_set (d : Dict κ ν) (k k' : κ) (v : ν) :
    get? (set d k v) k' = if k = k' then some v else get? d k' := by
  induction d with
  | nil => simp [set, get?_cons]
  | cons e d ih =>
    simp only [set]
    split
    · next h =>
      simp only [get?_cons, h]
      split <;> rfl
    · next h =>
      rw [get?_cons, ih, get?_cons]
      by_cases hk : e.1 = k'
      · have : k ≠ k' := fun hkk => h (hk.trans hkk.symm)
        simp [hk, this]
      · simp [hk]

@[simp] theorem get?_set_self (d : Dict κ ν) (k : κ) (v : ν) : get? (set d k v) k = some v := by
  simp [get?_set]

theorem get?_set_ne (d : Dict κ ν) {k k' : κ} (v : ν) (h : k ≠ k') :
    get? (set d k v) k' = get? d k' := by
  simp [get?_set, h]

theorem get?_erase (d : Dict κ ν) (k k' : κ) :
    get? (erase d k) k' = if k = k' then none else get? d k' := by
  induction d with
  | nil => simp [erase]
  | cons e d ih =>
    unfold erase at ih ⊢
    by_cases he : e.1 = k
    · rw [List.filter_cons_of_neg (by simpa using he), ih, get?_cons]
      by_cases hk : k = k'
      · simp [hk]
      · have : e.1 ≠ k' := fun h => hk (he.symm.trans h)
        simp [hk, this]
    · rw [List.filter_cons_of_pos (by simpa using he), get?_cons, ih, get?_cons]
      by_cases hk : k = k'
      · have : e.1 ≠ k' := fun h => he (h.trans hk.symm)
        simp [hk, this]
      · simp [hk]

@[simp] theorem get?_erase_self (d : Dict κ ν) (k : κ) : get? (erase d k) k = none := by
  simp [get?_erase]

theorem get?_erase_ne (d : Dict κ ν) {k k' : κ} (h : k ≠ k') :
    get? (erase d k) k' = get? d k' := by
  simp [get?_erase, h]

@[simp] theorem getD_nil (k : κ) (v : ν) : getD ([] : Dict κ ν) k v = v := rfl

theorem getD_congr {d d' : Dict κ ν} {k : κ} (w : ν) (h : get? d k = get? d' k) :
    getD d k w = getD d' k w := by
  unfold getD
  rw [h]

theorem getD_set (d : Dict κ ν) (k k' : κ) (v w : ν) :
    getD (set d k v) k' w = if k = k' then v else getD d k' w := by
  unfold getD
  rw [get?_set]
  split <;> rfl

@[simp] theorem getD_set_self (d : Dict κ ν) (k : κ) (v w : ν) : getD (set d k v) k w = v := by
  simp [getD_set]

theorem getD_set_ne (d : Dict κ ν) {k k' : κ} (v w : ν) (h : k ≠ k') :
    getD (set d k v) k' w = getD d k' w := by
  simp [getD_set, h]

theorem getD_erase (d : Dict κ ν) (k k' : κ) (w : ν) :
    getD (erase d k) k' w = if k = k' then w else getD d k' w := by
  unfold getD
  rw [get?_erase]
  split <;> rfl

@[simp] theorem getD_erase_self (d : Dict κ ν) (k : κ) (w : ν) : getD (erase d k) k w = w := by
  simp [getD_erase]

theorem getD_erase_ne (d : Dict κ ν) {k k' : κ} (w : ν) (h : k ≠ k') :
    getD (erase d k) k' w = getD d k' w := by
  simp [getD_erase, h]

theorem set_ne_nil (d : Dict κ ν) (k : κ) (v : ν) : set d k v ≠ [] := by
  cases d with
  | nil => simp [set]
  | cons e d => simp only [set]; split <;> simp

theorem mem_set_self (d : Dict κ ν) (k : κ) (v : ν) : (k, v) ∈ set d k v := by
  induction d with
  | nil => simp [set]
  | cons e d ih =>
    simp only [set]
    split
    · exact List.mem_cons_self
    · exact List.mem_cons_of_mem _ ih

theorem mem_of_mem_set {d : Dict κ ν} {k : κ} {v : ν} {e : κ × ν} (h : e ∈ set d k v) :
    e = (k, v) ∨ e ∈ d := by
  induction d with
  | nil => exact Or.inl (List.mem_singleton.1 h)
  | cons e' d ih =>
    simp only [set] at h
    split at h
    · rcases List.mem_cons.1 h with h | h
      · exact Or.inl h
      · exact Or.inr (List.mem_cons_of_mem _ h)
    · rcases List.mem_cons.1 h with h | h
      · exact Or.inr (h ▸ List.mem_cons_self)
      · exact (ih h).imp_right (List.mem_cons_of_mem _)

theorem mem_set_of_ne {d : Dict κ ν} {k : κ} (v : ν) {e : κ × ν} (h : e ∈ d) (hk : e.1 ≠ k) :
    e ∈ set d k v := by
  induction d with
  | nil => exact absurd h List.not_mem_nil
  | cons e' d ih =>
    simp only [set]
    split
    · next he' =>
      rcases List.mem_cons.1 h with rfl | h
      · exact absurd he' hk
      · exact List.mem_cons_of_mem _ h
    · rcases List.mem_cons.1 h with rfl | h
      · exact List.mem_cons_self
      · exact List.mem_cons_of_mem _ (ih h)

/-- A key that is there is not entered again. -/
theorem length_set (d : Dict κ ν) (k : κ) (v : ν) :
    (set d k v).length = if k ∈ keys d then d.length else d.length + 1 := by
  induction d with
  | nil => simp [set, keys]
  | cons e d ih =>
    rw [set]
    by_cases he : e.1 = k
    · have hmem : k ∈ keys (e :: d) := List.mem_map.2 ⟨e, List.mem_cons_self, he⟩
      rw [if_pos he, if_pos hmem]
      rfl
    · have hmem : k ∈ keys (e :: d) ↔ k ∈ keys d := by
        simp [keys, Ne.symm he]
      rw [if_neg he, List.length_cons, ih, if_congr hmem rfl rfl]
      split
      · rfl
      · rfl

omit [DecidableEq κ] in
theorem mem_keys_cons (e : κ × ν) (d : Dict κ ν) (k : κ) :
    k ∈ keys (e :: d) ↔ k = e.1 ∨ k ∈ keys d := List.mem_cons

theorem mem_keys_iff (d : Dict κ ν) (k : κ) : k ∈ keys d ↔ get? d k ≠ none := by
  induction d with
  | nil => simp [keys]
  | cons e d ih =>
    rw [get?_cons]
    by_cases he : e.1 = k
    · simp [keys, he]
    · have : k ≠ e.1 := fun h => he h.symm
      simpa [keys, he, this] using ih

theorem mem_of_get? {d : Dict κ ν} {k : κ} {v : ν} (h : get? d k = some v) : (k, v) ∈ d := by
  induction d with
  | nil => simp at h
  | cons e d ih =>
    rw [get?_cons] at h
    split at h
    · next he =>
      rw [← he, ← Option.some.inj h]
      exact List.mem_cons_self
    · exact List.mem_cons_of_mem _ (ih h)

theorem set_of_not_mem_keys {d : Dict κ ν} {k : κ} (v : ν) (h : k ∉ keys d) :
    set d k v = d ++ [(k, v)] := by
  induction d with
  | nil => rfl
  | cons e d ih =>
    have hne : e.1 ≠ k := fun he => h (List.mem_map.2 ⟨e, List.mem_cons_self, he⟩)
    rw [set, if_neg hne, ih fun hk => h (List.mem_cons_of_mem _ hk)]
    rfl

/-- New items with different keys, written one by one. -/
theorem foldl_set_append (l d : Dict κ ν) (hl : (keys l).Nodup) (hd : ∀ k ∈ keys l, k ∉ keys d) :
    l.foldl (fun d e => set d e.1 e.2) d = d ++ l := by
  induction l generalizing d with
  | nil => simp
  | cons e l ih =>
    obtain ⟨hnot, hl'⟩ := List.nodup_cons.1 hl
    rw [List.foldl_cons, set_of_not_mem_keys _ (hd e.1 List.mem_cons_self), ih _ hl']
    · simp
    · intro k hk hmem
      have hkeys : k ∈ keys d ++ [e.1] := by simpa [keys] using hmem
      rcases List.mem_append.1 hkeys with h | h
      · exact hd k (List.mem_cons_of_mem _ hk) h
      · exact hnot (List.mem_singleton.1 h ▸ hk)

/-- A dictionary is built from items with different keys by writing them one by one. -/
theorem foldl_set_of_nodup (l d : Dict κ ν) (h : (keys (d ++ l)).Nodup) :
    l.foldl (fun d e => set d e.1 e.2) d = d ++ l := by
  have h' : (keys d ++ keys l).Nodup := by simpa [keys] using h
  obtain ⟨-, hl, hdisj⟩ := List.nodup_append.1 h'
  exact foldl_set_append l d hl fun k hk hd => hdisj k hd k hk rfl

/-- With different keys, the items are what is found. -/
theorem get?_eq_some_iff {d : Dict κ ν} (hd : (keys d).Nodup) {k : κ} {v : ν} :
    get? d k = some v ↔ (k, v) ∈ d := by
  refine ⟨mem_of_get?, fun hmem => ?_⟩
  induction d with
  | nil => exact absurd hmem List.not_mem_nil
  | cons e d ih =>
    obtain ⟨hnot, hd'⟩ := List.nodup_cons.1 hd
    rw [get?_cons]
    rcases List.mem_cons.1 hmem with rfl | hmem
    · exact if_pos rfl
    · rw [if_neg, ih hd' hmem]
      rintro rfl
      exact hnot (List.mem_map.2 ⟨_, hmem, rfl⟩)

omit [DecidableEq κ] in
theorem keys_filter_nodup {d : Dict κ ν} (hd : (keys d).Nodup) (p : κ × ν → Bool) :
    (keys (d.filter p)).Nodup :=
  hd.sublist (List.filter_sublist.map _)

omit [DecidableEq κ] in
theorem keys_filter_key (d : Dict κ ν) (p : κ → Bool) :
    keys (d.filter fun e => p e.1) = (keys d).filter p := List.filter_map.symm

/-- Writing and deleting a key are not seen where the key is not looked at. -/
theorem filter_set_of_not {p : κ → Bool} {k : κ} (hp : p k = false) (d : Dict κ ν) (v : ν) :
    (set d k v).filter (fun e => p e.1) = d.filter fun e => p e.1 := by
  induction d with
  | nil => simp [set, hp]
  | cons e d ih =>
    rw [set]
    split
    · next he =>
      rw [List.filter_cons_of_neg (by simp [hp]), List.filter_cons_of_neg (by simp [he, hp])]
    · rw [List.filter_cons, ih, List.filter_cons]

theorem filter_erase_of_not {p : κ → Bool} {k : κ} (hp : p k = false) (d : Dict κ ν) :
    (erase d k).filter (fun e => p e.1) = d.filter fun e => p e.1 := by
  unfold erase
  rw [List.filter_filter]
  refine List.filter_congr fun e _ => ?_
  by_cases he : e.1 = k
  · simp [he, hp]
  · simp [he]

theorem mem_keys_set (d : Dict κ ν) (k k' : κ) (v : ν) :
    k' ∈ keys (set d k v) ↔ k' = k ∨ k' ∈ keys d := by
  rw [mem_keys_iff, mem_keys_iff, get?_set]
  by_cases hk : k = k'
  · simp [hk]
  · simp [hk, Ne.symm hk]

theorem keys_set_nodup {d : Dict κ ν} (hd : (keys d).Nodup) (k : κ) (v : ν) :
    (keys (set d k v)).Nodup := by
  induction d with
  | nil => simp [set, keys]
  | cons e d ih =>
    obtain ⟨hnot, hd'⟩ := List.nodup_cons.1 hd
    rw [set]
    split
    · next he =>
      rw [← he]
      exact hd
    · next he =>
      refine List.nodup_cons.2 ⟨fun hmem => ?_, ih hd'⟩
      rcases (mem_keys_set d k e.1 v).1 hmem with h | h
      · exact he h
      · exact hnot h

theorem get?_append (d d' : Dict κ ν) (k : κ) :
    get? (d ++ d') k = (get? d k).or (get? d' k) := by
  induction d with
  | nil => rfl
  | cons e d ih =>
    rw [List.cons_append, get?_cons, get?_cons, ih]
    split
    · rfl
    · rfl

/-- Of several values for one key the last one stays. -/
theorem get?_foldl_set (l d : Dict κ ν) (k : κ) :
    get? (l.foldl (fun d e => set d e.1 e.2) d) k = (get? l.reverse k).or (get? d k) := by
  induction l generalizing d with
  | nil => rfl
  | cons e l ih =>
    rw [List.foldl_cons, ih, List.reverse_cons, get?_append, get?_set, get?_cons, get?_nil]
    by_cases hk : e.1 = k
    · simp [hk]
    · simp [hk]

/-- A loop that deletes keys. -/
theorem mem_foldl_erase (ks : List κ) (d : Dict κ ν) (e : κ × ν) :
    e ∈ ks.foldl erase d ↔ e ∈ d ∧ e.1 ∉ ks := by
  induction ks generalizing d with
  | nil => simp
  | cons k ks ih =>
    rw [List.foldl_cons, ih, erase, List.mem_filter, List.mem_cons]
    simp only [ne_eq, decide_not, Bool.not_eq_eq_eq_not, Bool.not_true, decide_eq_false_iff_not]
    tauto

/-- A loop over the items that writes a new value under some of the keys. -/
def filterMapValues (f : κ → ν → Option ν) (d : Dict κ ν) : Dict κ ν :=
  d.filterMap fun e => (f e.1 e.2).map fun v => (e.1, v)

theorem get?_filterMapValues (f : κ → ν → Option ν) (d : Dict κ ν) (k : κ) (w : ν)
    (hk : ∀ v, f k v = some w) (h : get? d k ≠ none) :
    get? (filterMapValues f d) k = some w := by
  unfold filterMapValues
  induction d with
  | nil => simp at h
  | cons e d ih =>
    rw [get?_cons] at h
    rw [List.filterMap_cons]
    by_cases he : e.1 = k
    · simp [he, hk, get?_cons]
    · rw [if_neg he] at h
      cases hg : f e.1 e.2 with
      | none => simpa using ih h
      | some v => simpa [get?_cons, he] using ih h

/-- The loop writes no key that was not there. -/
theorem get?_filterMapValues_none (f : κ → ν → Option ν) {d : Dict κ ν} {k : κ}
    (h : get? d k = none) : get? (filterMapValues f d) k = none := by
  unfold filterMapValues
  induction d with
  | nil => rfl
  | cons e d ih =>
    rw [get?_cons] at h
    rw [List.filterMap_cons]
    by_cases he : e.1 = k
    · simp [he] at h
    · rw [if_neg he] at h
      cases hg : f e.1 e.2 with
      | none => simpa using ih h
      | some v => simpa [get?_cons, he] using ih h

/-- Values that are changed in place, with a look at their keys. -/
theorem get?_map_item {μ : Type} (f : κ × ν → μ) (d : Dict κ ν) (k : κ) :
    get? (d.map fun e => (e.1, f e)) k = (get? d k).map fun v => f (k, v) := by
  induction d with
  | nil => rfl
  | cons e d ih =>
    rw [List.map_cons, get?_cons, get?_cons, ih]
    by_cases he : e.1 = k
    · rw [if_pos he, if_pos he, ← he]
      rfl
    · rw [if_neg he, if_neg he]

theorem get?_map_snd {μ : Type} (f : ν → μ) (d : Dict κ ν) (k : κ) :
    get? (d.map fun e => (e.1, f e.2)) k = (get? d k).map f :=
  get?_map_item (fun e => f e.2) d k

/-- Writing what is there changes nothing. -/
theorem set_of_get? {d : Dict κ ν} {k : κ} {v : ν} (h : get? d k = some v) : set d k v = d := by
  induction d with
  | nil => simp at h
  | cons e d ih =>
    rw [get?_cons] at h
    rw [set]
    by_cases he : e.1 = k
    · rw [if_pos he] at h ⊢
      rw [← he, ← Option.some.inj h]
    · rw [if_neg he] at h ⊢
      rw [ih h]

/-- The second of two writes to a key counts. -/
theorem set_set (d : Dict κ ν) (k : κ) (v w : ν) : set (set d k v) k w = set d k w := by
  induction d with
  | nil => simp [set]
  | cons e d ih =>
    rw [set, set]
    by_cases he : e.1 = k
    · rw [if_pos he, if_pos he, set, if_pos rfl]
    · rw [if_neg he, if_neg he, set, if_neg he, ih]

theorem erase_of_get?_none {d : Dict κ ν} {k : κ} (h : get? d k = none) : erase d k = d := by
  refine List.filter_eq_self.2 fun e he => decide_eq_true ?_
  rintro rfl
  exact (mem_keys_iff d e.1).1 (List.mem_map_of_mem he) h

/-- A write replaces the item of the key. -/
theorem set_perm {d : Dict κ ν} (hd : (keys d).Nodup) (k : κ) (v : ν) :
    (set d k v).Perm ((k, v) :: erase d k) := by
  induction d with
  | nil => exact List.Perm.refl _
  | cons e d ih =>
    obtain ⟨hnot, hd⟩ := List.nodup_cons.1 hd
    rw [set, erase, List.filter_cons]
    by_cases he : e.1 = k
    · have hnone : get? d k = none := by
        have hk : k ∉ keys d := he ▸ hnot
        rwa [mem_keys_iff, not_not] at hk
      have herase := erase_of_get?_none hnone
      rw [erase] at herase
      rw [if_pos he, if_neg (by simp [he]), herase]
    · rw [if_neg he, if_pos (by simp [he])]
      exact ((ih hd).cons e).trans (List.Perm.swap _ _ _)

/-- The order of the items does not matter when the keys are different. -/
theorem get?_reverse {d : Dict κ ν} (hd : (keys d).Nodup) (k : κ) :
    get? d.reverse k = get? d k := by
  have hrev : (keys d.reverse).Nodup := by
    rw [keys, List.map_reverse, List.nodup_reverse]
    exact hd
  refine Option.ext fun v => ?_
  rw [get?_eq_some_iff hrev, get?_eq_some_iff hd, List.mem_reverse]

/-- `d == d'`: the order of the items does not matter. -/
def Eqv (d d' : Dict κ ν) : Prop := ∀ k ∈ keys d ++ keys d', get? d k = get? d' k

instance [DecidableEq ν] (d d' : Dict κ ν) : Decidable (Eqv d d') :=
  inferInstanceAs (Decidable (∀ k ∈ keys d ++ keys d', get? d k = get? d' k))

theorem eqv_iff (d d' : Dict κ ν) : Eqv d d' ↔ ∀ k, get? d k = get? d' k := by
  refine ⟨fun h k => ?_, fun h k _ => h k⟩
  by_cases hk : k ∈ keys d ++ keys d'
  · exact h k hk
  · rw [List.mem_append, not_or, mem_keys_iff, mem_keys_iff, not_not, not_not] at hk
    rw [hk.1, hk.2]

theorem getD_eq_of_not_mem_keys (d : Dict κ ν) {k : κ} (w : ν) (h : k ∉ keys d) :
    getD d k w = w := by
  rw [mem_keys_iff, not_not] at h
  simp [getD, h]

/-- Write items one by one into a dictionary. -/
def setAll (d : Dict κ ν) (items : List (κ × ν)) : Dict κ ν :=
  items.foldl (fun d e => set d e.1 e.2) d

theorem keys_setAll_nodup {d : Dict κ ν} (hd : (keys d).Nodup) (items : List (κ × ν)) :
    (keys (setAll d items)).Nodup := by
  induction items generalizing d with
  | nil => exact hd
  | cons e items ih => exact ih (keys_set_nodup hd e.1 e.2)

/-- Of several values for one key the last one stays. -/
theorem get?_setAll (d items : Dict κ ν) (k : κ) :
    get? (setAll d items) k = (get? items.reverse k).or (get? d k) := get?_foldl_set items d k

theorem length_setAll_le (d items : Dict κ ν) :
    (setAll d items).length ≤ d.length + items.length := by
  induction items generalizing d with
  | nil => exact le_rfl
  | cons e items ih =>
    refine (ih (set d e.1 e.2)).trans ?_
    rw [length_set, List.length_cons]
    split_ifs <;> omega

/-- If no item is lost, they have been appended. -/
theorem setAll_eq_append {d items : Dict κ ν}
    (h : (setAll d items).length = d.length + items.length) :
    setAll d items = d ++ items := by
  induction items generalizing d with
  | nil => exact (List.append_nil d).symm
  | cons e items ih =>
    have hle := length_setAll_le (set d e.1 e.2) items
    change (setAll (set d e.1 e.2) items).length = _ at h
    change setAll (set d e.1 e.2) items = _
    rw [length_set] at hle
    rw [List.length_cons] at h
    by_cases hmem : e.1 ∈ keys d
    · rw [if_pos hmem] at hle
      omega
    · rw [set_of_not_mem_keys _ hmem] at h ⊢
      have hlen : (d ++ [e]).length = d.length + 1 := by simp
      rw [ih (by rw [h, hlen]; omega), List.append_assoc]
      rfl

theorem get?_setAll_of_not_mem (d : Dict κ ν) {items : List (κ × ν)} {k : κ}
    (h : k ∉ keys items) : get? (setAll d items) k = get? d k := by
  induction items generalizing d with
  | nil => rfl
  | cons e items ih =>
    rw [mem_keys_cons, not_or] at h
    change get? (setAll (set d e.1 e.2) items) k = _
    rw [ih _ h.2, get?_set_ne _ _ (Ne.symm h.1)]

/-- With different keys, every written item is found. -/
theorem get?_setAll_of_mem (d : Dict κ ν) {items : List (κ × ν)} (hn : (keys items).Nodup) {k : κ}
    {v : ν} (h : (k, v) ∈ items) : get? (setAll d items) k = some v := by
  induction items generalizing d with
  | nil => exact absurd h List.not_mem_nil
  | cons e items ih =>
    obtain ⟨hnot, hn'⟩ := List.nodup_cons.1 hn
    change get? (setAll (set d e.1 e.2) items) k = _
    rcases List.mem_cons.1 h with rfl | h
    · rw [get?_setAll_of_not_mem _ hnot]
      exact get?_set_self _ _ _
    · exact ih _ hn' h

end Dict

/-! ## Sets -/

section Set

variable {α : Type} [DecidableEq α]

/-- `s.add(x)`. -/
def setAdd (s : List α) (x : α) : List α := if x ∈ s then s else s ++ [x]

/-- `s.discard(x)`. -/
def setDiscard (s : List α) (x : α) : List α := s.filter fun y => y ≠ x

theorem mem_setAdd (s : List α) (x y : α) : y ∈ setAdd s x ↔ y ∈ s ∨ y = x := by
  unfold setAdd
  split
  · next h =>
    constructor
    · exact Or.inl
    · rintro (hy | rfl)
      · exact hy
      · exact h
  · simp

theorem mem_setDiscard (s : List α) (x y : α) : y ∈ setDiscard s x ↔ y ∈ s ∧ y ≠ x := by
  simp [setDiscard]

theorem setAdd_ne_nil (s : List α) (x : α) : setAdd s x ≠ [] :=
  List.ne_nil_of_mem ((mem_setAdd s x x).2 (Or.inr rfl))

theorem mem_foldl_setAdd (xs s : List α) (x : α) : x ∈ xs.foldl setAdd s ↔ x ∈ s ∨ x ∈ xs := by
  induction xs generalizing s with
  | nil => simp
  | cons y xs ih => rw [List.foldl_cons, ih, mem_setAdd, List.mem_cons, or_assoc]

theorem setDiscard_of_not_mem {s : List α} {x : α} (h : x ∉ s) : setDiscard s x = s := by
  unfold setDiscard
  rw [List.filter_eq_self]
  intro y hy
  have : y ≠ x := fun e => h (e ▸ hy)
  simpa using this

end Set

/-! ## Dictionaries of sets

  `defaultdict(set)`, where an entry that becomes empty is removed. -/

namespace Dict

variable {κ α : Type} [DecidableEq κ] [DecidableEq α]

/-- `t[k].add(x)`. -/
def addMember (t : Dict κ (List α)) (k : κ) (x : α) : Dict κ (List α) :=
  t.set k (setAdd (t.getD k []) x)

/-- `t[k].remove(x)` when `x` is there; an entry that becomes empty is deleted. -/
def removeMember (t : Dict κ (List α)) (k : κ) (x : α) : Dict κ (List α) :=
  let entry := t.getD k []
  if x ∈ entry then
    if setDiscard entry x = [] then t.erase k else t.set k (setDiscard entry x)
  else t

theorem getD_addMember (t : Dict κ (List α)) (k k' : κ) (x : α) :
    (addMember t k x).getD k' [] = if k = k' then setAdd (t.getD k []) x else t.getD k' [] :=
  getD_set _ _ _ _ _

theorem getD_removeMember (t : Dict κ (List α)) (k k' : κ) (x : α) :
    (removeMember t k x).getD k' [] =
      if k = k' then setDiscard (t.getD k []) x else t.getD k' [] := by
  unfold removeMember
  dsimp only
  split
  · split
    · next _ h =>
      rw [getD_erase]
      split
      · exact h.symm
      · rfl
    · exact getD_set _ _ _ _ _
  · next h =>
    split
    · next hk =>
      rw [setDiscard_of_not_mem h, hk]
    · rfl

theorem mem_getD_addMember (t : Dict κ (List α)) (k k' : κ) (x y : α) :
    y ∈ (addMember t k x).getD k' [] ↔ y ∈ t.getD k' [] ∨ (k = k' ∧ y = x) := by
  rw [getD_addMember]
  split
  · next h =>
    subst h
    simp [mem_setAdd]
  · next h =>
    simp [h]

theorem mem_getD_removeMember (t : Dict κ (List α)) (k k' : κ) (x y : α) :
    y ∈ (removeMember t k x).getD k' [] ↔ y ∈ t.getD k' [] ∧ ¬ (k = k' ∧ y = x) := by
  rw [getD_removeMember]
  split
  · next h =>
    subst h
    simp [mem_setDiscard]
  · next h =>
    simp [h]

end Dict

/-! ## Iteration order -/

section IterOrder

variable {α : Type}

/-- An order in which a program may walk through its sets. -/
def IterOrder (order : List α → List α) : Prop := ∀ s, (order s).Perm s

theorem IterOrder.mem {order : List α → List α} (h : IterOrder order) {s : List α} {x : α} :
    x ∈ order s ↔ x ∈ s := (h s).mem_iff

theorem iterOrder_id : IterOrder (id : List α → List α) := fun _ => List.Perm.refl _

end IterOrder

end SonicBuildimage.Lib
