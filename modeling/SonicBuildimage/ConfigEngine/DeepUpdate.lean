/-
  The merge of configurations: `deep_update` of sonic-cfggen.

  Model.  `dst` and `src` are trees (`Lib.KeyTree`) that share no node, so a reference to a node of
  `dst` is its path, and `src` is only read.  A pending node is its path in `dst` and the dictionary
  of `src` to be merged into it.  `none` is an exception: `items` of what is no dictionary, or an
  assignment to an item of it.

  Proved: `deepUpdate_merge_iff`.  The result has at every path what `merge`, the recursive
  right-biased merge, has there, and updating again changes nothing, exactly if `src` is a
  dictionary and `dst` has no other value where `src` has a dictionary.  `setdefault` keeps such a
  value and the loop then assigns to its items or leaves it (`loop_kept`, `type_conflict`).
-/
import SonicBuildimage.Lib.KeyTree

namespace SonicBuildimage.ConfigEngine.DeepUpdate

open SonicBuildimage.Lib SonicBuildimage.Lib.KeyTree

variable {κ α : Type} [DecidableEq κ]

def insertKey (keys : List κ) (k : κ) : List κ := if k ∈ keys then keys else keys ++ [k]

theorem mem_insertKey {keys : List κ} {k k' : κ} :
    k' ∈ insertKey keys k ↔ k' ∈ keys ∨ k' = k := by
  unfold insertKey
  split
  · next h =>
    exact ⟨Or.inl, fun hk => hk.elim id fun he => he ▸ h⟩
  · simp

theorem nodup_insertKey {keys : List κ} (h : keys.Nodup) (k : κ) : (insertKey keys k).Nodup := by
  unfold insertKey
  split
  · exact h
  · next hk =>
    exact h.append (List.nodup_singleton k) (by simpa using hk)

/-- `d[key] = value` -/
def setItem : KeyTree κ α → κ → KeyTree κ α → Option (KeyTree κ α)
  | leaf _, _, _ => none
  | dict keys nodup child, key, value =>
    some (dict (insertKey keys key) (nodup_insertKey nodup key) fun k h =>
      if hk : k = key then value else child k ((mem_insertKey.1 h).resolve_right hk))

/-- `d.setdefault(key, {})` -/
def setdefault : KeyTree κ α → κ → Option (KeyTree κ α)
  | leaf _, _ => none
  | dict keys nodup child, key =>
    if key ∈ keys then some (dict keys nodup child) else setItem (dict keys nodup child) key empty

/-- `s.items()` -/
def items : KeyTree κ α → Option (List (κ × KeyTree κ α))
  | leaf _ => none
  | dict keys _ child => some (keys.pmap (fun k h => (k, child k h)) fun _ h => h)

/-- The body of the loop over the items. -/
def assign (d : KeyTree κ α) (e : κ × KeyTree κ α) : Option (KeyTree κ α) :=
  if e.2.value.isNone then setdefault d e.1 else setItem d e.1 e.2

/-- The nodes that the loop over the items appends. -/
def children (p : List κ) (es : List (κ × KeyTree κ α)) : List (List κ × KeyTree κ α) :=
  (es.filter fun e => e.2.value.isNone).map fun e => (p ++ [e.1], e.2)

/-- `while len(pending_nodes) > 0` -/
def loop : ℕ → KeyTree κ α → List (List κ × KeyTree κ α) → Option (KeyTree κ α)
  | _, dst, [] => some dst
  | 0, _, _ :: _ => none
  | fuel + 1, dst, (p, s) :: pending =>
    (items s).bind fun es =>
      (sub dst p).bind fun d =>
        (es.foldlM assign d).bind fun d' =>
          loop fuel (replaceAt dst p d') (pending ++ children p es)

/-- `deep_update`; every dictionary of `src` is pending once. -/
def deepUpdate (dst src : KeyTree κ α) : Option (KeyTree κ α) := loop src.size dst [([], src)]

/-! ### The merge -/

theorem nodup_union {keys keys' : List κ} (h : keys.Nodup) (h' : keys'.Nodup) :
    (keys ++ keys'.filter (· ∉ keys)).Nodup :=
  h.append (h'.filter _) fun k hk hk' => by simp [hk] at hk'

theorem mem_left_of_union {keys keys' : List κ} {k : κ} (h : k ∈ keys ++ keys'.filter (· ∉ keys))
    (hk : k ∉ keys') : k ∈ keys :=
  (List.mem_append.1 h).resolve_right fun hf => hk (List.mem_of_mem_filter hf)

/-- What only one side has is kept, two dictionaries are merged, and in any other case the right
    side wins. -/
def merge : KeyTree κ α → KeyTree κ α → KeyTree κ α
  | _, leaf a => leaf a
  | leaf _, dict keys nodup child => dict keys nodup child
  | dict keys nodup child, dict keys' nodup' child' =>
    dict (keys ++ keys'.filter (· ∉ keys)) (nodup_union nodup nodup') fun k h =>
      if hs : k ∈ keys' then
        if hd : k ∈ keys then merge (child k hd) (child' k hs) else child' k hs
      else child k (mem_left_of_union h hs)

/-- `src` has a value that is no dictionary at the path or above it. -/
def Shadowed (src : KeyTree κ α) (q : List κ) : Prop :=
  ∃ p a, p <+: q ∧ at? src p = some (some a)

theorem shadowed_cons (keys : List κ) (nodup : keys.Nodup)
    (child : (k : κ) → k ∈ keys → KeyTree κ α) (k : κ) (q : List κ) :
    Shadowed (dict keys nodup child) (k :: q) ↔ ∃ h : k ∈ keys, Shadowed (child k h) q := by
  constructor
  · rintro ⟨p, a, hp, ha⟩
    cases p with
    | nil => simp [at?, value] at ha
    | cons k' p =>
      obtain ⟨rfl, hpq⟩ := List.cons_prefix_cons.1 hp
      rw [at?, sub_dict_cons] at ha
      split at ha
      · next hk =>
        exact ⟨hk, p, a, hpq, ha⟩
      · simp at ha
  · rintro ⟨h, p, a, hp, ha⟩
    refine ⟨k :: p, a, List.cons_prefix_cons.2 ⟨rfl, hp⟩, ?_⟩
    rw [at?, sub_dict_cons, dif_pos h]
    exact ha

open Classical in
/-- The merge, path by path. -/
theorem at?_merge (dst src : KeyTree κ α) (q : List κ) :
    at? (merge dst src) q =
      (at? src q).or (if Shadowed src q then none else at? dst q) := by
  induction q generalizing dst src with
  | nil =>
    cases src with
    | leaf a => cases dst <;> simp [merge, at?]
    | dict keys' nodup' child' => cases dst <;> simp [merge, at?, value]
  | cons k q ih =>
    cases src with
    | leaf a =>
      have hs : Shadowed (leaf a : KeyTree κ α) (k :: q) := ⟨[], a, List.nil_prefix, rfl⟩
      cases dst <;> simp [merge, at?, hs]
    | dict keys' nodup' child' =>
      cases dst with
      | leaf a => simp [merge, at?]
      | dict keys nodup child =>
        rw [shadowed_cons]
        simp only [at?] at ih ⊢
        simp only [merge, sub_dict_cons]
        by_cases hs : k ∈ keys'
        · by_cases hd : k ∈ keys
          · simp [hs, hd, ih]
          · simp [hs, hd]
        · by_cases hd : k ∈ keys
          · simp [hs, hd]
          · simp [hs, hd]

/-! ### One node -/

/-- What is at a key after its item was handled. -/
def assigned (d : KeyTree κ α) (e : κ × KeyTree κ α) : KeyTree κ α :=
  if e.2.value.isNone then (sub d [e.1]).getD empty else e.2

theorem sub_setItem {d d' : KeyTree κ α} {key : κ} {value : KeyTree κ α}
    (h : setItem d key value = some d') :
    d'.value = none ∧
      ∀ k q, sub d' (k :: q) = if k = key then sub value q else sub d (k :: q) := by
  cases d with
  | leaf a => simp [setItem] at h
  | dict keys nodup child =>
    obtain rfl := Option.some.inj h
    refine ⟨rfl, fun k q => ?_⟩
    rw [sub_dict_cons, sub_dict_cons]
    by_cases hk : k = key
    · rw [if_pos hk, dif_pos (mem_insertKey.2 (.inr hk)), dif_pos hk]
    · rw [if_neg hk]
      by_cases hmem : k ∈ keys
      · rw [dif_pos (mem_insertKey.2 (.inl hmem)), dif_neg hk, dif_pos hmem]
      · rw [dif_neg fun h => (mem_insertKey.1 h).elim hmem hk, dif_neg hmem]

theorem assign_spec {d : KeyTree κ α} (hd : d.value = none) (e : κ × KeyTree κ α) :
    ∃ d', assign d e = some d' ∧ d'.value = none ∧
      ∀ k q, sub d' (k :: q) = if k = e.1 then sub (assigned d e) q else sub d (k :: q) := by
  cases d with
  | leaf a => simp [value] at hd
  | dict keys nodup child =>
    unfold assign assigned
    split
    · unfold setdefault
      by_cases hk : e.1 ∈ keys
      · refine ⟨_, if_pos hk, rfl, fun k q => ?_⟩
        have hsub : sub (dict keys nodup child) [e.1] = some (child e.1 hk) := by
          rw [sub_dict_cons, dif_pos hk, sub_nil]
        rw [hsub, Option.getD_some]
        split
        · next heq =>
          rw [heq, sub_dict_cons, dif_pos hk]
        · rfl
      · have hsub : sub (dict keys nodup child) [e.1] = none := by rw [sub_dict_cons, dif_neg hk]
        rw [hsub, Option.getD_none]
        exact ⟨_, if_neg hk, sub_setItem rfl⟩
    · exact ⟨_, rfl, sub_setItem rfl⟩

/-- All items of a dictionary of `src`: each key is assigned once, the others are left alone. -/
theorem foldlM_assign {d : KeyTree κ α} (hd : d.value = none) {es : List (κ × KeyTree κ α)}
    (hn : (es.map Prod.fst).Nodup) :
    ∃ d', es.foldlM assign d = some d' ∧ d'.value = none ∧
      (∀ e ∈ es, ∀ q, sub d' (e.1 :: q) = sub (assigned d e) q) ∧
      ∀ k ∉ es.map Prod.fst, ∀ q, sub d' (k :: q) = sub d (k :: q) := by
  induction es generalizing d with
  | nil => exact ⟨d, rfl, hd, by simp, fun _ _ _ => rfl⟩
  | cons e es ih =>
    obtain ⟨hnot, hn⟩ := List.nodup_cons.1 hn
    obtain ⟨d₁, h₁, hd₁, hsub₁⟩ := assign_spec hd e
    obtain ⟨d', h', hd', hmem, hother⟩ := ih hd₁ hn
    refine ⟨d', by simpa [h₁] using h', hd', fun e' he' q => ?_, fun k hk q => ?_⟩
    · rcases List.mem_cons.1 he' with rfl | he'
      · rw [hother _ hnot, hsub₁, if_pos rfl]
      · have hne : e'.1 ≠ e.1 := fun heq => hnot (heq ▸ List.mem_map_of_mem he')
        rw [hmem e' he', assigned, assigned, hsub₁, if_neg hne]
    · rw [List.map_cons, List.mem_cons, not_or] at hk
      rw [hother k hk.2, hsub₁, if_neg hk.1]

/-! ### The pending nodes -/

/-- `dst` has no other value where `src` has a dictionary. -/
def Compatible (dst src : KeyTree κ α) : Prop :=
  ∀ q, at? src q = some none → ∀ a, at? dst q ≠ some (some a)

/-- Below the pending nodes the tree is as it was; elsewhere it is merged. -/
structure Pending (dst src t : KeyTree κ α) (pending : List (List κ × KeyTree κ α)) : Prop where
  source : ∀ e ∈ pending, sub src e.1 = some e.2 ∧ e.2.value = none
  apart : pending.Pairwise fun e f => ¬e.1 <+: f.1 ∧ ¬f.1 <+: e.1
  below : ∀ e ∈ pending, ∀ r ≠ [], at? t (e.1 ++ r) = at? dst (e.1 ++ r)
  merged : ∀ q, (∀ e ∈ pending, e.1 <+: q → e.1 = q) → at? t q = at? (merge dst src) q

variable (dst : KeyTree κ α) {src t : KeyTree κ α} {pending : List (List κ × KeyTree κ α)}

theorem items_spec {s : KeyTree κ α} (hs : s.value = none) :
    ∃ es, items s = some es ∧ (es.map Prod.fst).Nodup ∧
      (∀ e ∈ es, ∀ q, sub s (e.1 :: q) = sub e.2 q) ∧
      (∀ k ∉ es.map Prod.fst, ∀ q, sub s (k :: q) = none) ∧
      s.size = 1 + (es.map fun e => e.2.size).sum := by
  cases s with
  | leaf a => simp [value] at hs
  | dict keys nodup child =>
    have hfst : (keys.pmap (fun k h => (k, child k h)) fun _ h => h).map Prod.fst = keys := by
      rw [List.map_pmap, List.pmap_eq_map, List.map_id']
    refine ⟨_, rfl, by rwa [hfst], fun e he q => ?_, fun k hk q => ?_, ?_⟩
    · obtain ⟨k, hk, rfl⟩ := List.mem_pmap.1 he
      rw [sub_dict_cons, dif_pos hk]
    · rw [hfst] at hk
      rw [sub_dict_cons, dif_neg hk]
    · rw [size, List.map_pmap, List.pmap_eq_map_attach]

theorem shadowed_append {p : List κ} {s : KeyTree κ α} (hp : sub src p = some s) (r : List κ) :
    Shadowed src (p ++ r) ↔ Shadowed s r := by
  induction p generalizing src with
  | nil =>
    rw [sub_nil] at hp
    obtain rfl := Option.some.inj hp
    exact Iff.rfl
  | cons k p ih =>
    cases src with
    | leaf a => simp at hp
    | dict keys nodup child =>
      rw [sub_dict_cons] at hp
      split at hp
      · next hk =>
        rw [List.cons_append, shadowed_cons]
        exact ⟨fun ⟨_, h⟩ => (ih hp).1 h, fun h => ⟨hk, (ih hp).2 h⟩⟩
      · simp at hp

open Classical in
theorem at?_merge_append {p : List κ} {s : KeyTree κ α} (hp : sub src p = some s) (r : List κ) :
    at? (merge dst src) (p ++ r) =
      (at? s r).or (if Shadowed s r then none else at? dst (p ++ r)) := by
  rw [at?_merge, at?_append hp]
  simp only [shadowed_append hp]

/-- At a dictionary of `src` the merge has a dictionary. -/
theorem at?_merge_dict {p : List κ} {s : KeyTree κ α} (hp : sub src p = some s)
    (hs : s.value = none) : at? (merge dst src) p = some none := by
  have h := at?_merge_append dst hp []
  rw [List.append_nil] at h
  rw [h, at?, sub_nil, Option.map_some, hs]
  rfl

/-- At and below a value of `src` the merge has that value and nothing. -/
theorem at?_merge_leaf {p : List κ} {s : KeyTree κ α} (hp : sub src p = some s)
    (hs : s.value ≠ none) (r : List κ) : at? (merge dst src) (p ++ r) = at? s r := by
  cases s with
  | dict keys nodup child => exact absurd rfl hs
  | leaf a =>
    rw [at?_merge_append dst hp, if_pos ⟨[], a, List.nil_prefix, rfl⟩, Option.or_none]

/-- Below a key that `src` does not have, the merge is `dst`. -/
theorem at?_merge_missing {p : List κ} {s : KeyTree κ α} (hp : sub src p = some s)
    (hs : s.value = none) {k : κ} (hk : ∀ q, sub s (k :: q) = none) (r : List κ) :
    at? (merge dst src) (p ++ k :: r) = at? dst (p ++ k :: r) := by
  have hnot : ¬Shadowed s (k :: r) := by
    rintro ⟨p', a, hpre, ha⟩
    cases p' with
    | nil => simp [at?, hs] at ha
    | cons k' p' =>
      obtain ⟨rfl, -⟩ := List.cons_prefix_cons.1 hpre
      simp [at?, hk p'] at ha
  rw [at?_merge_append dst hp, if_neg hnot, at?, hk r]
  rfl

/-! ### One pass of the loop -/

omit [DecidableEq κ] in
theorem apart_children {p : List κ} {es : List (κ × KeyTree κ α)} (hn : (es.map Prod.fst).Nodup) :
    (children p es).Pairwise fun e f => ¬e.1 <+: f.1 ∧ ¬f.1 <+: e.1 := by
  have hkeys : es.Pairwise fun e f => e.1 ≠ f.1 := List.pairwise_map.1 hn
  refine List.pairwise_map.2 ((hkeys.filter _).imp fun {e f} hne => ?_)
  simp only [List.prefix_append_right_inj, List.cons_prefix_cons, List.nil_prefix, and_true]
  exact ⟨hne, fun h => hne h.symm⟩

omit [DecidableEq κ] in
theorem mem_children {p : List κ} {es : List (κ × KeyTree κ α)} {c : List κ × KeyTree κ α} :
    c ∈ children p es ↔ ∃ e ∈ es, e.2.value = none ∧ c = (p ++ [e.1], e.2) := by
  simp only [children, List.mem_map, List.mem_filter, Option.isNone_iff_eq_none, and_assoc,
    @eq_comm _ c]

variable {dst}

/-- The node of a pending dictionary is a dictionary. -/
theorem Pending.node {p : List κ} {s : KeyTree κ α} (h : Pending dst src t ((p, s) :: pending)) :
    ∃ d, sub t p = some d ∧ d.value = none := by
  obtain ⟨hsrc, hs⟩ := h.source _ List.mem_cons_self
  have hat : at? t p = some none := by
    rw [h.merged p, at?_merge_dict dst hsrc hs]
    intro e he hpre
    rcases List.mem_cons.1 he with rfl | he
    · rfl
    · exact absurd hpre ((List.pairwise_cons.1 h.apart).1 e he).2
  exact Option.map_eq_some_iff.1 hat

/-- A dictionary of `src` is entered in a dictionary, if `dst` has no other value there. -/
theorem value_assigned {d : KeyTree κ α} {e : κ × KeyTree κ α} (hv : e.2.value = none)
    (hd : ∀ a, at? d [e.1] ≠ some (some a)) : (assigned d e).value = none := by
  rw [assigned, if_pos (by simp [hv])]
  cases hm : sub d [e.1] with
  | none => rfl
  | some m =>
    cases hmv : m.value with
    | none => exact hmv
    | some a => exact absurd (by rw [at?, hm, Option.map_some, hmv]) (hd a)

theorem Pending.step {p : List κ} {s : KeyTree κ α} (hc : Compatible dst src)
    (h : Pending dst src t ((p, s) :: pending)) {es : List (κ × KeyTree κ α)} {d d' : KeyTree κ α}
    (hn : (es.map Prod.fst).Nodup) (hmem : ∀ e ∈ es, ∀ q, sub s (e.1 :: q) = sub e.2 q)
    (hmissing : ∀ k ∉ es.map Prod.fst, ∀ q, sub s (k :: q) = none)
    (hd : sub t p = some d) (hd' : d'.value = none)
    (hassigned : ∀ e ∈ es, ∀ q, sub d' (e.1 :: q) = sub (assigned d e) q)
    (hother : ∀ k ∉ es.map Prod.fst, ∀ q, sub d' (k :: q) = sub d (k :: q)) :
    Pending dst src (replaceAt t p d') (pending ++ children p es) := by
  obtain ⟨hsrc, hs⟩ := h.source _ List.mem_cons_self
  obtain ⟨hfirst, hrest⟩ := List.pairwise_cons.1 h.apart
  obtain ⟨hat, hout⟩ := at?_replaceAt hd d'
  have hchild : ∀ e ∈ es, sub src (p ++ [e.1]) = some e.2 := by
    intro e he
    rw [sub_append, hsrc, Option.bind_some, hmem e he, sub_nil]
  -- what the node has is what `dst` has
  have hbelow : ∀ k r, at? d (k :: r) = at? dst (p ++ k :: r) := by
    intro k r
    rw [← h.below _ List.mem_cons_self (k :: r) (List.cons_ne_nil _ _), at?_append hd]
  refine ⟨fun e he => ?_, ?_, fun e he r hr => ?_, fun q hq => ?_⟩
  · rcases List.mem_append.1 he with he | he
    · exact h.source e (List.mem_cons_of_mem _ he)
    · obtain ⟨e, hes, hv, rfl⟩ := mem_children.1 he
      exact ⟨hchild e hes, hv⟩
  · refine List.pairwise_append.2 ⟨hrest, apart_children hn, fun f hf c hcm => ?_⟩
    obtain ⟨e, -, -, rfl⟩ := mem_children.1 hcm
    obtain ⟨hpf, hfp⟩ := hfirst f hf
    refine ⟨fun hpre => ?_, fun hpre => hpf ((List.prefix_append _ _).trans hpre)⟩
    rcases List.prefix_concat_iff.1 hpre with heq | hpre
    · exact hpf (heq ▸ List.prefix_append _ _)
    · exact hfp hpre
  · rcases List.mem_append.1 he with he | he
    · obtain ⟨hpe, hep⟩ := hfirst e he
      rw [hout, h.below e (List.mem_cons_of_mem _ he) r hr]
      intro hpre
      exact (List.prefix_or_prefix_of_prefix hpre (List.prefix_append _ _)).elim hpe hep
    · obtain ⟨e, hes, hv, rfl⟩ := mem_children.1 he
      obtain ⟨k, r, rfl⟩ := List.exists_cons_of_ne_nil hr
      rw [List.append_assoc, List.singleton_append, hat, ← hbelow, at?, hassigned e hes, assigned,
        if_pos (by simp [hv]), at?,
        show sub d (e.1 :: k :: r) = (sub d [e.1]).bind fun n => sub n (k :: r) from
          sub_append d [e.1] (k :: r)]
      cases sub d [e.1] with
      | none => rfl
      | some m => rfl
  · by_cases hpre : p <+: q
    · obtain ⟨r, rfl⟩ := hpre
      rw [hat]
      cases r with
      | nil => rw [List.append_nil, at?_merge_dict dst hsrc hs, at?, sub_nil, Option.map_some, hd']
      | cons k r =>
        by_cases hk : k ∈ es.map Prod.fst
        · obtain ⟨e, he, rfl⟩ := List.mem_map.1 hk
          rw [at?, hassigned e he]
          by_cases hv : e.2.value = none
          · have heq := hq _ (List.mem_append_right _ (mem_children.2 ⟨e, he, hv, rfl⟩))
              ⟨r, by simp⟩
            obtain rfl : r = [] := by simpa using heq
            have hsrc' : at? src (p ++ [e.1]) = some none := by
              rw [at?, hchild e he, Option.map_some, hv]
            rw [at?_merge_dict dst (hchild e he) hv, sub_nil, Option.map_some,
              value_assigned hv fun a => hbelow e.1 [] ▸ hc _ hsrc' a]
          · have := at?_merge_leaf dst (hchild e he) hv r
            rw [List.append_assoc, List.singleton_append] at this
            rw [this, assigned, if_neg (by simpa using hv), at?]
        · rw [at?_merge_missing dst hsrc hs (hmissing k hk), ← hbelow, at?, at?, hother k hk]
    · rw [hout q hpre]
      refine h.merged q fun e he hpre' => ?_
      rcases List.mem_cons.1 he with rfl | he
      · exact absurd hpre' hpre
      · exact hq e (List.mem_append_left _ he) hpre'

omit [DecidableEq κ] in
theorem sum_children (p : List κ) (es : List (κ × KeyTree κ α)) :
    ((children p es).map fun c => c.2.size).sum = (es.map fun e => e.2.size).sum := by
  induction es with
  | nil => rfl
  | cons e es ih =>
    obtain ⟨k, v⟩ := e
    cases v with
    | leaf a => simpa [children, value, size] using ih
    | dict keys nodup child => simpa [children, value] using ih

/-- The loop ends, with the merge: each pass takes one dictionary of `src` off. -/
theorem loop_merge {fuel : ℕ} (hc : Compatible dst src) (h : Pending dst src t pending)
    (hfuel : (pending.map fun e => e.2.size).sum ≤ fuel) :
    ∃ t', loop fuel t pending = some t' ∧ ∀ q, at? t' q = at? (merge dst src) q := by
  induction fuel generalizing t pending with
  | zero =>
    cases pending with
    | nil => exact ⟨t, rfl, fun q => h.merged q (by simp)⟩
    | cons e pending =>
      obtain ⟨es, -, -, -, -, hsize⟩ := items_spec (h.source e List.mem_cons_self).2
      rw [List.map_cons, List.sum_cons] at hfuel
      omega
  | succ fuel ih =>
    cases pending with
    | nil => exact ⟨t, rfl, fun q => h.merged q (by simp)⟩
    | cons e pending =>
      obtain ⟨p, s⟩ := e
      obtain ⟨es, hes, hn, hmem, hmissing, hsize⟩ := items_spec (h.source _ List.mem_cons_self).2
      obtain ⟨d, hd, hdv⟩ := h.node
      obtain ⟨d', hfold, hd', hassigned, hother⟩ := foldlM_assign hdv hn
      have hstep := h.step hc hn hmem hmissing hd hd' hassigned hother
      obtain ⟨t', ht', hmerge⟩ := ih hstep (by
        rw [List.map_append, List.sum_append, sum_children]
        rw [List.map_cons, List.sum_cons] at hfuel
        omega)
      refine ⟨t', ?_, hmerge⟩
      rw [loop, hes, Option.bind_some, hd, Option.bind_some, hfold, Option.bind_some]
      exact ht'

theorem pending_init (dst : KeyTree κ α) (hs : src.value = none) (hd : dst.value = none) :
    Pending dst src dst [([], src)] := by
  refine ⟨fun e he => ?_, List.pairwise_singleton _ _, fun _ _ _ _ => rfl, fun q hq => ?_⟩
  · obtain rfl := List.mem_singleton.1 he
    exact ⟨sub_nil _, hs⟩
  · obtain rfl : [] = q := hq _ List.mem_cons_self List.nil_prefix
    rw [at?_merge_dict dst (sub_nil src) hs, at?, sub_nil, Option.map_some, hd]

theorem deepUpdate_spec (hs : src.value = none) (hc : Compatible dst src) :
    ∃ t, deepUpdate dst src = some t ∧ ∀ q, at? t q = at? (merge dst src) q := by
  have hd : dst.value = none := by
    cases hv : dst.value with
    | none => rfl
    | some a =>
      refine absurd ?_ (hc [] (by rw [at?, sub_nil, Option.map_some, hs]) a)
      rw [at?, sub_nil, Option.map_some, hv]
  exact loop_merge hc (pending_init dst hs hd) (by simp)

/-- Assignments to the items of a value other than a dictionary fail, and no items leave it. -/
theorem foldlM_assign_leaf {a : α} {es : List (κ × KeyTree κ α)} {d : KeyTree κ α}
    (h : es.foldlM assign (leaf a) = some d) : d = leaf a := by
  cases es with
  | nil => exact (Option.some.inj h).symm
  | cons e es =>
    have hnone : assign (leaf a) e = none := by
      unfold assign
      split <;> rfl
    simp [hnone] at h

/-- A value of `dst` where `src` has a dictionary is never replaced. -/
theorem loop_kept {fuel : ℕ} {q : List κ} {a : α} {t' : KeyTree κ α}
    (hsource : ∀ e ∈ pending, sub src e.1 = some e.2) (hq : at? src q = some none)
    (ht : at? t q = some (some a)) (h : loop fuel t pending = some t') :
    at? t' q = some (some a) := by
  induction fuel generalizing t pending with
  | zero =>
    cases pending with
    | nil => exact Option.some.inj h ▸ ht
    | cons e pending => simp [loop] at h
  | succ fuel ih =>
    cases pending with
    | nil => exact Option.some.inj h ▸ ht
    | cons e pending =>
      obtain ⟨p, s⟩ := e
      obtain ⟨es, hes, h⟩ := Option.bind_eq_some_iff.1 h
      obtain ⟨d, hd, h⟩ := Option.bind_eq_some_iff.1 h
      obtain ⟨d', hfold, h⟩ := Option.bind_eq_some_iff.1 h
      have hsrc : sub src p = some s := hsource _ List.mem_cons_self
      have hs : s.value = none := by
        cases s with
        | leaf b => simp [items] at hes
        | dict keys nodup child => rfl
      obtain ⟨es', hes', hn, hmem, -, -⟩ := items_spec hs
      obtain rfl : es' = es := Option.some.inj (hes'.symm.trans hes)
      refine ih (fun e he => ?_) ?_ h
      · rcases List.mem_append.1 he with he | he
        · exact hsource e (List.mem_cons_of_mem _ he)
        · obtain ⟨e, hes, -, rfl⟩ := mem_children.1 he
          rw [sub_append, hsrc, Option.bind_some, hmem e hes, sub_nil]
      · obtain ⟨hat, hout⟩ := at?_replaceAt hd d'
        by_cases hpre : p <+: q
        · obtain ⟨r, rfl⟩ := hpre
          rw [at?_append hd] at ht
          rw [at?_append hsrc] at hq
          rw [hat]
          cases hdv : d.value with
          | some b =>
            cases d with
            | leaf b => rwa [foldlM_assign_leaf hfold]
            | dict keys nodup child => simp [value] at hdv
          | none =>
            cases r with
            | nil => simp [at?, hdv] at ht
            | cons k r =>
              obtain ⟨d₁, hfold₁, -, hassigned, hother⟩ := foldlM_assign hdv hn
              obtain rfl : d₁ = d' := Option.some.inj (hfold₁.symm.trans hfold)
              by_cases hk : k ∈ es'.map Prod.fst
              · obtain ⟨e, he, rfl⟩ := List.mem_map.1 hk
                -- `src` has a dictionary at or below the key, so the item is one
                have hv : e.2.value = none := by
                  rw [at?, hmem e he] at hq
                  cases hev : e.2 with
                  | dict keys nodup child => rfl
                  | leaf b => cases r <;> simp [hev, value] at hq
                rw [at?, show e.1 :: r = [e.1] ++ r from rfl, sub_append] at ht
                rw [at?, hassigned e he, assigned, if_pos (by simp [hv])]
                cases hsub : sub d [e.1] with
                | none => simp [hsub] at ht
                | some m => simpa [hsub] using ht
              · rw [at?, hother k hk]
                exact ht
        · rw [hout q hpre]
          exact ht

/-- `deep_update` returns the merge, and updating the result again returns the same tree, if and
    only if `src` is a dictionary and `dst` has no other value where `src` has a dictionary. -/
theorem deepUpdate_merge_iff (dst src : KeyTree κ α) :
    (∃ t, deepUpdate dst src = some t ∧ (∀ q, at? t q = at? (merge dst src) q) ∧
      ∃ t', deepUpdate t src = some t' ∧ ∀ q, at? t' q = at? t q) ↔
    src.value = none ∧ Compatible dst src := by
  classical
  constructor
  · rintro ⟨t, ht, hmerge, -⟩
    refine ⟨?_, fun q hq a ha => ?_⟩
    · cases src with
      | leaf a => simp [deepUpdate, loop, size] at ht
      | dict keys nodup child => rfl
    · have hkept := loop_kept (fun e he => by rw [List.mem_singleton.1 he, sub_nil]) hq ha ht
      rw [hmerge, at?_merge, hq] at hkept
      simp at hkept
  · rintro ⟨hs, hc⟩
    obtain ⟨t, ht, hmerge⟩ := deepUpdate_spec hs hc
    have hc' : Compatible t src := by
      intro q hq a ha
      rw [hmerge, at?_merge, hq] at ha
      simp at ha
    obtain ⟨t', ht', hmerge'⟩ := deepUpdate_spec hs hc'
    refine ⟨t, ht, hmerge, t', ht', fun q => ?_⟩
    rw [hmerge', at?_merge, hmerge, at?_merge]
    cases at? src q with
    | some v => rfl
    | none =>
      simp only [Option.none_or]
      split
      · rfl
      · rfl

/-- A dictionary with one item. -/
def single (key : String) (value : KeyTree String ℕ) : KeyTree String ℕ :=
  dict [key] (List.nodup_singleton key) fun _ _ => value

/-- A value where the update has a dictionary: with an item the update fails, without one the value
    stays. -/
theorem type_conflict :
    (deepUpdate (single "PORT" (leaf 1)) (single "PORT" (single "Ethernet0" (leaf 2)))).isNone ∧
    (deepUpdate (single "PORT" (leaf 1)) (single "PORT" empty)).map (at? · ["PORT"]) =
      some (some (some 1)) ∧
    at? (merge (single "PORT" (leaf 1)) (single "PORT" empty)) ["PORT"] = some none := by
  decide

end SonicBuildimage.ConfigEngine.DeepUpdate
