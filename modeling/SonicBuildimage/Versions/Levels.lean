/-
  Versions by level.

  A component is found by its order keys: its type, its distribution and its architecture, with
  the empty string for "all".  `ver` gives the versions of a list of components at such keys,
  and `base` the keys below, from which versions are inherited: first "all" and "all", then
  "all" and the architecture, then the distribution and "all".

  Proved:
  * `get_merge`, `get_subtract`: `merge` lays versions over a component, `subtract` takes them
    away from it (`overlay` and `minus` of the library).
  * `stack_inheritable`: the components that a component inherits from, merged in their order,
    are the levels of `base` over each other.
  * `filter_groups`: what a loop over the component types gives for one of them.
-/
import SonicBuildimage.Versions.Model
import SonicBuildimage.Lib.Overlay
import Mathlib.Tactic.Common

namespace SonicBuildimage.Versions

open SonicBuildimage.Lib Component

/-! ## One component -/

section Packages

variable (vs : Dict String String)

theorem get_foldl_merge (ks : List String) (self : Dict String String) (p : String) :
    Dict.get? (ks.foldl (mergePackage vs true) self) p =
      if p ∈ ks then (Dict.get? vs p).or (Dict.get? self p) else Dict.get? self p := by
  induction ks generalizing self with
  | nil => rfl
  | cons k ks ih =>
    have hstep : Dict.get? (mergePackage vs true self k) p =
        if k = p then (Dict.get? vs p).or (Dict.get? self p) else Dict.get? self p := by
      unfold mergePackage
      rw [if_pos (Or.inl rfl)]
      cases hk : Dict.get? vs k with
      | none =>
        dsimp only
        split
        · next hkp =>
          rw [← hkp, hk]
          rfl
        · rfl
      | some v =>
        dsimp only
        rw [Dict.get?_set]
        split
        · next hkp =>
          rw [← hkp, hk]
          rfl
        · rfl
    rw [List.foldl_cons, ih, hstep]
    by_cases hkp : k = p
    · subst hkp
      cases Dict.get? vs k with
      | none => simp
      | some v => simp
    · simp [hkp, Ne.symm hkp]

theorem get_foldl_subtract (ks : List String) (self : Dict String String) (p : String) :
    Dict.get? (ks.foldl (subtractPackage vs) self) p =
      if p ∈ ks ∧ Dict.get? self p = Dict.get? vs p then none else Dict.get? self p := by
  induction ks generalizing self with
  | nil => simp
  | cons k ks ih =>
    have hstep : Dict.get? (subtractPackage vs self k) p =
        if k = p ∧ Dict.get? self p = Dict.get? vs p then none else Dict.get? self p := by
      unfold subtractPackage
      by_cases hkp : k = p
      · subst hkp
        by_cases heq : Dict.get? self k = Dict.get? vs k
        · rw [if_pos (show k = k ∧ Dict.get? self k = Dict.get? vs k from ⟨rfl, heq⟩)]
          split
          · exact Dict.get?_erase_self self k
          · next hnot =>
            by_contra hne
            exact hnot ⟨hne, heq⟩
        · rw [if_neg (fun h => heq h.2), if_neg (fun h => heq h.2)]
      · rw [if_neg (show ¬ (k = p ∧ Dict.get? self p = Dict.get? vs p) from fun h => hkp h.1)]
        split
        · exact Dict.get?_erase_ne self hkp
        · rfl
    rw [List.foldl_cons, ih, hstep]
    by_cases hkp : k = p
    · subst hkp
      by_cases heq : Dict.get? self k = Dict.get? vs k
      · simp [heq]
      · simp [heq]
    · simp [hkp, Ne.symm hkp]

/-- The versions of a component as a map. -/
def Component.get (c : Component) : String → Option String := Dict.get? c.versions

theorem get_merge (c : Component) : (c.merge vs true).get = overlay (Dict.get? vs) c.get := by
  funext p
  change Dict.get? ((Dict.keys vs).foldl (mergePackage vs true) c.versions) p = _
  rw [get_foldl_merge]
  split
  · rfl
  · next hp =>
    have hnone : Dict.get? vs p = none := by
      by_contra hne
      exact hp ((Dict.mem_keys_iff vs p).2 hne)
    unfold overlay
    rw [hnone]
    rfl

theorem get_subtract (c : Component) : (c.subtract vs).get = minus c.get (Dict.get? vs) := by
  funext p
  change Dict.get? ((Dict.keys vs).foldl (subtractPackage vs) c.versions) p = _
  rw [get_foldl_subtract]
  unfold minus Component.get
  by_cases heq : Dict.get? c.versions p = Dict.get? vs p
  · rw [if_pos heq]
    split
    · rfl
    · next hnot =>
      by_contra hne
      exact hnot ⟨(Dict.mem_keys_iff vs p).2 (heq ▸ hne), heq⟩
  · rw [if_neg heq, if_neg (fun h => heq h.2)]

theorem versions_eq_nil_iff (c : Component) : c.versions = [] ↔ c.get = nothing := by
  constructor
  · intro h
    unfold Component.get
    rw [h]
    rfl
  · intro h
    cases hvs : c.versions with
    | nil => rfl
    | cons e rest =>
      have hnone : Dict.get? c.versions e.1 = none := congrFun h e.1
      rw [hvs, Dict.get?_cons, if_pos rfl] at hnone
      exact absurd hnone (by simp)

end Packages

/-! ## Keys -/

namespace Keys

def mk (ctype dist arch : String) : Keys := toLex (ctype, toLex (dist, arch))

def ctype (k : Keys) : String := (ofLex k).1

def dist (k : Keys) : String := (ofLex (ofLex k).2).1

def arch (k : Keys) : String := (ofLex (ofLex k).2).2

theorem mk_eta (k : Keys) : mk (ctype k) (dist k) (arch k) = k := rfl

theorem mk_inj {c d a c' d' a' : String} : mk c d a = mk c' d' a' ↔ c = c' ∧ d = d' ∧ a = a' := by
  constructor
  · intro h
    exact ⟨congrArg ctype h, congrArg dist h, congrArg arch h⟩
  · rintro ⟨rfl, rfl, rfl⟩
    rfl

theorem empty_lt {s : String} (h : s ≠ "") : "" < s := by
  rw [String.lt_iff_toList_lt]
  cases hs : s.toList with
  | nil => exact absurd (String.toList_inj.1 (hs.trans String.toList_empty.symm)) h
  | cons x xs => exact List.nil_lt_cons x xs

theorem mk_lt_of_dist {c d a a' : String} (h : d ≠ "") : mk c "" a < mk c d a' :=
  Prod.Lex.toLex_lt_toLex.2 (Or.inr ⟨rfl, Prod.Lex.toLex_lt_toLex.2 (Or.inl (empty_lt h))⟩)

theorem mk_lt_of_arch {c d a : String} (h : a ≠ "") : mk c d "" < mk c d a :=
  Prod.Lex.toLex_lt_toLex.2 (Or.inr ⟨rfl, Prod.Lex.toLex_lt_toLex.2 (Or.inr ⟨rfl, empty_lt h⟩)⟩)

/-- The keys below, the most general ones first. -/
def base (k : Keys) : List Keys :=
  if dist k = "" ∧ arch k = "" then []
  else if dist k = "" ∨ arch k = "" then [mk (ctype k) "" ""]
  else [mk (ctype k) "" "", mk (ctype k) "" (arch k), mk (ctype k) (dist k) ""]

/-- The keys from which versions can be inherited, the keys themselves among them. -/
def Inherits (k j : Keys) : Prop :=
  ctype k = ctype j ∧ (dist j = "" ∨ dist k = dist j) ∧ (arch j = "" ∨ arch k = arch j)

theorem mem_base_iff {k j : Keys} : j ∈ base k ↔ Inherits k j ∧ j ≠ k := by
  obtain ⟨c, d, a, rfl⟩ : ∃ c d a, k = mk c d a := ⟨_, _, _, (mk_eta k).symm⟩
  obtain ⟨c', d', a', rfl⟩ : ∃ c d a, j = mk c d a := ⟨_, _, _, (mk_eta j).symm⟩
  change mk c' d' a' ∈ (if d = "" ∧ a = "" then [] else if d = "" ∨ a = "" then [mk c "" ""]
    else [mk c "" "", mk c "" a, mk c d ""]) ↔
    (c = c' ∧ (d' = "" ∨ d = d') ∧ (a' = "" ∨ a = a')) ∧ mk c' d' a' ≠ mk c d a
  by_cases hd : d = ""
  · by_cases ha : a = ""
    · simp only [hd, ha, and_self, if_true, mk_inj, ne_eq, List.not_mem_nil, false_iff]
      grind
    · simp only [hd, ha, and_false, if_false, true_or, if_true, mk_inj, ne_eq, List.mem_singleton]
      grind
  · by_cases ha : a = ""
    · simp only [hd, ha, false_and, if_false, or_true, if_true, mk_inj, ne_eq, List.mem_singleton]
      grind
    · simp only [hd, ha, false_and, if_false, or_self, mk_inj, ne_eq, List.mem_cons,
        List.not_mem_nil, or_false]
      grind

theorem base_sorted (k : Keys) : (base k ++ [k]).Pairwise (· < ·) := by
  obtain ⟨c, d, a, rfl⟩ : ∃ c d a, k = mk c d a := ⟨_, _, _, (mk_eta k).symm⟩
  change ((if d = "" ∧ a = "" then [] else if d = "" ∨ a = "" then [mk c "" ""]
    else [mk c "" "", mk c "" a, mk c d ""]) ++ [mk c d a]).Pairwise (· < ·)
  by_cases hd : d = ""
  · by_cases ha : a = ""
    · simp [hd, ha]
    · subst hd
      simp [ha, mk_lt_of_arch ha]
  · by_cases ha : a = ""
    · subst ha
      simp [hd, mk_lt_of_dist hd]
    · simp [hd, ha, mk_lt_of_arch ha, mk_lt_of_dist hd]

theorem lt_of_mem_base {k j : Keys} (h : j ∈ base k) : j < k :=
  (List.pairwise_append.1 (base_sorted k)).2.2 j h k (List.mem_singleton_self k)

/-- How many of distribution and architecture are given. -/
def rank (k : Keys) : Nat := (if dist k = "" then 0 else 1) + (if arch k = "" then 0 else 1)

theorem base_wf : WellFounded fun j k : Keys => j ∈ base k := by
  refine Subrelation.wf (fun {j k} hj => ?_) (measure rank).wf
  change rank j < rank k
  obtain ⟨⟨hc, hd, ha⟩, hne⟩ := mem_base_iff.1 hj
  have hne' : ¬ (dist k = dist j ∧ arch k = arch j) := fun h =>
    hne ((mk_eta j).symm.trans ((mk_inj.2 ⟨hc.symm, h.1.symm, h.2.symm⟩).trans (mk_eta k)))
  unfold rank
  grind

end Keys

/-! ## Components and keys -/

section Component

variable {c m b : Component}

theorem dist_getOrderKeys (c : Component) :
    Keys.dist c.getOrderKeys = if c.dist = allDist then "" else c.dist := by
  change (if c.dist = "" ∨ c.dist = allDist then "" else c.dist) = _
  simp only [c.dist_ne, false_or]

theorem arch_getOrderKeys (c : Component) :
    Keys.arch c.getOrderKeys = if c.arch = allArch then "" else c.arch := by
  change (if c.arch = "" ∨ c.arch = allArch then "" else c.arch) = _
  simp only [c.arch_ne, false_or]

theorem ctype_getOrderKeys (c : Component) : Keys.ctype c.getOrderKeys = c.ctype := rfl

/-- Keys tell components apart. -/
theorem getOrderKeys_inj :
    c.getOrderKeys = m.getOrderKeys ↔ c.ctype = m.ctype ∧ c.dist = m.dist ∧ c.arch = m.arch := by
  have hc := c.dist_ne
  have hm := m.dist_ne
  have hc' := c.arch_ne
  have hm' := m.arch_ne
  rw [← Keys.mk_eta c.getOrderKeys, ← Keys.mk_eta m.getOrderKeys, Keys.mk_inj,
    dist_getOrderKeys, dist_getOrderKeys, arch_getOrderKeys, arch_getOrderKeys,
    ctype_getOrderKeys, ctype_getOrderKeys]
  grind

theorem checkOverwritable_iff :
    c.checkOverwritable m false false = true ↔ c.getOrderKeys = m.getOrderKeys := by
  rw [getOrderKeys_inj]
  unfold checkOverwritable
  grind

theorem checkInheritable_iff :
    c.checkInheritable b = true ↔ Keys.Inherits c.getOrderKeys b.getOrderKeys := by
  have hc := c.dist_ne
  have hb := b.dist_ne
  have hc' := c.arch_ne
  have hb' := b.arch_ne
  unfold checkInheritable Keys.Inherits
  rw [dist_getOrderKeys, dist_getOrderKeys, arch_getOrderKeys, arch_getOrderKeys,
    ctype_getOrderKeys, ctype_getOrderKeys]
  grind

theorem getOrderKeys_merge (vs : Dict String String) (o : Bool) :
    (c.merge vs o).getOrderKeys = c.getOrderKeys := rfl

end Component

/-! ## Lists of components -/

def keysOf (l : List Component) : List Keys := l.map getOrderKeys

/-- The versions at some keys. -/
def ver (l : List Component) (k : Keys) : String → Option String :=
  match l.find? fun c => c.getOrderKeys = k with
  | some c => c.get
  | none => nothing

section Ver

variable {l l' : List Component} {k : Keys} {c : Component}

theorem ver_cons (c : Component) (l : List Component) (k : Keys) :
    ver (c :: l) k = if c.getOrderKeys = k then c.get else ver l k := by
  unfold ver
  by_cases h : c.getOrderKeys = k
  · simp [h]
  · simp [h]

theorem ver_of_not_mem (h : k ∉ keysOf l) : ver l k = nothing := by
  induction l with
  | nil => rfl
  | cons c l ih =>
    have hc : c.getOrderKeys ≠ k := fun heq => h (heq ▸ List.mem_cons_self)
    rw [ver_cons, if_neg hc, ih fun hl => h (List.mem_cons_of_mem _ hl)]

theorem ver_of_mem (hn : (keysOf l).Nodup) (hc : c ∈ l) : ver l c.getOrderKeys = c.get := by
  induction l with
  | nil => exact absurd hc List.not_mem_nil
  | cons b l ih =>
    obtain ⟨hb, hl⟩ := List.nodup_cons.1 (show (b.getOrderKeys :: keysOf l).Nodup from hn)
    rw [ver_cons]
    rcases List.mem_cons.1 hc with rfl | hmem
    · rw [if_pos rfl]
    · have hne : b.getOrderKeys ≠ c.getOrderKeys := fun heq =>
        hb (heq ▸ List.mem_map_of_mem hmem)
      rw [if_neg hne, ih hl hmem]

theorem ver_append (l l' : List Component) (k : Keys) :
    ver (l ++ l') k = if k ∈ keysOf l then ver l k else ver l' k := by
  induction l with
  | nil => rfl
  | cons b l ih =>
    rw [List.cons_append, ver_cons, ver_cons, ih]
    by_cases hb : b.getOrderKeys = k
    · simp [keysOf, hb]
    · simp [keysOf, hb, Ne.symm hb]

theorem ver_perm (h : l.Perm l') (hn : (keysOf l).Nodup) : ver l = ver l' := by
  funext k
  by_cases hk : k ∈ keysOf l
  · obtain ⟨c, hc, rfl⟩ := List.mem_map.1 hk
    rw [ver_of_mem hn hc, ver_of_mem ((h.map _).nodup hn) (h.mem_iff.1 hc)]
  · rw [ver_of_not_mem hk, ver_of_not_mem (fun hk' => hk ((h.map _).mem_iff.2 hk'))]

/-- Components without versions can be left out. -/
theorem ver_filter_versions (hn : (keysOf l).Nodup) :
    ver (l.filter fun c => c.versions ≠ []) = ver l := by
  funext k
  induction l with
  | nil => rfl
  | cons c l ih =>
    obtain ⟨hc, hl⟩ := List.nodup_cons.1 (show (c.getOrderKeys :: keysOf l).Nodup from hn)
    rw [ver_cons, List.filter_cons]
    by_cases hvs : c.versions = []
    · rw [if_neg (by simp [hvs]), ih hl]
      split
      · next hk =>
        rw [(versions_eq_nil_iff c).1 hvs, ver_of_not_mem (hk ▸ hc)]
      · rfl
    · rw [if_pos (by simp [hvs]), ver_cons, ih hl]

end Ver

/-! ## Sorted lists -/

theorem sortComponents_perm (l : List Component) : (sortComponents l).Perm l :=
  List.perm_insertionSort _ l

/-- The keys of a list in order, equal ones allowed. -/
def Ordered (l : List Component) : Prop := l.Pairwise fun a b => a.getOrderKeys ≤ b.getOrderKeys

theorem sortComponents_ordered (l : List Component) : Ordered (sortComponents l) := by
  have htotal : Std.Total fun a b : Component => a.getOrderKeys ≤ b.getOrderKeys :=
    ⟨fun a b => le_total a.getOrderKeys b.getOrderKeys⟩
  have htrans : IsTrans Component fun a b => a.getOrderKeys ≤ b.getOrderKeys :=
    ⟨fun _ _ _ => le_trans⟩
  exact List.pairwise_insertionSort _ l

theorem sortComponents_sorted {l : List Component} (hn : (keysOf l).Nodup) :
    (keysOf (sortComponents l)).Pairwise (· < ·) := by
  have hle : (keysOf (sortComponents l)).Pairwise (· ≤ ·) :=
    List.pairwise_map.2 (sortComponents_ordered l)
  have hnodup : (keysOf (sortComponents l)).Nodup :=
    ((sortComponents_perm l).map _).nodup_iff.2 hn
  exact List.Pairwise.imp₂ (fun _ _ => lt_of_le_of_ne) hle hnodup

theorem nodup_of_sorted {ks : List Keys} (h : ks.Pairwise (· < ·)) : ks.Nodup :=
  h.imp ne_of_lt

/-! ## What a component inherits -/

theorem get_foldl_inheritFrom (c : Component) (l : List Component) (init : Component) :
    (l.foldl (VersionModule.inheritFrom c) init).get =
      overlay (stack Component.get (l.filter c.checkInheritable)) init.get := by
  induction l generalizing init with
  | nil => exact (nothing_overlay _).symm
  | cons b l ih =>
    rw [List.foldl_cons, ih, List.filter_cons, VersionModule.inheritFrom]
    by_cases hb : c.checkInheritable b = true
    · rw [if_pos hb, if_pos hb, stack_cons, get_merge, overlay_assoc]
      rfl
    · rw [if_neg hb, if_neg hb]

theorem foldl_configFrom (init : Component) (l : List Component) :
    l.foldl VersionModule.configFrom init = l.foldl (VersionModule.inheritFrom init) init := by
  have hgen : ∀ result : Component, result.getOrderKeys = init.getOrderKeys →
      l.foldl VersionModule.configFrom result =
        l.foldl (VersionModule.inheritFrom init) result := by
    induction l with
    | nil => exact fun _ _ => rfl
    | cons b l ih =>
      intro result hkeys
      have hb : result.checkInheritable b = init.checkInheritable b := by
        rw [Bool.eq_iff_iff, checkInheritable_iff, checkInheritable_iff, hkeys]
      rw [List.foldl_cons, List.foldl_cons, VersionModule.configFrom, VersionModule.inheritFrom, hb]
      split
      · exact ih _ hkeys
      · exact ih _ hkeys
  exact hgen init rfl

/-- What the components with these keys say together. -/
def level (l : List Component) (k : Keys) : String → Option String :=
  stack Component.get (l.filter fun c => c.getOrderKeys = k)

/-- In an ordered list the components of a level stand before those with greater keys. -/
theorem filter_cons_keys {l : List Component} (hl : Ordered l) {k : Keys} {ks : List Keys}
    (hk : ∀ j ∈ ks, k < j) :
    (l.filter fun c => c.getOrderKeys ∈ k :: ks) =
      (l.filter fun c => c.getOrderKeys = k) ++ l.filter fun c => c.getOrderKeys ∈ ks := by
  induction l with
  | nil => rfl
  | cons c l ih =>
    obtain ⟨hc, hl⟩ := List.pairwise_cons.1 hl
    rw [List.filter_cons, List.filter_cons, List.filter_cons, ih hl]
    by_cases hck : c.getOrderKeys = k
    · have hnot : c.getOrderKeys ∉ ks := fun hmem => lt_irrefl k (hk k (hck ▸ hmem))
      rw [if_pos (by simp [hck]), if_pos (by simp [hck]), if_neg (by simp [hnot]), List.cons_append]
    · by_cases hmem : c.getOrderKeys ∈ ks
      · -- nothing behind `c` is at the level of `k`
        have hnil : (l.filter fun c => c.getOrderKeys = k) = [] := by
          refine List.filter_eq_nil_iff.2 fun b hb => ?_
          have hlt : k < b.getOrderKeys := lt_of_lt_of_le (hk _ hmem) (hc b hb)
          simp [ne_of_gt hlt]
        rw [if_pos (by simp [hmem]), if_neg (by simp [hck]), if_pos (by simp [hmem]), hnil]
        rfl
      · rw [if_neg (by simp [hck, hmem]), if_neg (by simp [hck]), if_neg (by simp [hmem])]

/-- The components with some keys stand level by level. -/
theorem stack_mem_keys {l : List Component} (hl : Ordered l) {ks : List Keys}
    (hks : ks.Pairwise (· < ·)) :
    stack Component.get (l.filter fun c => c.getOrderKeys ∈ ks) = stack (level l) ks := by
  induction ks with
  | nil => simp [stack]
  | cons k ks ih =>
    obtain ⟨hk, hks⟩ := List.pairwise_cons.1 hks
    rw [filter_cons_keys hl hk, stack_append, stack_cons, ih hks]
    rfl

/-- The components that `c` inherits from are the levels of its keys. -/
theorem stack_checkInheritable {l : List Component} (hl : Ordered l) (c : Component) :
    stack Component.get (l.filter c.checkInheritable) =
      stack (level l) (Keys.base c.getOrderKeys ++ [c.getOrderKeys]) := by
  rw [← stack_mem_keys hl (Keys.base_sorted _)]
  refine congrArg _ (List.filter_congr fun b _ => ?_)
  rw [Bool.eq_iff_iff, checkInheritable_iff, decide_eq_true_iff, List.mem_append,
    List.mem_singleton, Keys.mem_base_iff]
  by_cases hb : b.getOrderKeys = c.getOrderKeys
  · rw [hb]
    exact iff_of_true ⟨rfl, .inr rfl, .inr rfl⟩ (.inr rfl)
  · simp [hb]

/-- With different keys a level is one component. -/
theorem level_eq_ver {l : List Component} (hn : (keysOf l).Nodup) (k : Keys) :
    level l k = ver l k := by
  induction l with
  | nil => rfl
  | cons c l ih =>
    obtain ⟨hc, hl⟩ := List.nodup_cons.1 (show (c.getOrderKeys :: keysOf l).Nodup from hn)
    have hcons : level (c :: l) k =
        if c.getOrderKeys = k then overlay (level l k) c.get else level l k := by
      rw [level, List.filter_cons]
      by_cases hk : c.getOrderKeys = k
      · rw [if_pos (decide_eq_true hk), if_pos hk, stack_cons]
        rfl
      · rw [if_neg (by simp [hk]), if_neg hk]
        rfl
    rw [hcons, ver_cons, ih hl]
    by_cases hk : c.getOrderKeys = k
    · rw [if_pos hk, if_pos hk, ver_of_not_mem (hk ▸ hc), nothing_overlay]
    · rw [if_neg hk, if_neg hk]

theorem stack_inheritable {l : List Component} (hs : (keysOf l).Pairwise (· < ·)) (c : Component) :
    stack Component.get (l.filter c.checkInheritable) =
      overlay (ver l c.getOrderKeys) (stack (ver l) (Keys.base c.getOrderKeys)) := by
  have hordered : Ordered l := (List.pairwise_map.1 hs).imp le_of_lt
  have hlevel : level l = ver l := funext fun k => level_eq_ver (nodup_of_sorted hs) k
  rw [stack_checkInheritable hordered, hlevel, stack_append_singleton]

/-! ## Components by type -/

def ofCtype (l : List Component) (ctype : String) : List Component :=
  l.filter fun c => c.ctype = ctype

theorem ctype_of_mem_ofCtype {l : List Component} {t : String} {c : Component}
    (h : c ∈ ofCtype l t) : c.ctype = t :=
  of_decide_eq_true (List.mem_filter.1 h).2

theorem ver_ofCtype (l : List Component) (k : Keys) :
    ver (ofCtype l (Keys.ctype k)) k = ver l k := by
  induction l with
  | nil => rfl
  | cons c l ih =>
    unfold ofCtype at ih ⊢
    rw [List.filter_cons, ver_cons]
    by_cases hc : c.ctype = Keys.ctype k
    · rw [if_pos (decide_eq_true hc), ver_cons, ih]
    · rw [if_neg (by simp [hc]), ih, if_neg]
      exact fun hk => hc (congrArg Keys.ctype hk)

theorem keysOf_ofCtype_nodup {l : List Component} (h : (keysOf l).Nodup) (t : String) :
    (keysOf (ofCtype l t)).Nodup :=
  h.sublist (List.filter_sublist.map _)

theorem nodup_of_ofCtype {l : List Component} (h : ∀ t, (keysOf (ofCtype l t)).Nodup) :
    (keysOf l).Nodup := by
  induction l with
  | nil => exact List.nodup_nil
  | cons c l ih =>
    have hc := h c.ctype
    rw [ofCtype, List.filter_cons, if_pos (by simp)] at hc
    refine List.nodup_cons.2 ⟨fun hmem => ?_, ih fun t => (h t).sublist ?_⟩
    · obtain ⟨b, hb, hkey⟩ := List.mem_map.1 hmem
      have hbc : b.ctype = c.ctype := congrArg Keys.ctype hkey
      have hmem' : b.getOrderKeys ∈ keysOf (ofCtype l c.ctype) :=
        List.mem_map_of_mem (List.mem_filter.2 ⟨hb, decide_eq_true hbc⟩)
      exact (List.nodup_cons.1 hc).1 (hkey ▸ hmem')
    · exact ((List.sublist_cons_self c l).filter _).map _

/-- The components of a list, grouped by their types. -/
structure Grouped (d : Dict String (List Component)) (l : List Component) : Prop where
  nodup : (Dict.keys d).Nodup
  getD : ∀ t, Dict.getD d t [] = ofCtype l t

theorem grouped_perCtypes (m : VersionModule) : Grouped m.getComponentsPerCtypes m.components := by
  have hgen : ∀ (l : List Component) (d : Dict String (List Component)), (Dict.keys d).Nodup →
      (Dict.keys (l.foldl VersionModule.addToCtype d)).Nodup ∧
        ∀ t, Dict.getD (l.foldl VersionModule.addToCtype d) t [] =
          Dict.getD d t [] ++ ofCtype l t := by
    intro l
    induction l with
    | nil => exact fun d hd => ⟨hd, fun t => (List.append_nil _).symm⟩
    | cons c l ih =>
      intro d hd
      obtain ⟨hn, hget⟩ := ih (VersionModule.addToCtype d c) (Dict.keys_set_nodup hd _ _)
      refine ⟨hn, fun t => ?_⟩
      rw [List.foldl_cons, hget, VersionModule.addToCtype, Dict.getD_set]
      unfold ofCtype
      by_cases hc : c.ctype = t
      · simp [hc]
      · simp [hc]
  obtain ⟨hn, hget⟩ := hgen m.components [] List.nodup_nil
  exact ⟨hn, fun t => hget t⟩

theorem grouped_addMissing {l : List Component} (ctypes : List String)
    {d : Dict String (List Component)} (h : Grouped d l) :
    Grouped (ctypes.foldl VersionModule.addMissingCtype d) l := by
  induction ctypes generalizing d with
  | nil => exact h
  | cons s ctypes ih =>
    refine ih ?_
    unfold VersionModule.addMissingCtype
    split
    · next hnone =>
      refine ⟨Dict.keys_set_nodup h.nodup _ _, fun t => ?_⟩
      rw [Dict.getD_set, ← h.getD t]
      split
      · next hst =>
        rw [← hst, Dict.getD, hnone]
        rfl
      · rfl
    · exact h

/-- What a loop over the types gives for one of them. -/
theorem Grouped.filter_groups {d : Dict String (List Component)} {l : List Component}
    (h : Grouped d l) {g : String × List Component → List Component}
    (hnil : ∀ t, g (t, []) = [])
    (hg : ∀ t comps, (∀ c ∈ comps, c.ctype = t) → ∀ c ∈ g (t, comps), c.ctype = t) (t : String) :
    ofCtype (d.flatMap g) t = g (t, ofCtype l t) := by
  have hmem : ∀ e ∈ d, e.2 = ofCtype l e.1 := by
    intro e he
    rw [← h.getD e.1, Dict.getD, (Dict.get?_eq_some_iff h.nodup).2 (show (e.1, e.2) ∈ d from he)]
    rfl
  have hctype : ∀ e ∈ d, ∀ c ∈ g e, c.ctype = e.1 := by
    intro e he
    refine hg e.1 e.2 fun c hc => ?_
    rw [hmem e he] at hc
    exact ctype_of_mem_ofCtype hc
  have hgen : ∀ d' : Dict String (List Component), (∀ e ∈ d', ∀ c ∈ g e, c.ctype = e.1) →
      (Dict.keys d').Nodup → ofCtype (d'.flatMap g) t = g (t, Dict.getD d' t []) := by
    intro d' hd' hn
    induction d' with
    | nil => exact (hnil t).symm
    | cons e d' ih =>
      obtain ⟨he, hrest⟩ := List.forall_mem_cons.1 hd'
      obtain ⟨hnot, hn'⟩ := List.nodup_cons.1 (show (e.1 :: Dict.keys d').Nodup from hn)
      have ih' := ih hrest hn'
      unfold ofCtype at ih' ⊢
      have hcons : Dict.getD (e :: d') t [] = if e.1 = t then e.2 else Dict.getD d' t [] := by
        rw [Dict.getD, Dict.get?_cons]
        split
        · rfl
        · rfl
      rw [List.flatMap_cons, List.filter_append, ih', hcons]
      by_cases het : e.1 = t
      · have hall : (g e).filter (fun c => c.ctype = t) = g e :=
          List.filter_eq_self.2 fun c hc => by simp [he c hc, het]
        have hnone : Dict.getD d' t [] = [] :=
          Dict.getD_eq_of_not_mem_keys d' [] (het ▸ hnot)
        rw [if_pos het, hall, hnone, hnil, List.append_nil, ← het]
      · have hnone : (g e).filter (fun c => c.ctype = t) = [] :=
          List.filter_eq_nil_iff.2 fun c hc => by simp [he c hc, het]
        rw [if_neg het, hnone, List.nil_append]
  rw [hgen d hctype h.nodup, h.getD t]

end SonicBuildimage.Versions
