/-
  Adjusting versions: `VersionModule.adjust` and `_get_config_for_ctype` of
  scripts/versions_manager.py.

  Model.  See `Model`.  A level is what the components of one distribution and one architecture say
  together, the last one on top; there may be several of them.  An empty family has no versions.

  `adjust` compares the level of a distribution with the level of all of them only, but a build for
  this distribution and an architecture puts the level of the architecture in between.  A version
  that the distribution repeats, and the architecture does not, is dropped, and the build then gets
  the version of the architecture (`repeated_version_lost`).

  Proved: `adjust_resolves_iff`.  For every module, component type, distribution and architecture
  the versions are the same before and after `adjust` if and only if no package has this shape
  (`Clear`); where several components of the distribution give a version, all of them must repeat
  it.  With all distributions or all architectures there is no such package.
-/
import SonicBuildimage.Versions.Freeze

namespace SonicBuildimage.Versions

open SonicBuildimage.Lib Component VersionModule

/-! ## Levels with several components -/

/-- Sorting keeps the order of components with the same keys. -/
theorem filter_sortComponents (l : List Component) (k : Keys) :
    ((sortComponents l).filter fun c => c.getOrderKeys = k) =
      l.filter fun c => c.getOrderKeys = k := by
  have hinsert : ∀ (c : Component) (l : List Component),
      ((l.orderedInsert (fun a b => a.getOrderKeys ≤ b.getOrderKeys) c).filter fun c =>
        c.getOrderKeys = k) = (c :: l).filter fun c => c.getOrderKeys = k := by
    intro c l
    induction l with
    | nil => rfl
    | cons b l ih =>
      rw [List.orderedInsert_cons]
      by_cases hle : c.getOrderKeys ≤ b.getOrderKeys
      · rw [if_pos hle]
      · rw [if_neg hle, List.filter_cons, ih]
        by_cases hb : b.getOrderKeys = k
        · have hc : c.getOrderKeys ≠ k := fun hc => hle (by rw [hb, hc])
          simp [hb, hc]
        · simp [List.filter_cons, hb]
  induction l with
  | nil => rfl
  | cons c l ih =>
    rw [sortComponents, List.insertionSort_cons, hinsert, List.filter_cons, List.filter_cons]
    rw [← ih]
    rfl

theorem level_sortComponents (l : List Component) : level (sortComponents l) = level l := by
  funext k
  rw [level, filter_sortComponents, level]

theorem level_append (l l' : List Component) (k : Keys) :
    level (l ++ l') k = overlay (level l' k) (level l k) := by
  rw [level, List.filter_append, stack_append]
  rfl

theorem level_of_forall {l : List Component} {k : Keys} (h : ∀ c ∈ l, c.getOrderKeys = k) :
    level l k = stack Component.get l := by
  rw [level, List.filter_eq_self.2 fun c hc => decide_eq_true (h c hc)]

theorem level_of_not {l : List Component} {k : Keys} (h : ∀ c ∈ l, c.getOrderKeys ≠ k) :
    level l k = nothing := by
  rw [level, List.filter_eq_nil_iff.2 fun c hc => by simp [h c hc]]
  rfl

/-! ## The loop -/

/-- An ordered list falls into what is below some keys, their level, and what is above. -/
theorem exists_split {l : List Component} (hl : Ordered l) (k : Keys) :
    ∃ l₁ l₂ l₃, l = l₁ ++ (l₂ ++ l₃) ∧ (∀ c ∈ l₁, c.getOrderKeys < k) ∧
      (∀ c ∈ l₂, c.getOrderKeys = k) ∧ ∀ c ∈ l₃, k < c.getOrderKeys := by
  induction l with
  | nil => exact ⟨[], [], [], rfl, nofun, nofun, nofun⟩
  | cons c l ih =>
    obtain ⟨hc, hl⟩ := List.pairwise_cons.1 hl
    obtain ⟨l₁, l₂, l₃, rfl, h₁, h₂, h₃⟩ := ih hl
    rcases lt_trichotomy c.getOrderKeys k with hlt | heq | hgt
    · exact ⟨c :: l₁, l₂, l₃, rfl, List.forall_mem_cons.2 ⟨hlt, h₁⟩, h₂, h₃⟩
    · have hnil : l₁ = [] := List.eq_nil_iff_forall_not_mem.2 fun b hb =>
        absurd (h₁ b hb) (not_lt_of_ge (heq ▸ hc b (List.mem_append_left _ hb)))
      rw [hnil]
      exact ⟨[], c :: l₂, l₃, rfl, nofun, List.forall_mem_cons.2 ⟨heq, h₂⟩, h₃⟩
    · have hall : ∀ b ∈ l₁ ++ (l₂ ++ l₃), k < b.getOrderKeys := fun b hb =>
        lt_of_lt_of_le hgt (hc b hb)
      exact ⟨[], [], c :: (l₁ ++ (l₂ ++ l₃)), rfl, nofun, nofun, List.forall_mem_cons.2 ⟨hgt, hall⟩⟩

theorem get_adjustComponent (previous : List Component) (c : Component) :
    (adjustComponent previous c).get =
      minus c.get (stack Component.get (previous.filter c.checkInheritable)) := by
  rw [adjustComponent, get_subtract]
  refine congrArg (minus c.get) ?_
  exact (get_foldl_inheritFrom c previous _).trans (overlay_nothing _)

/-- The components of a level are thinned out one after the other.  Over what they inherit they say
    the same as before; of a package nothing is left if each of them says what is inherited. -/
theorem loop_level_later {k : Keys} {t : Component} (ht : t.getOrderKeys = k)
    {l : List Component} (hl : ∀ c ∈ l, c.getOrderKeys = k) (previous : List Component) :
    ∃ later, previousLoop adjustComponent previous l = previous ++ later ∧
      overlay (stack Component.get later)
          (stack Component.get (previous.filter t.checkInheritable)) =
        overlay (stack Component.get l)
          (stack Component.get (previous.filter t.checkInheritable)) ∧
      ∀ p, stack Component.get later p = none ↔ ∀ c ∈ l, c.get p = none ∨
        c.get p = stack Component.get (previous.filter t.checkInheritable) p := by
  induction l generalizing previous with
  | nil => exact ⟨[], (List.append_nil _).symm, rfl, fun p => iff_of_true rfl nofun⟩
  | cons c l ih =>
    obtain ⟨hc, hl⟩ := List.forall_mem_cons.1 hl
    have hsame : c.checkInheritable = t.checkInheritable := by
      funext b
      rw [Bool.eq_iff_iff, checkInheritable_iff, checkInheritable_iff, hc, ht]
    have hself : t.checkInheritable (adjustComponent previous c) = true := by
      rw [checkInheritable_iff, getOrderKeys_adjustComponent, hc, ht]
      exact ⟨rfl, .inr rfl, .inr rfl⟩
    have hget := get_adjustComponent previous c
    obtain ⟨later, hloop, hover, hnone⟩ := ih hl (previous ++ [adjustComponent previous c])
    rw [List.filter_append, List.filter_cons_of_pos hself, List.filter_nil,
      stack_append_singleton] at hover hnone
    rw [hsame] at hget
    generalize stack Component.get (previous.filter t.checkInheritable) = inherited at *
    refine ⟨adjustComponent previous c :: later, ?_, ?_, fun p => ?_⟩
    · rw [previousLoop, hloop, List.append_assoc]
      rfl
    · rw [stack_cons, overlay_assoc, hover, hget, overlay_minus, stack_cons, overlay_assoc]
    · rw [stack_cons, overlay, Option.or_eq_none_iff, hnone, List.forall_mem_cons, and_comm, hget,
        overlay, minus]
      by_cases heq : c.get p = inherited p
      · simp [heq]
      · by_cases hc : c.get p = none
        · simp [hc]
        · simp [heq, hc]

theorem ordered_iff (l : List Component) : Ordered l ↔ (keysOf l).Pairwise (· ≤ ·) :=
  List.pairwise_map.symm

theorem keysOf_loop (l : List Component) : keysOf (previousLoop adjustComponent [] l) = keysOf l :=
  keysOf_previousLoop getOrderKeys_adjustComponent [] l

theorem ordered_loop {l : List Component} (hl : Ordered l) :
    Ordered (previousLoop adjustComponent [] l) := by
  rw [ordered_iff, keysOf_loop, ← ordered_iff]
  exact hl

theorem loop_later (previous l : List Component) :
    ∃ later, previousLoop adjustComponent previous l = previous ++ later ∧
      keysOf later = keysOf l := by
  obtain ⟨later, hlater⟩ := previousLoop_keeps (f := adjustComponent) previous l
  refine ⟨later, hlater, (List.append_right_inj (keysOf previous)).1 ?_⟩
  rw [← keysOf_append, ← hlater, keysOf_previousLoop getOrderKeys_adjustComponent]

theorem exists_of_keysOf {l l' : List Component} (hkeys : keysOf l = keysOf l') {c : Component}
    (hc : c ∈ l) : ∃ b ∈ l', b.getOrderKeys = c.getOrderKeys :=
  List.mem_map.1 (show c.getOrderKeys ∈ keysOf l' from hkeys ▸ List.mem_map_of_mem hc)

/-- Components that come later do not change a level that they are not at. -/
theorem level_append_of_keys {l l' l'' : List Component} (hkeys : keysOf l' = keysOf l'') {k : Keys}
    (h : ∀ c ∈ l'', c.getOrderKeys ≠ k) : level (l ++ l') k = level l k := by
  rw [level_append, level_of_not, nothing_overlay]
  intro c hc heq
  obtain ⟨b, hb, hkey⟩ := exists_of_keysOf hkeys hc
  exact h b hb (hkey.trans heq)

/-- What the loop leaves of a level. -/
theorem loop_level {l : List Component} (hl : Ordered l) (k : Keys) :
    overlay (level (previousLoop adjustComponent [] l) k)
        (stack (level (previousLoop adjustComponent [] l)) (Keys.base k)) =
      overlay (level l k) (stack (level (previousLoop adjustComponent [] l)) (Keys.base k)) ∧
    ∀ p, level (previousLoop adjustComponent [] l) k p = none ↔
      ∀ c ∈ l, c.getOrderKeys = k → c.get p = none ∨
        c.get p = stack (level (previousLoop adjustComponent [] l)) (Keys.base k) p := by
  obtain ⟨l₁, l₂, l₃, rfl, h₁, h₂, h₃⟩ := exists_split hl k
  obtain ⟨later₃, hloop, hkeys₃⟩ := loop_later (previousLoop adjustComponent [] (l₁ ++ l₂)) l₃
  rw [← previousLoop_append, List.append_assoc] at hloop
  obtain ⟨later₂, hloop₂, hkeys₂⟩ := loop_later (previousLoop adjustComponent [] l₁) l₂
  rw [← previousLoop_append] at hloop₂
  -- what stands above does not count, and what is at the level does not count below
  have hupto : ∀ j ≤ k, level (previousLoop adjustComponent [] (l₁ ++ (l₂ ++ l₃))) j =
      level (previousLoop adjustComponent [] (l₁ ++ l₂)) j := by
    intro j hj
    rw [hloop]
    exact level_append_of_keys hkeys₃ fun c hc => ne_of_gt (lt_of_le_of_lt hj (h₃ c hc))
  have hbelow : ∀ j < k, level (previousLoop adjustComponent [] (l₁ ++ l₂)) j =
      level (previousLoop adjustComponent [] l₁) j := by
    intro j hj
    rw [hloop₂]
    exact level_append_of_keys hkeys₂ fun c hc => ne_of_gt (hj.trans_eq (h₂ c hc).symm)
  have hlevel : level (l₁ ++ (l₂ ++ l₃)) k = stack Component.get l₂ := by
    rw [level_append, level_append, level_of_not fun c hc => ne_of_gt (h₃ c hc), nothing_overlay,
      level_of_not fun c hc => ne_of_lt (h₁ c hc), overlay_nothing, level_of_forall h₂]
  have hnone : level (previousLoop adjustComponent [] l₁) k = nothing := by
    refine level_of_not fun c hc heq => ?_
    obtain ⟨b, hb, hkey⟩ := exists_of_keysOf (keysOf_loop l₁) hc
    exact ne_of_lt (h₁ b hb) (hkey.trans heq)
  have hafter : level (previousLoop adjustComponent [] (l₁ ++ (l₂ ++ l₃))) k =
      stack Component.get later₂ := by
    rw [hupto k le_rfl, hloop₂, level_append, hnone, overlay_nothing, level_of_forall]
    intro c hc
    obtain ⟨b, hb, hkey⟩ := exists_of_keysOf hkeys₂ hc
    exact hkey.symm.trans (h₂ b hb)
  have hbase : stack (level (previousLoop adjustComponent [] (l₁ ++ (l₂ ++ l₃)))) (Keys.base k) =
      stack (level (previousLoop adjustComponent [] l₁)) (Keys.base k) :=
    stack_congr fun j hj =>
      have hlt := Keys.lt_of_mem_base hj
      (hupto j (le_of_lt hlt)).trans (hbelow j hlt)
  have hmem (c : Component) : c ∈ l₁ ++ (l₂ ++ l₃) ∧ c.getOrderKeys = k ↔ c ∈ l₂ := by
    constructor
    · rintro ⟨hc, hkey⟩
      rcases List.mem_append.1 hc with hc | hc
      · exact absurd hkey (ne_of_lt (h₁ c hc))
      · exact (List.mem_append.1 hc).resolve_right fun hc => ne_of_gt (h₃ c hc) hkey
    · exact fun hc => ⟨List.mem_append_right _ (List.mem_append_left _ hc), h₂ c hc⟩
  rw [hafter, hlevel]
  simp only [← and_imp, hmem]
  cases hcases : l₂ with
  | nil =>
    rw [hcases] at hkeys₂
    obtain rfl := List.map_eq_nil_iff.1 hkeys₂
    exact ⟨rfl, fun p => iff_of_true rfl nofun⟩
  | cons t rest =>
    rw [← hcases]
    have ht : t.getOrderKeys = k := h₂ t (hcases ▸ List.mem_cons_self)
    have hinherited : stack Component.get
        ((previousLoop adjustComponent [] l₁).filter t.checkInheritable) =
          stack (level (previousLoop adjustComponent [] (l₁ ++ (l₂ ++ l₃)))) (Keys.base k) := by
      rw [stack_checkInheritable (ordered_loop (List.pairwise_append.1 hl).1), ht,
        stack_append_singleton, hnone, nothing_overlay, hbase]
    obtain ⟨later, hlater, hover, hdrop⟩ :=
      loop_level_later ht h₂ (previousLoop adjustComponent [] l₁)
    rw [← previousLoop_append, hloop₂] at hlater
    obtain rfl := List.append_cancel_left hlater
    rw [hinherited] at hover hdrop
    exact ⟨hover, hdrop⟩

theorem loop_retained {l : List Component} (hl : Ordered l) :
    Retained Keys.base (level l) (level (previousLoop adjustComponent [] l)) := by
  refine ⟨fun k => (loop_level hl k).1, fun k p hp => ((loop_level hl k).2 p).2 fun c hc hkey => ?_⟩
  rw [level, stack_eq_none_iff] at hp
  exact Or.inl (hp c (List.mem_filter.2 ⟨hc, decide_eq_true hkey⟩))

/-! ## What a build gets -/

theorem level_filter_versions (l : List Component) :
    level (l.filter fun c => c.versions ≠ []) = level l := by
  funext k
  rw [level, List.filter_comm]
  refine stack_filter fun c _ hc => (versions_eq_nil_iff c).1 ?_
  simpa using hc

theorem adjustFor_retained (l : List Component) :
    Retained Keys.base (level l) (level (adjustComponentsForCtype l)) := by
  rw [adjustComponentsForCtype, level_filter_versions, ← level_sortComponents l]
  exact loop_retained (sortComponents_ordered l)

/-- A package is dropped from a level if each component says what is inherited. -/
theorem adjustFor_none_iff (l : List Component) (k : Keys) (p : String) :
    level (adjustComponentsForCtype l) k p = none ↔ ∀ c ∈ l, c.getOrderKeys = k →
      c.get p = none ∨ c.get p = stack (level (adjustComponentsForCtype l)) (Keys.base k) p := by
  have hmem : ∀ c, c ∈ sortComponents l ↔ c ∈ l := fun c =>
    (List.perm_insertionSort _ l).mem_iff
  rw [adjustComponentsForCtype, level_filter_versions]
  simpa only [hmem] using (loop_level (sortComponents_ordered l) k).2 p

/-- The versions of a family of components for a distribution and an architecture. -/
def resolve (l : List Component) (dist arch : String) : String → Option String :=
  ((getConfigForCtype l dist arch).map Component.get).getD nothing

theorem resolve_eq {l : List Component} {t : String} (hl : ∀ c ∈ l, c.ctype = t)
    (dist arch : String) :
    resolve l dist arch = stack (level l) (Keys.base (Component.new [] t dist arch).getOrderKeys ++
      [(Component.new [] t dist arch).getOrderKeys]) := by
  cases hcases : l with
  | nil => exact (stack_nothing _).symm
  | cons first rest =>
    have hfirst : first.ctype = t := hl first (hcases ▸ List.mem_cons_self)
    rw [resolve, getConfigForCtype_cons hfirst, Option.map_some, Option.getD_some,
      foldl_configFrom, get_foldl_inheritFrom, ← hcases,
      stack_checkInheritable (sortComponents_ordered l), level_sortComponents]
    exact overlay_nothing _

/-- What the components of a distribution and an architecture say together. -/
def versionsAt (l : List Component) (dist arch : String) : String → Option String :=
  stack Component.get (l.filter fun c => c.dist = dist ∧ c.arch = arch)

/-- No package that is not given for both is given for the distribution only as for all
    distributions and architectures, and for the architecture in another version. -/
def Clear (l : List Component) (dist arch : String) : Prop :=
  ∀ p v w, versionsAt l dist arch p = none → versionsAt l dist allArch p = some v →
    (∀ c ∈ l, c.dist = dist → c.arch = allArch → c.get p = none ∨ c.get p = some v) →
    versionsAt l allDist allArch p = some v → versionsAt l allDist arch p = some w → w = v

theorem versionsAt_empty (l : List Component) {dist arch : String} (h : dist = "" ∨ arch = "") :
    versionsAt l dist arch = nothing := by
  rw [versionsAt, List.filter_eq_nil_iff.2]
  · rfl
  · intro c _
    simp only [decide_eq_true_eq]
    rintro ⟨rfl, rfl⟩
    exact h.elim c.dist_ne c.arch_ne

/-- With all distributions or all architectures there is no such package. -/
theorem clear_of_all {l : List Component} {dist arch : String}
    (h : (dist = "" ∨ dist = allDist) ∨ (arch = "" ∨ arch = allArch)) : Clear l dist arch := by
  intro p v w hboth hdist _ _ harch
  rcases h with (rfl | rfl) | (rfl | rfl)
  · rw [versionsAt_empty l (.inl rfl)] at hdist
    cases hdist
  · rw [hboth] at harch
    cases harch
  · rw [versionsAt_empty l (.inr rfl)] at harch
    cases harch
  · rw [hboth] at hdist
    cases hdist

theorem getOrderKeys_eq_new {c : Component} {t dist arch : String} (hdist : dist ≠ "")
    (harch : arch ≠ "") (hc : c.ctype = t) :
    c.getOrderKeys = (Component.new [] t dist arch).getOrderKeys ↔
      c.dist = dist ∧ c.arch = arch := by
  rw [getOrderKeys_inj]
  simp [Component.new, hdist, harch, hc]

theorem level_new {l : List Component} {t dist arch : String} (hl : ∀ c ∈ l, c.ctype = t)
    (hdist : dist ≠ "") (harch : arch ≠ "") :
    level l (Component.new [] t dist arch).getOrderKeys = versionsAt l dist arch := by
  exact congrArg _ (List.filter_congr fun c hc =>
    decide_eq_decide.2 (getOrderKeys_eq_new hdist harch (hl c hc)))

theorem getOrderKeys_new {t dist arch : String} (hdist : dist ≠ "") (harch : arch ≠ "") :
    (Component.new [] t dist arch).getOrderKeys =
      Keys.mk t (if dist = allDist then "" else dist) (if arch = allArch then "" else arch) := by
  rw [← Keys.mk_eta (Component.new [] t dist arch).getOrderKeys, dist_getOrderKeys,
    arch_getOrderKeys, ctype_getOrderKeys]
  simp [Component.new, hdist, harch]

/-- With all distributions or all architectures there is one chain of levels. -/
theorem stack_retained_chain {e A : Keys → String → Option String} (h : Retained Keys.base e A)
    {k : Keys} (hk : Keys.dist k = "" ∨ Keys.arch k = "") :
    stack A (Keys.base k ++ [k]) = stack e (Keys.base k ++ [k]) := by
  refine h.chain (stack_congr fun j hj => h.bottom ?_)
  have hj' : j = Keys.mk (Keys.ctype k) "" "" := by
    by_cases hand : Keys.dist k = "" ∧ Keys.arch k = ""
    · rw [Keys.base, if_pos hand] at hj
      exact absurd hj List.not_mem_nil
    · rw [Keys.base, if_neg hand, if_pos hk] at hj
      exact List.mem_singleton.1 hj
  rw [hj']
  exact if_pos ⟨rfl, rfl⟩

/-- For a distribution and an architecture there are two ways to inherit from the level of all. -/
theorem stack_diamond_iff {l : List Component} {t dist arch : String} (hdist : dist ≠ "")
    (harch : arch ≠ "") (p : String) :
    stack (level (adjustComponentsForCtype l))
          (Keys.base (Keys.mk t dist arch) ++ [Keys.mk t dist arch]) p =
        stack (level l) (Keys.base (Keys.mk t dist arch) ++ [Keys.mk t dist arch]) p ↔
      ∀ v w, level l (Keys.mk t dist arch) p = none → level l (Keys.mk t dist "") p = some v →
        (∀ c ∈ l, c.getOrderKeys = Keys.mk t dist "" → c.get p = none ∨ c.get p = some v) →
        level l (Keys.mk t "" "") p = some v → level l (Keys.mk t "" arch) p = some w →
          w = v := by
  have h := adjustFor_retained l
  have hone : ∀ d a : String, (d = "" ∨ a = "") → ¬(d = "" ∧ a = "") →
      Keys.base (Keys.mk t d a) = [Keys.mk t "" ""] :=
    fun d a hor hand => (if_neg hand).trans (if_pos hor)
  have hboth : Keys.base (Keys.mk t dist arch) =
      [Keys.mk t "" "", Keys.mk t "" arch, Keys.mk t dist ""] :=
    (if_neg fun hand => hdist hand.1).trans (if_neg fun hor => hor.elim hdist harch)
  have hall : Keys.base (Keys.mk t "" "") = [] := if_pos ⟨rfl, rfl⟩
  have hc := hone dist "" (.inr rfl) fun hand => hdist hand.1
  have hdrop := adjustFor_none_iff l (Keys.mk t dist "") p
  rw [hc, stack_singleton, h.bottom hall] at hdrop
  rw [h.diamond_iff hall (hone "" arch (.inl rfl) fun hand => harch hand.2) hc hboth]
  refine forall₂_congr fun v w => imp_congr_right fun _ => ⟨?_, ?_⟩
  · intro hclear hv hsame hallv
    exact hclear (hdrop.2 (by rwa [hallv])) hv
  · intro hclear hnone hv
    have hallv := h.dropped hall hc hnone hv
    rw [hallv] at hdrop
    exact hclear hv (hdrop.1 hnone) hallv

/-- `adjust` keeps the versions for a distribution and an architecture just where it is clear. -/
theorem adjust_resolves_iff (m : VersionModule) (t dist arch : String) :
    resolve (m.adjust.getComponentsByCtype t) dist arch =
        resolve (m.getComponentsByCtype t) dist arch ↔
      Clear (m.getComponentsByCtype t) dist arch := by
  have hl : ∀ c ∈ m.getComponentsByCtype t, c.ctype = t := fun c hc => ctype_of_mem_ofCtype hc
  have hadjust : m.adjust.getComponentsByCtype t =
      adjustComponentsForCtype (m.getComponentsByCtype t) := ofCtype_adjust m t
  have hl' : ∀ c ∈ adjustComponentsForCtype (m.getComponentsByCtype t), c.ctype = t := by
    rw [← hadjust]
    exact fun c hc => ctype_of_mem_ofCtype hc
  rw [hadjust, resolve_eq hl', resolve_eq hl]
  generalize m.getComponentsByCtype t = l at hl
  by_cases hall : Keys.dist (Component.new [] t dist arch).getOrderKeys = "" ∨
      Keys.arch (Component.new [] t dist arch).getOrderKeys = ""
  · refine iff_of_true (stack_retained_chain (adjustFor_retained l) hall) (clear_of_all ?_)
    rw [dist_getOrderKeys, arch_getOrderKeys] at hall
    refine hall.imp (fun h => ?_) fun h => ?_
    · by_contra hnot
      rw [not_or] at hnot
      simp [Component.new, hnot.1, hnot.2] at h
    · by_contra hnot
      rw [not_or] at hnot
      simp [Component.new, hnot.1, hnot.2] at h
  · -- both are given, and neither is 'all'
    rw [not_or, dist_getOrderKeys, arch_getOrderKeys] at hall
    obtain ⟨hdist, hdist'⟩ : dist ≠ "" ∧ dist ≠ allDist := by
      constructor
      · rintro rfl
        exact hall.1 (if_pos rfl)
      · rintro rfl
        exact hall.1 (if_pos rfl)
    obtain ⟨harch, harch'⟩ : arch ≠ "" ∧ arch ≠ allArch := by
      constructor
      · rintro rfl
        exact hall.2 (if_pos rfl)
      · rintro rfl
        exact hall.2 (if_pos rfl)
    have hd : allDist ≠ "" := by decide
    have ha : allArch ≠ "" := by decide
    have hboth := level_new hl hdist harch
    have hdistAll := level_new hl hdist ha
    have hallArch := level_new hl hd harch
    have hallAll := level_new hl hd ha
    have hkeys (c : Component) (hc : c ∈ l) := getOrderKeys_eq_new hdist ha (hl c hc)
    rw [getOrderKeys_new hdist harch, if_neg hdist', if_neg harch'] at hboth ⊢
    rw [getOrderKeys_new hdist ha, if_neg hdist', if_pos rfl] at hdistAll hkeys
    rw [getOrderKeys_new hd harch, if_pos rfl, if_neg harch'] at hallArch
    rw [getOrderKeys_new hd ha, if_pos rfl, if_pos rfl] at hallAll
    rw [funext_iff, Clear]
    refine forall_congr' fun p => ?_
    rw [stack_diamond_iff hdist harch p, hboth, hdistAll, hallAll, hallArch]
    refine forall₂_congr fun v w => imp_congr_right fun _ => imp_congr_right fun _ => ?_
    refine imp_congr_left (forall₂_congr fun c hc => ?_)
    rw [hkeys c hc, and_imp]

/-! ## A version that is repeated -/

/-- Versions for all, for an architecture and for a distribution, which repeats one of the first. -/
def debs (package version : String) : VersionModule :=
  ⟨"docker-base", [Component.new [("libc6", "2.31"), ("zlib1g", "1.2.11")] "deb" "" "",
    Component.new [("libc6", "2.28")] "deb" "" "armhf",
    Component.new [(package, version)] "deb" "buster" ""]⟩

/-- The distribution repeats the version for all, and the architecture has another one. -/
theorem repeated_version_lost :
    resolve ((debs "libc6" "2.31").getComponentsByCtype "deb") "buster" "armhf" "libc6" =
        some "2.31" ∧
      resolve ((debs "libc6" "2.31").adjust.getComponentsByCtype "deb") "buster" "armhf" "libc6" =
        some "2.28" := by
  decide +kernel

end SonicBuildimage.Versions
