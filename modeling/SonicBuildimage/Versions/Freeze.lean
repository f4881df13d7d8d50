/-
  Freezing versions loses nothing.

  `freeze` writes for each module only what `VersionModule.subtract` leaves of it, and a build
  puts it together again with the default versions (`_get_config_module`).

  Proved:
  * `adjust_reduced`: `adjust` leaves at each level what is not inherited.
  * `overwrite_reduced`: so does `overwrite`, for the module laid over the other one.
  * `ver_subtract`: `subtract` takes away from a level what the default versions at this level
    and the levels below, as they will be in the end, say.
  * `freeze_lossless`: every distribution and every architecture gets the same versions from
    what is left as from the whole module.

  The proof of the last one is about all levels at once: the reduced families are the same, not
  only the versions for one distribution and architecture (`Reduced.eq_of_minus`).
-/
import SonicBuildimage.Versions.Levels

namespace SonicBuildimage.Versions

open SonicBuildimage.Lib Component VersionModule

/-! ## Loops that look back -/

section Loop

variable {f : List Component → Component → Component}

theorem previousLoop_append (previous l l' : List Component) :
    previousLoop f previous (l ++ l') = previousLoop f (previousLoop f previous l) l' := by
  induction l generalizing previous with
  | nil => rfl
  | cons c l ih => exact ih (previous ++ [f previous c])

theorem previousLoop_keeps (previous l : List Component) :
    ∃ later, previousLoop f previous l = previous ++ later := by
  induction l generalizing previous with
  | nil => exact ⟨[], (List.append_nil previous).symm⟩
  | cons c l ih =>
    obtain ⟨later, hlater⟩ := ih (previous ++ [f previous c])
    exact ⟨f previous c :: later, by rw [previousLoop, hlater, List.append_assoc]; rfl⟩

theorem keysOf_append (l l' : List Component) : keysOf (l ++ l') = keysOf l ++ keysOf l' :=
  List.map_append

theorem keysOf_previousLoop (hf : ∀ previous c, (f previous c).getOrderKeys = c.getOrderKeys)
    (previous l : List Component) :
    keysOf (previousLoop f previous l) = keysOf previous ++ keysOf l := by
  induction l generalizing previous with
  | nil => exact (List.append_nil _).symm
  | cons c l ih =>
    rw [previousLoop, ih, keysOf_append, List.append_assoc]
    change keysOf previous ++ ([(f previous c).getOrderKeys] ++ keysOf l) = _
    rw [hf]
    rfl

theorem ctype_of_mem_loop (hf : ∀ previous c, (f previous c).getOrderKeys = c.getOrderKeys)
    {t : String} {l : List Component} (hl : ∀ c ∈ l, c.ctype = t) {c : Component}
    (hc : c ∈ previousLoop f [] (sortComponents l)) : c.ctype = t := by
  have hmem : c.getOrderKeys ∈ keysOf (previousLoop f [] (sortComponents l)) :=
    List.mem_map_of_mem hc
  rw [keysOf_previousLoop hf] at hmem
  obtain ⟨b, hb, hkey⟩ := List.mem_map.1 (show c.getOrderKeys ∈ keysOf (sortComponents l) from hmem)
  rw [← hl b ((sortComponents_perm l).mem_iff.1 hb)]
  exact (congrArg Keys.ctype hkey).symm

theorem loop_nodup (hf : ∀ previous c, (f previous c).getOrderKeys = c.getOrderKeys)
    {l : List Component} (hn : (keysOf l).Nodup) :
    (keysOf (previousLoop f [] (sortComponents l))).Nodup := by
  rw [keysOf_previousLoop hf]
  exact nodup_of_sorted (sortComponents_sorted hn)

/-- A component of the list is changed in view of those with smaller keys, and these are not
    changed any more. -/
theorem ver_previousLoop (hf : ∀ previous c, (f previous c).getOrderKeys = c.getOrderKeys)
    {l : List Component} (hs : (keysOf l).Pairwise (· < ·)) {c : Component} (hc : c ∈ l) :
    ∃ previous, ver (previousLoop f [] l) c.getOrderKeys = (f previous c).get ∧
      (keysOf previous).Pairwise (· < ·) ∧ ver previous c.getOrderKeys = nothing ∧
      ∀ j < c.getOrderKeys, ver previous j = ver (previousLoop f [] l) j := by
  obtain ⟨l₁, l₂, rfl⟩ := List.append_of_mem hc
  obtain ⟨later, hlater⟩ :=
    previousLoop_keeps (f := f) (previousLoop f [] l₁ ++ [f (previousLoop f [] l₁) c]) l₂
  have hloop : previousLoop f [] (l₁ ++ c :: l₂) =
      previousLoop f [] l₁ ++ f (previousLoop f [] l₁) c :: later := by
    rw [previousLoop_append, previousLoop, hlater, List.append_assoc]
    rfl
  have hkeys := keysOf_previousLoop hf [] (l₁ ++ c :: l₂)
  rw [hloop] at hkeys
  generalize previousLoop f [] l₁ = previous at hloop hkeys
  have hkeys' : keysOf (l₁ ++ c :: l₂) = keysOf previous ++ c.getOrderKeys :: keysOf later := by
    rw [keysOf_append] at hkeys
    change keysOf previous ++ (f previous c).getOrderKeys :: keysOf later = _ at hkeys
    rw [hf] at hkeys
    exact hkeys.symm
  rw [hkeys'] at hs
  obtain ⟨hprev, hrest, hlt⟩ := List.pairwise_append.1 hs
  obtain ⟨hlt', -⟩ := List.pairwise_cons.1 hrest
  have hnot : c.getOrderKeys ∉ keysOf previous := fun hmem =>
    lt_irrefl _ (hlt _ hmem _ List.mem_cons_self)
  refine ⟨previous, ?_, hprev, ver_of_not_mem hnot, fun j hj => ?_⟩
  · rw [hloop, ver_append, if_neg hnot, ver_cons, if_pos (hf previous c)]
  · rw [hloop, ver_append]
    split
    · rfl
    · next hjp =>
      have hj' : j ∉ keysOf later := fun hmem => lt_asymm hj (hlt' j hmem)
      have hne : (f previous c).getOrderKeys ≠ j := by
        rw [hf]
        exact ne_of_gt hj
      rw [ver_cons, if_neg hne, ver_of_not_mem hj', ver_of_not_mem hjp]

end Loop

/-! ## Adjusting -/

theorem getOrderKeys_adjustComponent (previous : List Component) (c : Component) :
    (adjustComponent previous c).getOrderKeys = c.getOrderKeys := rfl

theorem adjustFor_nodup {l : List Component} (hn : (keysOf l).Nodup) :
    (keysOf (adjustComponentsForCtype l)).Nodup :=
  (loop_nodup getOrderKeys_adjustComponent hn).sublist (List.filter_sublist.map _)

theorem adjustFor_reduced {l : List Component} (hn : (keysOf l).Nodup) :
    Reduced Keys.base (ver l) (ver (adjustComponentsForCtype l)) := by
  have hs := sortComponents_sorted hn
  have hperm := sortComponents_perm l
  have hkeys := keysOf_previousLoop getOrderKeys_adjustComponent [] (sortComponents l)
  have hver : ver (adjustComponentsForCtype l) =
      ver (previousLoop adjustComponent [] (sortComponents l)) :=
    ver_filter_versions (loop_nodup getOrderKeys_adjustComponent hn)
  rw [hver]
  intro k
  by_cases hk : k ∈ keysOf (sortComponents l)
  · obtain ⟨c, hc, rfl⟩ := List.mem_map.1 hk
    obtain ⟨previous, hself, hsorted, hnone, hbelow⟩ :=
      ver_previousLoop getOrderKeys_adjustComponent hs hc
    have hlevels : stack (ver previous) (Keys.base c.getOrderKeys) =
        stack (ver (previousLoop adjustComponent [] (sortComponents l)))
          (Keys.base c.getOrderKeys) :=
      stack_congr fun j hj => hbelow j (Keys.lt_of_mem_base hj)
    have hinherit := get_foldl_inheritFrom c previous (Component.new [] c.ctype allDist allArch)
    rw [stack_inheritable hsorted, hnone, nothing_overlay, hlevels] at hinherit
    rw [hself, adjustComponent, get_subtract, ver_of_mem hn (hperm.mem_iff.1 hc)]
    exact congrArg (minus c.get) (hinherit.trans (overlay_nothing _))
  · have hk' : k ∉ keysOf l := fun h => hk ((hperm.map _).mem_iff.2 h)
    rw [ver_of_not_mem hk', ver_of_not_mem (by rw [hkeys]; exact hk), nothing_minus]

theorem ofCtype_adjust (m : VersionModule) (t : String) :
    ofCtype m.adjust.components t = adjustComponentsForCtype (ofCtype m.components t) :=
  (grouped_perCtypes m).filter_groups (fun _ => rfl) (fun _ _ hl _ hc =>
    ctype_of_mem_loop getOrderKeys_adjustComponent hl (List.mem_of_mem_filter hc)) t

/-- `adjust` leaves what is not inherited. -/
theorem adjust_reduced {m : VersionModule} (hn : (keysOf m.components).Nodup) :
    Reduced Keys.base (ver m.components) (ver m.adjust.components) := by
  have hlevel : ∀ j, ver m.adjust.components j =
      ver (adjustComponentsForCtype (ofCtype m.components (Keys.ctype j))) j := by
    intro j
    rw [← ver_ofCtype m.adjust.components j, ofCtype_adjust]
  intro k
  have hbelow : stack (ver (adjustComponentsForCtype (ofCtype m.components (Keys.ctype k))))
      (Keys.base k) = stack (ver m.adjust.components) (Keys.base k) := by
    refine stack_congr fun j hj => ?_
    rw [hlevel j, (Keys.mem_base_iff.1 hj).1.1]
  rw [hlevel k, adjustFor_reduced (keysOf_ofCtype_nodup hn _) k, ver_ofCtype, hbelow]

theorem ofCtype_adjust_nodup {m : VersionModule} (hn : (keysOf m.components).Nodup) (t : String) :
    (keysOf (ofCtype m.adjust.components t)).Nodup := by
  rw [ofCtype_adjust]
  exact adjustFor_nodup (keysOf_ofCtype_nodup hn t)

/-- A type has components left exactly if it has versions left. -/
theorem ofCtype_adjust_eq_nil_iff {m : VersionModule} (hn : (keysOf m.components).Nodup)
    (t : String) : ofCtype m.adjust.components t = [] ↔
      ∀ k, Keys.ctype k = t → ver m.adjust.components k = nothing := by
  constructor
  · rintro hnil k rfl
    rw [← ver_ofCtype, hnil]
    rfl
  · intro hall
    refine List.eq_nil_iff_forall_not_mem.2 fun c hc => ?_
    have hctype : Keys.ctype c.getOrderKeys = t := ctype_of_mem_ofCtype hc
    have hget : c.get = nothing := by
      rw [← ver_of_mem (ofCtype_adjust_nodup hn t) hc, ← hctype, ver_ofCtype]
      exact hall _ hctype
    rw [ofCtype_adjust] at hc
    exact of_decide_eq_true (List.mem_filter.1 hc).2 ((versions_eq_nil_iff c).2 hget)

/-! ## Overwriting -/

section Overwrite

variable {l : List Component} {m : Component}

theorem cleanInfo_none (m : Component) : m.cleanInfo false false false = m := by
  simp [cleanInfo]

theorem overwriteComponent_spec (hn : (keysOf l).Nodup) :
    (keysOf (overwriteComponent false false l m)).Nodup ∧
      ∀ k, ver (overwriteComponent false false l m) k =
        if k = m.getOrderKeys then overlay m.get (ver l k) else ver l k := by
  by_cases hm : m.getOrderKeys ∈ keysOf l
  · -- the component with these keys is merged
    obtain ⟨c, hc, hkey⟩ := List.mem_map.1 hm
    have hany : (l.any fun c => c.checkOverwritable m false false) = true :=
      List.any_eq_true.2 ⟨c, hc, checkOverwritable_iff.2 hkey⟩
    rw [overwriteComponent, if_pos hany]
    have hkeys : keysOf (l.map fun c => if c.checkOverwritable m false false then
        c.merge m.versions true else c) = keysOf l := by
      unfold keysOf
      rw [List.map_map]
      refine List.map_congr_left fun b _ => ?_
      dsimp only [Function.comp]
      split
      · rfl
      · rfl
    have hn' := hkeys ▸ hn
    refine ⟨hn', fun k => ?_⟩
    by_cases hk : k ∈ keysOf l
    · obtain ⟨b, hb, rfl⟩ := List.mem_map.1 hk
      have hver := ver_of_mem hn' (List.mem_map_of_mem hb)
      rw [ver_of_mem hn hb]
      by_cases hbm : b.getOrderKeys = m.getOrderKeys
      · rw [if_pos (checkOverwritable_iff.2 hbm), getOrderKeys_merge, get_merge] at hver
        rw [if_pos hbm]
        exact hver
      · rw [if_neg (fun h => hbm (checkOverwritable_iff.1 h))] at hver
        rw [if_neg hbm]
        exact hver
    · have hkm : k ≠ m.getOrderKeys := fun h => hk (h ▸ hm)
      rw [if_neg hkm, ver_of_not_mem hk, ver_of_not_mem (hkeys ▸ hk)]
  · -- there is none
    have hany : ¬ (l.any fun c => c.checkOverwritable m false false) = true := fun h => by
      obtain ⟨c, hc, hover⟩ := List.any_eq_true.1 h
      exact hm (checkOverwritable_iff.1 hover ▸ List.mem_map_of_mem hc)
    rw [overwriteComponent, if_neg hany, cleanInfo_none]
    refine ⟨?_, fun k => ?_⟩
    · rw [keysOf_append]
      exact List.nodup_append.2 ⟨hn, List.nodup_singleton _, fun a ha b hb hab =>
        hm ((List.mem_singleton.1 hb) ▸ hab ▸ ha)⟩
    · rw [ver_append, ver_cons]
      by_cases hk : k = m.getOrderKeys
      · subst hk
        rw [if_neg hm, if_pos rfl, if_pos rfl, ver_of_not_mem hm, overlay_nothing]
      · rw [if_neg hk, if_neg (Ne.symm hk)]
        split
        · rfl
        · next hkl =>
          rw [ver_of_not_mem hkl]
          rfl

theorem foldl_overwriteComponent_spec {ms : List Component} (hms : (keysOf ms).Nodup)
    (hn : (keysOf l).Nodup) :
    (keysOf (ms.foldl (overwriteComponent false false) l)).Nodup ∧
      ∀ k, ver (ms.foldl (overwriteComponent false false) l) k = overlay (ver ms k) (ver l k) := by
  induction ms generalizing l with
  | nil => exact ⟨hn, fun k => (nothing_overlay _).symm⟩
  | cons m ms ih =>
    obtain ⟨hm, hms'⟩ := List.nodup_cons.1 (show (m.getOrderKeys :: keysOf ms).Nodup from hms)
    obtain ⟨hn', hver⟩ := overwriteComponent_spec (m := m) hn
    obtain ⟨hn'', hver'⟩ := ih hms' hn'
    refine ⟨hn'', fun k => ?_⟩
    rw [List.foldl_cons, hver', hver, ver_cons]
    by_cases hk : k = m.getOrderKeys
    · rw [if_pos hk, if_pos hk.symm, hk, ver_of_not_mem hm, nothing_overlay]
    · rw [if_neg hk, if_neg (Ne.symm hk)]

end Overwrite

section Modules

variable {self module : VersionModule}

/-- The components of `self` with those of `module` merged, before they are adjusted. -/
theorem exists_overwrite (hs : (keysOf self.components).Nodup)
    (hm : (keysOf module.components).Nodup) :
    ∃ m : VersionModule, self.overwrite module false false = m.adjust ∧
      (keysOf m.components).Nodup ∧
      ver m.components = fun k => overlay (ver module.components k) (ver self.components k) := by
  have hperm := sortComponents_perm module.components
  obtain ⟨hn, hver⟩ := foldl_overwriteComponent_spec
    (nodup_of_sorted (sortComponents_sorted hm)) hs
  refine ⟨_, rfl, hn, funext fun k => ?_⟩
  rw [hver k, ver_perm hperm.symm hm]

/-- `overwrite` leaves of the module over the other one what is not inherited. -/
theorem overwrite_reduced (hs : (keysOf self.components).Nodup)
    (hm : (keysOf module.components).Nodup) :
    Reduced Keys.base (fun k => overlay (ver module.components k) (ver self.components k))
      (ver (self.overwrite module false false).components) := by
  obtain ⟨m, heq, hn, hver⟩ := exists_overwrite hs hm
  rw [heq, ← hver]
  exact adjust_reduced hn

/-! ## Resolving -/

theorem clone_all (m : VersionModule) : m.clone [] [] = m := by
  have hcomponents : (m.clone [] []).components = m.components :=
    List.filter_eq_self.2 fun _ _ => by simp
  cases m
  exact congrArg _ hcomponents

theorem ctype_foldl_inheritFrom (c : Component) (l : List Component) (init : Component) :
    (l.foldl (inheritFrom c) init).ctype = init.ctype := by
  induction l generalizing init with
  | nil => rfl
  | cons b l ih =>
    rw [List.foldl_cons, ih, inheritFrom]
    split
    · rfl
    · rfl

theorem ctype_getConfigForCtype {l : List Component} {t dist arch : String}
    (hl : ∀ c ∈ l, c.ctype = t) {config : Component}
    (h : getConfigForCtype l dist arch = some config) : config.ctype = t := by
  cases l with
  | nil => exact absurd h (by simp [getConfigForCtype])
  | cons first rest =>
    obtain rfl := Option.some.inj h
    dsimp only
    rw [foldl_configFrom, ctype_foldl_inheritFrom]
    exact hl first List.mem_cons_self

theorem getConfigForCtype_cons {first : Component} {rest : List Component} {t : String}
    (hfirst : first.ctype = t) (dist arch : String) :
    getConfigForCtype (first :: rest) dist arch =
      some ((sortComponents (first :: rest)).foldl configFrom (Component.new [] t dist arch)) := by
  rw [← hfirst]
  rfl

theorem getConfigForCtype_spec {l : List Component} (hn : (keysOf l).Nodup) {t : String}
    (hl : ∀ c ∈ l, c.ctype = t) (dist arch : String) :
    getConfigForCtype l dist arch = none ∧ l = [] ∨
      ∃ config, getConfigForCtype l dist arch = some config ∧ l ≠ [] ∧ config.get =
        overlay (ver l (Component.new [] t dist arch).getOrderKeys)
          (stack (ver l) (Keys.base (Component.new [] t dist arch).getOrderKeys)) := by
  cases hcases : l with
  | nil => exact Or.inl ⟨rfl, rfl⟩
  | cons first rest =>
    have hfirst : first.ctype = t := hl first (hcases ▸ List.mem_cons_self)
    refine .inr ⟨_, getConfigForCtype_cons hfirst dist arch, List.cons_ne_nil _ _, ?_⟩
    rw [← hcases]
    rw [foldl_configFrom, get_foldl_inheritFrom, stack_inheritable (sortComponents_sorted hn),
      ver_perm (sortComponents_perm l) (nodup_of_sorted (sortComponents_sorted hn))]
    exact overlay_nothing _

/-- The versions of the packages of a type, if there are any for this type. -/
def VersionModule.versionsOf (m : VersionModule) (ctype : String) :
    Option (String → Option String) :=
  (m.getComponentsByCtype ctype).head?.map Component.get

/-- The versions for a distribution and an architecture are those of its level over those of
    the levels below. -/
theorem versionsOf_getConfigModule (hs : (keysOf self.components).Nodup)
    (hm : (keysOf module.components).Nodup) (t dist arch : String) :
    (module.getConfigModule self dist arch).versionsOf t =
      if ofCtype (self.overwrite module false false).components t = [] then none
      else
        let k := (Component.new [] t dist arch).getOrderKeys
        let A := ver (self.overwrite module false false).components
        some (overlay (A k) (stack A (Keys.base k))) := by
  obtain ⟨m, heq, hn, -⟩ := exists_overwrite hs hm
  have hgrouped := grouped_addMissing (Dict.keys self.getComponentsPerCtypes)
    (grouped_perCtypes (self.overwrite module false false))
  have hnodup := ofCtype_adjust_nodup hn t
  rw [← heq] at hnodup
  generalize hA : (self.overwrite module false false).components = comps at *
  have hby : (module.getConfigModule self dist arch).getComponentsByCtype t =
      (getConfigForCtype (ofCtype comps t) dist arch).toList := by
    have hgroups := hgrouped.filter_groups
      (g := fun e => (getConfigForCtype e.2 dist arch).toList) (fun _ => rfl)
      (fun s l hl c hc => ctype_getConfigForCtype hl (Option.mem_toList.1 hc)) t
    rw [← hgroups, ← List.filterMap_eq_flatMap_toList]
    unfold getConfigModule
    rw [clone_all]
    rfl
  have hver : ∀ k, Keys.ctype k = t → ver (ofCtype comps t) k = ver comps k := by
    rintro k rfl
    exact ver_ofCtype comps k
  unfold versionsOf
  rw [hby]
  rcases getConfigForCtype_spec hnodup (fun c hc => ctype_of_mem_ofCtype hc) dist arch with
    ⟨hnone, hnil⟩ | ⟨config, hsome, hne, hget⟩
  · rw [hnone, if_pos hnil]
    rfl
  · have hbelow : stack (ver (ofCtype comps t))
        (Keys.base (Component.new [] t dist arch).getOrderKeys) =
        stack (ver comps) (Keys.base (Component.new [] t dist arch).getOrderKeys) :=
      stack_congr fun j hj => hver j (Keys.mem_base_iff.1 hj).1.1.symm
    rw [hver _ rfl, hbelow] at hget
    rw [hsome, if_neg hne]
    exact congrArg some hget

/-! ## Subtracting -/

theorem getOrderKeys_subtractComponent (name ctype : String) (d : VersionModule)
    (previous : List Component) (c : Component) :
    (subtractComponent name ctype d previous c).getOrderKeys = c.getOrderKeys := by
  unfold subtractComponent
  dsimp only
  split
  · rfl
  · rfl

theorem ofCtype_subtract (m d : VersionModule) (t : String) :
    ofCtype (m.subtract d).components t =
      (previousLoop (subtractComponent m.name t d) []
        (sortComponents (ofCtype m.components t))).filter fun c => c.versions ≠ [] := by
  unfold VersionModule.subtract
  rw [clone_all]
  exact (grouped_perCtypes m).filter_groups
    (g := fun e => (previousLoop (subtractComponent m.name e.1 d) []
      (sortComponents e.2)).filter fun c => c.versions ≠ []) (fun _ => rfl)
    (fun _ _ hl _ hc => ctype_of_mem_loop (getOrderKeys_subtractComponent _ _ _) hl
      (List.mem_of_mem_filter hc)) t

theorem keys_new {c : Component} {t : String} (h : c.ctype = t) :
    (Component.new [] t c.dist c.arch).getOrderKeys = c.getOrderKeys := by
  rw [getOrderKeys_inj]
  exact ⟨h.symm, if_neg c.dist_ne, if_neg c.arch_ne⟩

/-- One component is thinned out against what `previous` and the default versions give it. -/
theorem get_subtractComponent {name t : String} {d : VersionModule} {previous : List Component}
    {c : Component} (hd : (keysOf d.components).Nodup) (hp : (keysOf previous).Nodup)
    (hc : c.ctype = t) :
    let A := ver (d.overwrite ⟨name, previous⟩ false false).components
    (subtractComponent name t d previous c).get =
      minus c.get (overlay (A c.getOrderKeys) (stack A (Keys.base c.getOrderKeys))) := by
  intro A
  have hconfig := versionsOf_getConfigModule hd
    (show (keysOf (VersionModule.mk name previous).components).Nodup from hp) t c.dist c.arch
  unfold VersionModule.versionsOf at hconfig
  unfold subtractComponent
  dsimp only at hconfig ⊢
  rw [keys_new hc] at hconfig
  split at hconfig
  · next hnil =>
    -- nothing is known about this type
    rw [Option.map_eq_none_iff] at hconfig
    rw [hconfig]
    obtain ⟨m, heq, hn, -⟩ := exists_overwrite hd
      (show (keysOf (VersionModule.mk name previous).components).Nodup from hp)
    have hA : ∀ k, Keys.ctype k = t → A k = nothing := by
      rw [heq, ofCtype_adjust_eq_nil_iff hn] at hnil
      change ∀ k, Keys.ctype k = t →
        ver (d.overwrite ⟨name, previous⟩ false false).components k = nothing
      rw [heq]
      exact hnil
    have hbelow : stack A (Keys.base c.getOrderKeys) =
        stack (fun _ => nothing) (Keys.base c.getOrderKeys) :=
      stack_congr fun j hj => hA j ((Keys.mem_base_iff.1 hj).1.1.symm.trans hc)
    rw [hA c.getOrderKeys hc, hbelow, stack_nothing, nothing_overlay, minus_nothing]
  · obtain ⟨config, hhead, hget⟩ := Option.map_eq_some_iff.1 hconfig
    rw [hhead]
    dsimp only
    rw [get_subtract]
    exact congrArg (minus c.get) hget

theorem subtract_nodup {m d : VersionModule} (hm : (keysOf m.components).Nodup) :
    (keysOf (m.subtract d).components).Nodup := by
  refine nodup_of_ofCtype fun t => ?_
  rw [ofCtype_subtract]
  exact (loop_nodup (getOrderKeys_subtractComponent _ _ _)
    (keysOf_ofCtype_nodup hm t)).sublist (List.filter_sublist.map _)

/-- What `subtract` takes away from a level: the default versions of this level over the levels
    below, as the default versions overwritten by the result have them. -/
theorem ver_subtract {m d : VersionModule} (hm : (keysOf m.components).Nodup)
    (hd : (keysOf d.components).Nodup) (k : Keys) :
    ver (m.subtract d).components k =
      minus (ver m.components k) (overlay (ver d.components k)
        (stack (ver (d.overwrite (m.subtract d) false false).components) (Keys.base k))) := by
  have hl := keysOf_ofCtype_nodup hm (Keys.ctype k)
  have hf := getOrderKeys_subtractComponent m.name (Keys.ctype k) d
  have hs := sortComponents_sorted hl
  have hperm := sortComponents_perm (ofCtype m.components (Keys.ctype k))
  have hkeys := keysOf_previousLoop hf [] (sortComponents (ofCtype m.components (Keys.ctype k)))
  -- the levels of this type, as the loop leaves them
  have hver : ∀ j, Keys.ctype j = Keys.ctype k → ver (m.subtract d).components j =
      ver (previousLoop (subtractComponent m.name (Keys.ctype k) d) []
        (sortComponents (ofCtype m.components (Keys.ctype k)))) j := by
    intro j hj
    rw [← ver_ofCtype, hj, ofCtype_subtract, ver_filter_versions (loop_nodup hf hl)]
  rw [hver k rfl, ← ver_ofCtype m.components k]
  by_cases hk : k ∈ keysOf (sortComponents (ofCtype m.components (Keys.ctype k)))
  · obtain ⟨c, hc, hck⟩ := List.mem_map.1 hk
    have hc' := hperm.mem_iff.1 hc
    obtain ⟨previous, hself, hsorted, hnone, hbelow⟩ := ver_previousLoop hf hs hc
    rw [hck] at hself hnone hbelow
    have hprev := overwrite_reduced hd
      (show (keysOf (VersionModule.mk m.name previous).components).Nodup from
        nodup_of_sorted hsorted)
    have hlast := overwrite_reduced hd (subtract_nodup (d := d) hm)
    -- the levels below are the same then and in the end
    have hstack : stack (ver (d.overwrite ⟨m.name, previous⟩ false false).components)
        (Keys.base k) = stack (ver (d.overwrite (m.subtract d) false false).components)
        (Keys.base k) := by
      refine stack_congr fun j hj => ?_
      refine Reduced.eq_on Keys.base_wf hprev hlast
        (S := fun j => j < k ∧ Keys.ctype j = Keys.ctype k) ?_ ?_ j
        ⟨Keys.lt_of_mem_base hj, (Keys.mem_base_iff.1 hj).1.1.symm⟩
      · rintro i ⟨hik, hict⟩ j hj
        exact ⟨(Keys.lt_of_mem_base hj).trans hik,
          (Keys.mem_base_iff.1 hj).1.1.symm.trans hict⟩
      · rintro i ⟨hik, hict⟩
        change overlay (ver previous i) _ = _
        rw [hbelow i hik, hver i hict]
    have hover := hprev.overlay_stack k
    change _ = overlay (overlay (ver previous k) _) _ at hover
    rw [hnone, nothing_overlay, hstack] at hover
    have hcomponent := @get_subtractComponent m.name (Keys.ctype k) d previous c hd
      (nodup_of_sorted hsorted) (ctype_of_mem_ofCtype hc')
    dsimp only at hcomponent
    rw [hck, hstack, hover] at hcomponent
    rw [hself, hcomponent, ← ver_of_mem hl hc', hck]
  · have hk' : k ∉ keysOf (ofCtype m.components (Keys.ctype k)) := fun h =>
      hk ((hperm.map _).mem_iff.2 h)
    rw [ver_of_not_mem hk', ver_of_not_mem (by rw [hkeys]; exact hk), nothing_minus]

end Modules

/-! ## The result -/

/-- At most one component for each type, distribution and architecture. -/
def VersionModule.Indexed (m : VersionModule) : Prop :=
  (m.components.map fun c => (c.ctype, c.dist, c.arch)).Nodup

theorem VersionModule.Indexed.keys {m : VersionModule} (h : m.Indexed) :
    (keysOf m.components).Nodup := by
  refine List.pairwise_map.2 ((List.pairwise_map.1 h).imp fun {a b} hne heq => hne ?_)
  obtain ⟨hctype, hdist, harch⟩ := getOrderKeys_inj.1 heq
  rw [hctype, hdist, harch]

/-- What `subtract` leaves of a module gives, over the default versions, the same versions as
    the module: for every distribution, architecture and component type. -/
theorem freeze_lossless {m d : VersionModule} (hm : m.Indexed) (hd : d.Indexed)
    (dist arch ctype : String) :
    ((m.subtract d).getConfigModule d dist arch).versionsOf ctype =
      (m.getConfigModule d dist arch).versionsOf ctype := by
  have hsub := subtract_nodup (d := d) hm.keys
  have hsame : ver (d.overwrite (m.subtract d) false false).components =
      ver (d.overwrite m false false).components :=
    Reduced.eq_of_minus Keys.base_wf (overwrite_reduced hd.keys hm.keys)
      (overwrite_reduced hd.keys hsub) (ver_subtract hm.keys hd.keys)
  obtain ⟨o, ho, hno, -⟩ := exists_overwrite hd.keys hm.keys
  obtain ⟨o', ho', hno', -⟩ := exists_overwrite hd.keys hsub
  have hnil : ofCtype (d.overwrite (m.subtract d) false false).components ctype = [] ↔
      ofCtype (d.overwrite m false false).components ctype = [] := by
    rw [ho', ofCtype_adjust_eq_nil_iff hno', ← ho', hsame, ho, ofCtype_adjust_eq_nil_iff hno]
  rw [versionsOf_getConfigModule hd.keys hsub, versionsOf_getConfigModule hd.keys hm.keys, hsame]
  by_cases h : ofCtype (d.overwrite m false false).components ctype = []
  · rw [if_pos h, if_pos (hnil.2 h)]
  · rw [if_neg h, if_neg fun h' => h (hnil.1 h')]

/-- Default versions, and a module that changes one of them for an architecture and another one
    for a distribution. -/
def defaultDebs : VersionModule :=
  ⟨"default", [Component.new [("libc6", "2.31"), ("zlib1g", "1.2.11")] "deb" "" ""]⟩

def someDebs : VersionModule :=
  ⟨"docker-base", [Component.new [("libc6", "2.31"), ("zlib1g", "1.2.12")] "deb" "buster" "",
    Component.new [("libc6", "2.28")] "deb" "" "armhf"]⟩

theorem freeze_someDebs :
    ((someDebs.subtract defaultDebs).getConfigModule defaultDebs "buster" "armhf").versionsOf
      "deb" =
      (someDebs.getConfigModule defaultDebs "buster" "armhf").versionsOf "deb" :=
  freeze_lossless (by unfold VersionModule.Indexed; decide)
    (by unfold VersionModule.Indexed; decide) "buster" "armhf" "deb"

end SonicBuildimage.Versions
