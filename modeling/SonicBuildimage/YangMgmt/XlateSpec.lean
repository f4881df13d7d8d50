/-
  The parts of a model with their translations.

  `xlateContainerInContainer_rest` says what a container leaves of the copy of the table;
  `xlateContainer_eq` is the translation of a model in terms of its lists and containers.
-/
import SonicBuildimage.YangMgmt.Xlate

namespace SonicBuildimage.YangMgmt

open SonicBuildimage.Lib

variable {env : YEnv} {table : String}

/-- A container takes its name out of the copy of the table. -/
theorem xlateContainerInContainer_rest {st st' : YObj × CObj} {cc : CChild}
    (h : xlateContainerInContainer st cc = some st') :
    st'.2 = st.2.filter fun kv => kv.1 ≠ cc.name := by
  unfold xlateContainerInContainer at h
  dsimp only at h
  cases hv : Dict.get? st.2 cc.name with
  | none =>
    rw [hv] at h
    obtain rfl := Option.some.inj h
    refine (List.filter_eq_self.2 fun kv hkv => ?_).symm
    rw [decide_eq_true_iff]
    rintro hk
    exact (Dict.mem_keys_iff st.2 cc.name).1 (hk ▸ List.mem_map_of_mem hkv) hv
  | some v =>
    rw [hv] at h
    dsimp only at h
    by_cases hempty : v.isEmpty
    · rw [if_pos hempty] at h
      obtain rfl := Option.some.inj h
      rfl
    · rw [if_neg hempty] at h
      obtain ⟨y, -, rfl⟩ := Option.map_eq_some_iff.1 h
      rfl

/-! ## Models -/

/-- A container with its translation. -/
def Container.child (env : YEnv) (table : String) (c : Container) : CChild :=
  ⟨c.name, xlateContainer env table c⟩

/-- A list with its translation. -/
def YList.child (env : YEnv) (table : String) (l : YList) : LChild :=
  ⟨l.name, xlateListEntry env table l⟩

@[simp] theorem Container.child_name (env : YEnv) (table : String) (c : Container) :
    (c.child env table).name = c.name := rfl

@[simp] theorem YList.child_name (env : YEnv) (table : String) (l : YList) :
    (l.child env table).name = l.name := rfl

theorem xlateChildren_eq (cs : List Container) :
    xlateChildren env table cs = cs.map (Container.child env table) := by
  induction cs with
  | nil => rfl
  | cons c cs ih => rw [xlateChildren, ih]; rfl

theorem xlateListChildren_eq (ls : List YList) :
    xlateListChildren env table ls = ls.map (YList.child env table) := by
  induction ls with
  | nil => rfl
  | cons l ls ih => rw [xlateListChildren, ih]; rfl

theorem xlateContainer_eq (c : Container) :
    xlateContainer env table c = xlateContainerBody env table c.name c.leafDict
      (c.lists.map (YList.child env table)) (c.containers.map (Container.child env table)) := by
  cases c with
  | mk name leaves lists containers =>
    rw [xlateContainer, xlateListChildren_eq, xlateChildren_eq]
    rfl

/-- The lists that are used: a single list only under the name of the container. -/
def Container.activeLists (c : Container) : List YList :=
  match c.lists with
  | [l] => if l.name = c.name ++ "_LIST" then [l] else []
  | ls => ls

theorem Container.activeLists_child (c : Container) :
    YangMgmt.activeLists c.name (c.lists.map (YList.child env table)) =
      c.activeLists.map (YList.child env table) := by
  unfold Container.activeLists YangMgmt.activeLists
  match c.lists with
  | [] => rfl
  | [l] =>
    simp only [List.map_cons, List.map_nil, YList.child]
    split
    · rfl
    · rfl
  | _ :: _ :: _ => rfl

/-- Containers inside of containers come to an end. -/
theorem Container.induction {P : Container → Prop}
    (h : ∀ c : Container, (∀ d ∈ c.containers, P d) → P c) (c : Container) : P c :=
  h c fun d _ => Container.induction h d
termination_by sizeOf c
decreasing_by
  next hd =>
  cases c with
  | mk name leaves lists containers =>
    have := List.sizeOf_lt_of_mem hd
    simp only [Container.containers] at this
    simp only [Container.mk.sizeOf_spec]
    omega

end SonicBuildimage.YangMgmt
