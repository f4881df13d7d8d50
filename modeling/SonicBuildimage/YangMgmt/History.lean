/-
  Earlier calls of `loadData`.

  An instance of `SonicYang` keeps one thing from one call to the next that a translation
  reads: `elementPath`.  It is emptied after each table, but not when a translation raises;
  its first element is then the table at which the path was begun, and it stays in front of
  the next call's first table, since that one is appended.  `SonicYang.root` is this first
  element.  The last element is always the field that was appended last.

  `loadData_of_history`: whatever was loaded before, with or without exceptions, a call gives
  what it gives on a new instance, if the texts of its first table are split under the left
  table as under their own.  `port_after_exception` is a call that raises only because an
  earlier one did.

  Left out: libyang's parser, which is a parameter (`parse`): it sees the tree only.
-/
import SonicBuildimage.YangMgmt.XlateSpec

namespace SonicBuildimage.YangMgmt

open SonicBuildimage.Lib

/-! ## Calls -/

/-- What an instance keeps: the first element of `elementPath`, if there is one. -/
structure SonicYang where
  root : Option String := none

variable (env : YEnv) (confDbYangMap : Dict String TableMap)

/-- `_xlateConfigDBtoYang`, with what is left of `elementPath`: the first table is appended
    to what an exception has left, and the path is emptied after each table. -/
def xlateTables : Option String → YangJson → CObj → Option String × Option YangJson
  | root, yangJ, [] => (root, some yangJ)
  | root, yangJ, (table, config) :: jIn =>
    match Dict.get? confDbYangMap table with
    | none => (root, none)
    | some cmap =>
      match xlateContainer env (root.getD table) cmap.container config with
      | none => (some (root.getD table), none)
      | some y => xlateTables none
          (Dict.set yangJ cmap.key
            (Dict.set (Dict.getD yangJ cmap.key []) cmap.subkey (.obj y))) jIn

/-- `_cropConfigDB`. -/
def cropConfigDB (config : CObj) : CObj :=
  config.filter fun kv => (Dict.get? confDbYangMap kv.1).isSome

/-- `loadData`: the instance after the call, and the tree or an exception. -/
def loadData (parse : YangJson → Bool) (s : SonicYang) (config : CObj) :
    SonicYang × Option YangJson :=
  let res := xlateTables env confDbYangMap s.root [] (cropConfigDB confDbYangMap config)
  (⟨res.1⟩, res.2.bind fun yangJ => if parse yangJ then some yangJ else none)

/-- The instance after a sequence of calls. -/
def loadAll (parse : YangJson → Bool) (configs : List CObj) : SonicYang :=
  configs.foldl (fun s config => (loadData env confDbYangMap parse s config).1) {}

/-! ## The table that a text is split for -/

mutual

/-- The texts below a value are split alike for two tables. -/
def Cfg.SameTexts (r t : String) : Cfg → Prop
  | .dict items => Cfg.SameTextsItems r t items
  | .str _ => True
  | .list _ => True

def Cfg.SameTextsItems (r t : String) : List (String × Cfg) → Prop
  | [] => True
  | (k, v) :: items =>
    (∀ s, v = .str s → textElements r k s = textElements t k s) ∧ v.SameTexts r t ∧
      Cfg.SameTextsItems r t items

end

/-- The texts of the first table of a call. -/
def FirstTableSame (confDbYangMap : Dict String TableMap) (root : Option String)
    (config : CObj) : Prop :=
  ∀ r ∈ root, ∀ kv ∈ (cropConfigDB confDbYangMap config).head?, kv.2.SameTexts r kv.1

section Congr

variable {env : YEnv} {r t : String}

theorem Cfg.sameTexts_of_mem {items : CObj} (h : Cfg.SameTextsItems r t items)
    {kv : String × Cfg} (hkv : kv ∈ items) :
    (∀ s, kv.2 = .str s → textElements r kv.1 s = textElements t kv.1 s) ∧ kv.2.SameTexts r t := by
  induction items with
  | nil => exact absurd hkv List.not_mem_nil
  | cons e items ih =>
    rcases List.mem_cons.1 hkv with rfl | hkv
    · exact ⟨h.1, h.2.1⟩
    · exact ih h.2.2 hkv

theorem findYangTypedValue_congr {k : String} {v : Cfg} (leafDict : LeafDict)
    (h : ∀ s, v = .str s → textElements r k s = textElements t k s) :
    findYangTypedValue env r k v leafDict = findYangTypedValue env t k v leafDict := by
  have helem : v.elements r k = v.elements t k := by
    cases v with
    | list xs => rfl
    | dict items => rfl
    | str s => exact h s rfl
  unfold findYangTypedValue
  rw [helem]

theorem foldlM_congr {α β : Type} {f g : β → α → Option β} {P : β → Prop} {xs : List α}
    (h : ∀ x ∈ xs, ∀ b, P b → f b x = g b x ∧ ∀ b', f b x = some b' → P b') {b : β} (hb : P b) :
    xs.foldlM f b = xs.foldlM g b := by
  induction xs generalizing b with
  | nil => rfl
  | cons x xs ih =>
    obtain ⟨heq, hP⟩ := h x List.mem_cons_self b hb
    rw [List.foldlM_cons, List.foldlM_cons, ← heq]
    cases hfx : f b x with
    | none => rfl
    | some b' => exact ih (fun y hy => h y (List.mem_cons_of_mem _ hy)) (hP b' hfx)

/-- An empty value has nothing that could be split. -/
theorem xlateContainer_congr_empty {c : Container} {v : Cfg} (hv : v.isEmpty) :
    xlateContainer env r c v = xlateContainer env t c v := by
  rw [xlateContainer_eq, xlateContainer_eq]
  unfold xlateContainerBody
  cases v with
  | str s => rfl
  | list xs => rfl
  | dict items =>
    have hnil : items = [] := List.isEmpty_iff.1 hv
    subst hnil
    simp only [List.isEmpty_nil, if_true, xlateContainersInContainer, Option.bind_eq_bind,
      Option.bind_some, List.foldlM_nil]

theorem xlateListEntry_congr (l : YList) {k : String} {v : Cfg} (hv : v.SameTexts r t) :
    xlateListEntry env r l k v = xlateListEntry env t l k v := by
  cases l with
  | mk name keys leaves inner containers =>
    rw [xlateListEntry, xlateListEntry]
    split
    · rfl
    · rw [xlateChildren_eq, xlateChildren_eq]
      unfold xlateEntry
      cases extractKey k (splitWords keys) with
      | none => rfl
      | some keyDict =>
        cases v with
        | str s => rfl
        | list xs => rfl
        | dict fields =>
          refine foldlM_congr (P := fun _ => True) (fun kv hkv d _ => ⟨?_, fun _ _ => trivial⟩)
            trivial
          have htyped : findYangTypedValue env r kv.1 kv.2 (createLeafDict leaves) =
              findYangTypedValue env t kv.1 kv.2 (createLeafDict leaves) :=
            findYangTypedValue_congr _ (Cfg.sameTexts_of_mem hv hkv).1
          unfold xlateField
          cases containers with
          | nil => rw [List.map_nil, List.map_nil, htyped]
          | cons c cs =>
            cases cs with
            | nil =>
              simp only [List.map_cons, List.map_nil, htyped]
              have hcont : xlateContainerInList (c.child env r) kv.2 =
                  xlateContainerInList (c.child env t) kv.2 := by
                unfold xlateContainerInList
                cases hempty : kv.2.isEmpty with
                | false => simp only [Bool.not_false, if_true]
                | true => exact xlateContainer_congr_empty hempty
              rw [hcont, Container.child_name, Container.child_name]
            | cons c' cs => simp only [List.map_cons]

/-- A list deletes keys and adds none. -/
theorem xlateList_congr {l l' : LChild} {configC : CObj}
    (h : ∀ kv ∈ configC, l.entry kv.1 kv.2 = l'.entry kv.1 kv.2) :
    xlateList l configC = xlateList l' configC ∧ (xlateList l configC).2 ⊆ configC := by
  unfold xlateList
  generalize ([] : List Yang) = ys
  suffices hgen : ∀ items : CObj, (∀ kv ∈ items, l.entry kv.1 kv.2 = l'.entry kv.1 kv.2) →
      ∀ ys c, items.foldl (xlateListKey l) (ys, c) = items.foldl (xlateListKey l') (ys, c) ∧
        (items.foldl (xlateListKey l) (ys, c)).2 ⊆ c from hgen configC h ys configC
  intro items
  induction items with
  | nil => exact fun _ _ c => ⟨rfl, fun _ => id⟩
  | cons kv items ih =>
    intro hitems ys c
    have hkv := hitems kv List.mem_cons_self
    have hrest := ih fun x hx => hitems x (List.mem_cons_of_mem _ hx)
    rw [List.foldl_cons, List.foldl_cons]
    have hstep : xlateListKey l (ys, c) kv = xlateListKey l' (ys, c) kv := by
      unfold xlateListKey
      rw [hkv]
    have hsub : (xlateListKey l (ys, c) kv).2 ⊆ c := by
      unfold xlateListKey
      cases l.entry kv.1 kv.2 with
      | none => exact fun _ => id
      | some e => exact fun x hx => List.mem_of_mem_filter hx
    rw [← hstep]
    obtain ⟨heq, hsub'⟩ := hrest (xlateListKey l (ys, c) kv).1 (xlateListKey l (ys, c) kv).2
    exact ⟨heq, fun x hx => hsub (hsub' hx)⟩

theorem foldlM_containers_congr {items : CObj} {cs all : List Container}
    (h : ∀ d ∈ all, ∀ kv ∈ items, xlateContainer env r d kv.2 = xlateContainer env t d kv.2)
    (hcs : ∀ d ∈ cs, d ∈ all) {st : YObj × CObj} (hst : st.2 ⊆ items) :
    (cs.map (Container.child env r)).foldlM xlateContainerInContainer st =
        (cs.map (Container.child env t)).foldlM xlateContainerInContainer st ∧
      ∀ st', (cs.map (Container.child env r)).foldlM xlateContainerInContainer st = some st' →
        st'.2 ⊆ items := by
  induction cs generalizing st with
  | nil => exact ⟨rfl, fun st' h => Option.some.inj h ▸ hst⟩
  | cons d cs ih =>
    rw [List.map_cons, List.map_cons, List.foldlM_cons, List.foldlM_cons]
    have hstep : xlateContainerInContainer st (d.child env r) =
        xlateContainerInContainer st (d.child env t) := by
      unfold xlateContainerInContainer
      rw [Container.child_name, Container.child_name]
      cases hv : Dict.get? st.2 d.name with
      | none => dsimp only
      | some v =>
        have hrun : (d.child env r).run v = (d.child env t).run v :=
          h d (hcs d List.mem_cons_self) _ (hst (Dict.mem_of_get? hv))
        dsimp only
        rw [hrun]
    rw [← hstep]
    cases hres : xlateContainerInContainer st (d.child env r) with
    | none => exact ⟨rfl, fun st' h => absurd h (by simp)⟩
    | some st₁ =>
      have hsub : st₁.2 ⊆ items := by
        rw [xlateContainerInContainer_rest hres]
        exact fun kv hkv => hst (List.mem_of_mem_filter hkv)
      exact ih (fun e he => hcs e (List.mem_cons_of_mem _ he)) hsub

/-- The translation of a container looks at the table only where it splits a text. -/
theorem xlateContainer_congr (c : Container) :
    ∀ {v : Cfg}, v.SameTexts r t → xlateContainer env r c v = xlateContainer env t c v := by
  induction c using Container.induction with
  | h c ih =>
    intro v hv
    rw [xlateContainer_eq, xlateContainer_eq]
    unfold xlateContainerBody
    cases v with
    | str s => rfl
    | list xs => rfl
    | dict items =>
      have hentry : ∀ l : YList, ∀ kv ∈ items,
          (l.child env r).entry kv.1 kv.2 = (l.child env t).entry kv.1 kv.2 := fun l kv hkv =>
        xlateListEntry_congr l (Cfg.sameTexts_of_mem hv hkv).2
      -- the lists
      have hlists : ∀ (ls : List YList) (st : YObj × CObj), st.2 ⊆ items →
          (ls.map (YList.child env r)).foldl xlateListInContainer st =
            (ls.map (YList.child env t)).foldl xlateListInContainer st ∧
          ((ls.map (YList.child env r)).foldl xlateListInContainer st).2 ⊆ items := by
        intro ls
        induction ls with
        | nil => exact fun st hst => ⟨rfl, hst⟩
        | cons l ls ihl =>
          intro st hst
          have hkeys : ∀ kv ∈ st.2,
              (l.child env r).entry kv.1 kv.2 = (l.child env t).entry kv.1 kv.2 :=
            fun kv hkv => hentry l kv (hst hkv)
          obtain ⟨heq, hsub⟩ := xlateList_congr hkeys
          have hstep : xlateListInContainer st (l.child env r) =
              xlateListInContainer st (l.child env t) := by
            unfold xlateListInContainer
            rw [heq, YList.child_name, YList.child_name]
          rw [List.map_cons, List.map_cons, List.foldl_cons, List.foldl_cons, ← hstep]
          exact ihl _ fun kv hkv => hst (hsub hkv)
      -- the containers
      have hconts : ∀ st : YObj × CObj, st.2 ⊆ items →
          xlateContainersInContainer (c.containers.map (Container.child env r)) st =
            xlateContainersInContainer (c.containers.map (Container.child env t)) st ∧
          ∀ st', xlateContainersInContainer (c.containers.map (Container.child env r)) st =
            some st' → st'.2 ⊆ items := by
        intro st hst
        unfold xlateContainersInContainer
        split
        · exact ⟨rfl, fun st' h => Option.some.inj h ▸ hst⟩
        · exact foldlM_containers_congr (fun d hd kv hkv => ih d hd
            (Cfg.sameTexts_of_mem hv hkv).2) (fun d hd => hd) hst
      dsimp only
      rw [Container.activeLists_child, Container.activeLists_child]
      obtain ⟨hst, hsub⟩ := hlists c.activeLists ([], items) fun _ => id
      rw [← hst]
      generalize hst₁ : (if items.isEmpty then ([], items)
        else (c.activeLists.map (YList.child env r)).foldl xlateListInContainer ([], items)) = st₁
      have hsub₁ : st₁.2 ⊆ items := by
        rw [← hst₁]
        split
        · exact fun _ => id
        · exact hsub
      obtain ⟨hcont, hsub₂⟩ := hconts st₁ hsub₁
      rw [← hcont]
      cases hst₂ : xlateContainersInContainer (c.containers.map (Container.child env r)) st₁ with
      | none => rfl
      | some st₂ =>
        have hleaf : st₂.2.foldlM (xlateLeaf env r c.leafDict) st₂ =
            st₂.2.foldlM (xlateLeaf env t c.leafDict) st₂ := by
          refine foldlM_congr (P := fun _ => True)
            (fun kv hkv st _ => ⟨?_, fun _ _ => trivial⟩) trivial
          unfold xlateLeaf
          rw [findYangTypedValue_congr _ (Cfg.sameTexts_of_mem hv (hsub₂ _ hst₂ hkv)).1]
        simp only [Option.bind_eq_bind, Option.bind_some, hleaf]

end Congr

/-! ## Histories -/

section History

variable {env : YEnv} {confDbYangMap : Dict String TableMap}

/-- Only the first table can see what was left. -/
theorem xlateTables_congr {root : Option String} {jIn : CObj}
    (h : ∀ r ∈ root, ∀ kv ∈ jIn.head?, kv.2.SameTexts r kv.1) (yangJ : YangJson) :
    (xlateTables env confDbYangMap root yangJ jIn).2 =
      (xlateTables env confDbYangMap none yangJ jIn).2 := by
  cases jIn with
  | nil => rfl
  | cons kv jIn =>
    have heq : ∀ c : Container, xlateContainer env (root.getD kv.1) c kv.2 =
        xlateContainer env kv.1 c kv.2 := by
      intro c
      cases root with
      | none => rfl
      | some r => exact xlateContainer_congr c (h r rfl kv rfl)
    rw [xlateTables, xlateTables]
    cases Dict.get? confDbYangMap kv.1 with
    | none => rfl
    | some cmap =>
      dsimp only
      rw [heq, Option.getD_none]
      cases xlateContainer env kv.1 cmap.container kv.2 with
      | none => rfl
      | some y => rfl

/-- After every sequence of calls, a call gives what it gives on a new instance, if what an
    exception has left does not change how the texts of its first table are split. -/
theorem loadData_of_history (env : YEnv) (confDbYangMap : Dict String TableMap)
    (parse : YangJson → Bool) (configs : List CObj) (config : CObj)
    (h : FirstTableSame confDbYangMap (loadAll env confDbYangMap parse configs).root config) :
    (loadData env confDbYangMap parse (loadAll env confDbYangMap parse configs) config).2 =
      (loadData env confDbYangMap parse {} config).2 := by
  unfold loadData
  dsimp only
  rw [xlateTables_congr h]

end History

/-! ## A call after an exception -/

/-- `int` reads the decimal digits of ASCII. -/
def decimalEnv : YEnv where
  int s := (decimal s).map Int.ofNat
  strCfg _ := ""

/-- A list with a key, a leaf and a container, as in test-yang-structure.yang. -/
def sampleList : YList :=
  .mk "T_LIST" "name" { leaf := [⟨"name", "string"⟩, ⟨"mtu", "uint16"⟩] } none
    [.mk "c" { leaf := [⟨"x", "string"⟩] } [] []]

def sampleMap : Dict String TableMap := [("T", ⟨"m", "m", .mk "T" {} [sampleList] []⟩)]

/-- The list of ports, with a leaf-list that the ConfigDB has as a text. -/
def portList : YList :=
  .mk "PORT_LIST" "name" { leaf := [⟨"name", "string"⟩]
                           leafList := [⟨"adv_speeds", "uint32"⟩] } none []

def portMap : Dict String TableMap :=
  sampleMap ++ [("PORT", ⟨"p", "p", .mk "PORT" {} [portList] []⟩)]

/-- An unknown field, at which the translation raises. -/
def unknownField : CObj := [("T", .dict [("a", .dict [("b", .str "1")])])]

theorem loadAll_unknownField (parse : YangJson → Bool) :
    loadAll decimalEnv portMap parse [unknownField] = ⟨some "T"⟩ :=
  rfl

/-- After an exception in `T`, a port without speeds is loaded as on a new instance. -/
theorem port_without_speeds :
    (loadAll decimalEnv portMap (fun _ => true) [unknownField]).root = some "T" ∧
    (loadData decimalEnv portMap (fun _ => true)
      (loadAll decimalEnv portMap (fun _ => true) [unknownField])
      [("PORT", .dict [("e", .dict [])])]).2 =
      (loadData decimalEnv portMap (fun _ => true) {} [("PORT", .dict [("e", .dict [])])]).2 := by
  refine ⟨by rw [loadAll_unknownField], loadData_of_history _ _ _ _ _ ?_⟩
  intro r _ kv hkv
  have hcrop : cropConfigDB portMap [("PORT", .dict [("e", .dict [])])] =
      [("PORT", .dict [("e", .dict [])])] := rfl
  rw [hcrop] at hkv
  obtain rfl := Option.some.inj hkv
  exact ⟨fun s hs => absurd hs (by simp), trivial, trivial⟩

/-- A port with speeds is loaded on a new instance, and raises after an exception in `T`. -/
theorem port_after_exception :
    (loadData decimalEnv portMap (fun _ => true) {}
      [("PORT", .dict [("e", .dict [("adv_speeds", .str "1,2")])])]).2 =
      some [("p:p", [("p:PORT", .obj [("PORT_LIST",
        .arr [.obj [("name", .str "e"), ("adv_speeds", .arr [.num 1, .num 2])]])])])] ∧
    (loadData decimalEnv portMap (fun _ => true)
      (loadAll decimalEnv portMap (fun _ => true) [unknownField])
      [("PORT", .dict [("e", .dict [("adv_speeds", .str "1,2")])])]).2 = none := by
  rw [loadAll_unknownField]
  exact ⟨rfl, rfl⟩

end SonicBuildimage.YangMgmt
