/-
  The translation of a table of the ConfigDB into a YANG tree: `_xlateContainer` and what it
  calls.

  The functions of the source call each other along the model.  Each is written here over
  its children, which are given by their names and by how they are translated (`CChild`,
  `LChild`); `xlateContainer` ties the knot by recursion on the model.  The dictionary
  `yang` is filled in place in the source; every call gets an empty one, so it is a result
  here.  `configC` is the copy from which translated keys are deleted.  `none` is an
  exception; `_xlateList` catches those of one key and leaves the key in `configC`.
-/
import SonicBuildimage.YangMgmt.Schema

namespace SonicBuildimage.YangMgmt

open SonicBuildimage.Lib

variable (env : YEnv) (table : String)

/-! ## Lists -/

/-- A container of a model, with its translation. -/
structure CChild where
  name : String
  run : Cfg → Option YObj

/-- A list of a model, with the translation of a key and its value. -/
structure LChild where
  name : String
  entry : String → Cfg → Option YObj

/-- The inner list of a Type 1 entry: one element for each field. -/
def innerYangList (inner : InnerList) : Cfg → Option (List Yang)
  | .dict items => items.mapM fun kv => inner.val.map fun val =>
      .obj (Dict.set [(inner.key, .str kv.1)] val (.str (kv.2.toStr env)))
  | .str s => if s == "" then some [] else none
  | .list xs => if xs.isEmpty then some [] else none

def xlateType1Entry (keyList : List String) (inner : Option InnerList) (pkey : String)
    (value : Cfg) : Option YObj := do
  let keyDict ← extractKey pkey keyList
  let inner ← inner
  let innerList ← innerYangList env inner value
  return Dict.set keyDict inner.name (.arr innerList)

/-- The value of a container in a list entry. -/
def xlateContainerInList (cc : CChild) (value : Cfg) : Option YObj :=
  -- "Empty container - return", but the test is for a container that is not empty
  if !value.isEmpty then some []
  else cc.run value

/-- One field of a list entry.  With several containers `ccontainer` is a list, which has no
    `get`. -/
def xlateField (leafDict : LeafDict) (containers : List CChild) (keyDict : YObj)
    (field : String × Cfg) : Option YObj :=
  let leaf := (findYangTypedValue env table field.1 field.2 leafDict).map
    (Dict.set keyDict field.1)
  match containers with
  | [] => leaf
  | [cc] =>
    if field.1 = cc.name then
      (xlateContainerInList cc field.2).map fun yangContainer =>
        if yangContainer.isEmpty then keyDict else Dict.set keyDict field.1 (.obj yangContainer)
    else leaf
  | _ => none

/-- One key of the table in a list.  A value that is not a dictionary has no fields when it
    is empty and fails at its first element otherwise. -/
def xlateEntry (keyList : List String) (leafDict : LeafDict) (containers : List CChild)
    (pkey : String) (value : Cfg) : Option YObj := do
  let keyDict ← extractKey pkey keyList
  match value with
  | .dict fields => fields.foldlM (xlateField env table leafDict containers) keyDict
  | .str s => if s == "" then some keyDict else none
  | .list xs => if xs.isEmpty then some keyDict else none

/-- One key of the table; it is deleted when it was translated. -/
def xlateListKey (clist : LChild) (st : List Yang × CObj) (kv : String × Cfg) :
    List Yang × CObj :=
  match clist.entry kv.1 kv.2 with
  | some keyDict => (st.1 ++ [.obj keyDict], Dict.erase st.2 kv.1)
  | none => st

def xlateList (clist : LChild) (configC : CObj) : List Yang × CObj :=
  configC.foldl (xlateListKey clist) ([], configC)

def xlateListInContainer (st : YObj × CObj) (clist : LChild) : YObj × CObj :=
  let res := xlateList clist st.2
  -- clean empty lists
  (if res.1.isEmpty then Dict.erase st.1 clist.name else Dict.set st.1 clist.name (.arr res.1),
    res.2)

/-! ## Containers -/

def xlateContainerInContainer (st : YObj × CObj) (cc : CChild) : Option (YObj × CObj) :=
  let yang := Dict.set st.1 cc.name (.obj [])
  match Dict.get? st.2 cc.name with
  | none => some (yang, st.2)
  | some value =>
    if value.isEmpty then some (yang, Dict.erase st.2 cc.name)
    else
      (cc.run value).map fun y =>
        -- clean empty container
        (if y.isEmpty then Dict.erase yang cc.name else Dict.set yang cc.name (.obj y),
          Dict.erase st.2 cc.name)

/-- The containers of a container, unless everything was translated. -/
def xlateContainersInContainer (containers : List CChild) (st : YObj × CObj) :
    Option (YObj × CObj) :=
  if st.2.isEmpty then some st else containers.foldlM xlateContainerInContainer st

/-- A leaf of a container; it is deleted when it was translated. -/
def xlateLeaf (leafDict : LeafDict) (st : YObj × CObj) (kv : String × Cfg) :
    Option (YObj × CObj) :=
  if isLeaf leafDict kv.1 then
    (findYangTypedValue env table kv.1 kv.2 leafDict).map fun y =>
      (Dict.set st.1 kv.1 y, Dict.erase st.2 kv.1)
  else some st

/-- The lists that are used: a single list only under the name of the container. -/
def activeLists (name : String) : List LChild → List LChild
  | [clist] => if clist.name = name ++ "_LIST" then [clist] else []
  | clists => clists

def xlateContainerBody (name : String) (leafDict : LeafDict) (lists : List LChild)
    (containers : List CChild) (config : Cfg) : Option YObj :=
  match config with
  | .dict configC => do
    let st := if configC.isEmpty then ([], configC)
      else (activeLists name lists).foldl xlateListInContainer ([], configC)
    let st ← xlateContainersInContainer containers st
    let st ← st.2.foldlM (xlateLeaf env table leafDict) st
    -- all entries in copy of config must have been parsed
    if st.2.isEmpty then some st.1 else none
  | .str _ => none
  | .list _ => none

mutual

def xlateContainer : Container → Cfg → Option YObj
  | .mk name leaves lists containers =>
    xlateContainerBody env table name (createLeafDict leaves) (xlateListChildren lists)
      (xlateChildren containers)

def xlateChildren : List Container → List CChild
  | [] => []
  | c :: cs => ⟨c.name, xlateContainer c⟩ :: xlateChildren cs

def xlateListEntry : YList → String → Cfg → Option YObj
  | .mk name keys leaves inner containers =>
    if name ∈ type1ListMapsModel then xlateType1Entry env (splitWords keys) inner
    else xlateEntry env table (splitWords keys) (createLeafDict leaves) (xlateChildren containers)

def xlateListChildren : List YList → List LChild
  | [] => []
  | l :: ls => ⟨l.name, xlateListEntry l⟩ :: xlateListChildren ls

end

/-! ## The configuration -/

/-- An entry of `confDbYangMap`. -/
structure TableMap where
  moduleName : String
  topLevelContainer : String
  container : Container

/-- The YANG tree: modules, and the containers of their tables. -/
abbrev YangJson := Dict String YObj

def TableMap.key (cmap : TableMap) : String := cmap.moduleName ++ ":" ++ cmap.topLevelContainer

def TableMap.subkey (cmap : TableMap) : String :=
  cmap.topLevelContainer ++ ":" ++ cmap.container.name

end SonicBuildimage.YangMgmt
