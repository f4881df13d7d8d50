/-
  The data of sonic-yang-mgmt (sonic_yang_ext.py): what a ConfigDB file and a YANG JSON
  tree are, and what the translators read of a YANG model.

  `Cfg` is a value of the ConfigDB: a text, a list of texts or a dictionary.  `Yang` is a
  JSON value of the YANG tree.  `Container` and `YList` are the model of a table as
  xmltodict reads it; one child statement is a dict there and several are a list, so a list
  of one element stands for the dict.  A single choice has two cases or more, and the
  groupings of `uses` are given by their leafs.

  Modelled: `_extractKey`, `_createLeafDict`, `_findYangTypedValue`.  `elementPath` is read at
  its two ends only: the first element is the table that is translated and the last one the
  field, which are arguments here.  `none` is an exception.  Parameters (`YEnv`): `int`, and
  `str` of a list or a dict.
-/
import SonicBuildimage.Lib.PyDict
import SonicBuildimage.Lib.PyStr

namespace SonicBuildimage.YangMgmt

open SonicBuildimage.Lib

/-! ## Values -/

/-- A value of the ConfigDB. -/
inductive Cfg where
  | str (s : String)
  | list (xs : List String)
  | dict (items : List (String × Cfg))

/-- A JSON value of the YANG tree. -/
inductive Yang where
  | str (s : String)
  | num (n : Int)
  | bool (b : Bool)
  | arr (xs : List Yang)
  | obj (fields : List (String × Yang))

/-- A dictionary of the ConfigDB. -/
abbrev CObj := Dict String Cfg

/-- A dictionary of the YANG tree. -/
abbrev YObj := Dict String Yang

/-- What the code asks of the Python runtime. -/
structure YEnv where
  /-- `int(val, 10)` -/
  int : String → Option Int
  /-- `str(val)` of a list or a dict of the ConfigDB -/
  strCfg : Cfg → String

variable (env : YEnv) (table : String)

/-- `str(val)`. -/
def Cfg.toStr : Cfg → String
  | .str s => s
  | .list xs => env.strCfg (.list xs)
  | .dict items => env.strCfg (.dict items)

/-- `len(val) == 0`, the negation of `bool(val)`. -/
def Cfg.isEmpty : Cfg → Bool
  | .str s => s == ""
  | .list xs => xs.isEmpty
  | .dict items => items.isEmpty

/-! ## Models -/

/-- A `leaf` or `leaf-list` statement. -/
structure LeafStmt where
  name : String
  /-- `leaf['type']['@name']` -/
  type : String

/-- The statements of a model that `_createLeafDict` reads. -/
structure LeafModel where
  leaf : List LeafStmt := []
  /-- choices, their cases and the leafs of the cases -/
  choice : List (List (List LeafStmt)) := []
  leafList : List LeafStmt := []
  /-- the leafs of the groupings that are used -/
  uses : List (List LeafStmt) := []

/-- An entry of a leaf dictionary. -/
structure Leaf where
  type : String
  isleafList : Bool

abbrev LeafDict := Dict String Leaf

/-- `leafDict.get(vKey)` as a test. -/
def isLeaf (leafDict : LeafDict) (k : String) : Bool := (Dict.get? leafDict k).isSome

def fillLeafDict (leafs : List LeafStmt) (isleafList : Bool) (leafDict : LeafDict) : LeafDict :=
  leafs.foldl (fun d leaf => Dict.set d leaf.name ⟨leaf.type, isleafList⟩) leafDict

def createLeafDict (model : LeafModel) : LeafDict :=
  let leafDict := fillLeafDict model.leaf false []
  let leafDict := model.choice.foldl
    (fun d cases => cases.foldl (fun d leafs => fillLeafDict leafs false d) d) leafDict
  let leafDict := fillLeafDict model.leafList true leafDict
  model.uses.foldl (fun d leafs => fillLeafDict leafs false d) leafDict

/-- The list inside of a Type 1 list. -/
structure InnerList where
  name : String
  key : String
  leaves : LeafModel

/-- `inner_listVal`: the last leaf that is not the key. -/
def InnerList.val (inner : InnerList) : Option String :=
  ((Dict.keys (createLeafDict inner.leaves)).filter fun lkey => inner.key ≠ lkey).getLast?

mutual

/-- A `container` statement. -/
inductive Container where
  | mk (name : String) (leaves : LeafModel) (lists : List YList) (containers : List Container)

/-- A `list` statement; `keys` is the argument of its `key`. -/
inductive YList where
  | mk (name keys : String) (leaves : LeafModel) (inner : Option InnerList)
      (containers : List Container)

end

def Container.name : Container → String
  | .mk name _ _ _ => name

def Container.leafDict : Container → LeafDict
  | .mk _ leaves _ _ => createLeafDict leaves

def Container.lists : Container → List YList
  | .mk _ _ lists _ => lists

def Container.containers : Container → List Container
  | .mk _ _ _ containers => containers

def YList.name : YList → String
  | .mk name _ _ _ _ => name

def type1ListMapsModel : List String :=
  ["DSCP_TO_TC_MAP_LIST", "DOT1P_TO_TC_MAP_LIST", "TC_TO_PRIORITY_GROUP_MAP_LIST",
    "TC_TO_QUEUE_MAP_LIST", "MAP_PFC_PRIORITY_TO_QUEUE_LIST",
    "PFC_PRIORITY_TO_PRIORITY_GROUP_MAP_LIST", "DSCP_TO_FC_MAP_LIST", "EXP_TO_FC_MAP_LIST",
    "CABLE_LENGTH_LIST", "MPLS_TC_TO_TC_MAP_LIST"]

/-- Fields that are leaf-lists in YANG and texts in the ConfigDB, with their separators. -/
def leafListWithStringValueDict : Dict (String × String) Char :=
  [(("MIRROR_SESSION", "src_ip"), ','),
    (("NTP", "src_intf"), ';'),
    (("BGP_ALLOWED_PREFIXES", "prefixes_v4"), ','),
    (("BGP_ALLOWED_PREFIXES", "prefixes_v6"), ','),
    (("BUFFER_PORT_EGRESS_PROFILE_LIST", "profile_list"), ','),
    (("BUFFER_PORT_INGRESS_PROFILE_LIST", "profile_list"), ','),
    (("PORT", "adv_speeds"), ','),
    (("PORT", "adv_interface_types"), ',')]

/-! ## Keys and leafs -/

/-- The key leafs of an entry, from the key of the ConfigDB. -/
def extractKey (tableKey : String) (keyList : List String) : Option YObj :=
  let value := split '|' tableKey
  if keyList.length ≠ value.length then none
  else
    some ((keyList.zip value).foldl (fun d kv => Dict.set d kv.1 (.str (strip kv.2))) [])

/-- `_yangConvert`. -/
def yangConvert (leaf : Leaf) (val : String) : Option Yang :=
  if contains leaf.type "uint" then (env.int val).map .num else some (.str val)

/-- What the text of a leaf-list consists of: it is split if the field is in the dictionary,
    and `for v in value` goes through its characters if not. -/
def textElements (key s : String) : List String :=
  match Dict.get? leafListWithStringValueDict (table, key) with
  | some sep => (split sep s).map strip
  | none => s.toList.map String.singleton

/-- What the value of a leaf-list consists of. -/
def Cfg.elements (key : String) : Cfg → List String
  | .str s => textElements table key s
  | .list xs => xs
  | .dict items => Dict.keys items

def findYangTypedValue (key : String) (value : Cfg) (leafDict : LeafDict) : Option Yang :=
  match Dict.get? leafDict key with
  | none => none
  | some leaf =>
    if leaf.isleafList then
      ((value.elements table key).mapM (yangConvert env leaf)).map .arr
    else yangConvert env leaf (value.toStr env)

end SonicBuildimage.YangMgmt
