/-
  The version files of the build: `Component` and `VersionModule` of
  scripts/versions_manager.py.

  Model.  A component holds the versions of the packages of one type (deb, py2, ...), for a
  distribution or all of them and an architecture or all of them; it has neither an empty
  distribution nor an empty architecture, since the constructor replaces them.  A module is a
  list of components.  What the source does in place (`merge`, `subtract`) gives a new component
  here; the loops that look at components they have already changed carry these along
  (`previousLoop`).

  Not modelled: the output on request (`verbose`), and the choice of modules in `VersionBuild`.
  The files are in `Files`.
-/
import SonicBuildimage.Lib.PyDict
import Mathlib.Data.List.Sort
import Mathlib.Data.Prod.Lex
import Mathlib.Data.String.Basic

namespace SonicBuildimage.Versions

open SonicBuildimage.Lib

/-- `ALL_DIST` -/
def allDist : String := "all"

/-- `ALL_ARCH` -/
def allArch : String := "all"

/-! ## Components -/

structure Component where
  versions : Dict String String
  ctype : String
  dist : String
  arch : String
  dist_ne : dist ≠ ""
  arch_ne : arch ≠ ""

namespace Component

/-- `Component(verbose, versions, ctype, dist, arch)` -/
def new (versions : Dict String String) (ctype dist arch : String) : Component where
  versions := versions
  ctype := ctype
  dist := if dist = "" then allDist else dist
  arch := if arch = "" then allArch else arch
  dist_ne := by
    split
    · decide
    · assumption
  arch_ne := by
    split
    · decide
    · assumption

/-- One round of the loop in `merge`. -/
def mergePackage (versions : Dict String String) (overwritten : Bool)
    (self : Dict String String) (package : String) : Dict String String :=
  if overwritten ∨ Dict.get? self package = none then
    match Dict.get? versions package with
    | some version => Dict.set self package version
    | none => self
  else self

def merge (self : Component) (versions : Dict String String) (overwritten : Bool) : Component :=
  { self with
    versions := (Dict.keys versions).foldl (mergePackage versions overwritten) self.versions }

/-- One round of the loop in `subtract`. -/
def subtractPackage (versions : Dict String String) (self : Dict String String)
    (package : String) : Dict String String :=
  if Dict.get? self package ≠ none ∧ Dict.get? self package = Dict.get? versions package then
    Dict.erase self package
  else self

def subtract (self : Component) (versions : Dict String String) : Component :=
  { self with versions := (Dict.keys versions).foldl (subtractPackage versions) self.versions }

/-- Whether the component can be overwritten by another one. -/
def checkOverwritable (self component : Component) (forAllDist forAllArch : Bool) : Bool :=
  if self.ctype ≠ component.ctype then false
  else if self.dist ≠ component.dist ∧ ¬ (forAllDist ∧ self.dist = allDist) then false
  else if self.arch ≠ component.arch ∧ ¬ (forAllArch ∧ self.arch = allArch) then false
  else true

/-- Whether the component can inherit the versions of another one. -/
def checkInheritable (self component : Component) : Bool :=
  if self.ctype ≠ component.ctype then false
  else if self.dist ≠ component.dist ∧ component.dist ≠ allDist then false
  else if self.arch ≠ component.arch ∧ component.arch ≠ allArch then false
  else true

/-- Triples of strings as Python compares them. -/
abbrev Keys := String ×ₗ String ×ₗ String

def getOrderKeys (self : Component) : Keys :=
  let dist := if self.dist = "" ∨ self.dist = allDist then "" else self.dist
  let arch := if self.arch = "" ∨ self.arch = allArch then "" else self.arch
  toLex (self.ctype, toLex (dist, arch))

def cleanInfo (self : Component) (cleanDist cleanArch force : Bool) : Component :=
  { self with
    dist := if cleanDist ∧ (force ∨ self.ctype ≠ "deb") then allDist else self.dist
    arch := if cleanArch then allArch else self.arch
    dist_ne := by
      split
      · decide
      · exact self.dist_ne
    arch_ne := by
      split
      · decide
      · exact self.arch_ne }

end Component

/-- `sorted(components, key = lambda x : x.get_order_keys())` -/
def sortComponents (components : List Component) : List Component :=
  components.insertionSort fun a b => a.getOrderKeys ≤ b.getOrderKeys

/-- A loop over components in which each is changed in view of the ones before it, as they have
    become. -/
def previousLoop (f : List Component → Component → Component) :
    List Component → List Component → List Component
  | previous, [] => previous
  | previous, c :: components => previousLoop f (previous ++ [f previous c]) components

/-! ## Modules -/

structure VersionModule where
  name : String
  components : List Component

namespace VersionModule

def clone (self : VersionModule) (ctypes excludeCtypes : List String) : VersionModule :=
  { self with
    components := self.components.filter fun c =>
      ¬ (excludeCtypes ≠ [] ∧ c.ctype ∈ excludeCtypes) ∧ ¬ (ctypes ≠ [] ∧ c.ctype ∉ ctypes) }

def getComponentsByCtype (self : VersionModule) (ctype : String) : List Component :=
  self.components.filter fun c => c.ctype = ctype

def addToCtype (result : Dict String (List Component)) (c : Component) :
    Dict String (List Component) :=
  Dict.set result c.ctype (Dict.getD result c.ctype [] ++ [c])

def getComponentsPerCtypes (self : VersionModule) : Dict String (List Component) :=
  self.components.foldl addToCtype []

/-- One round of the inner loop in `_adjust_components_for_ctype`: what `c` inherits. -/
def inheritFrom (c result base : Component) : Component :=
  if c.checkInheritable base then result.merge base.versions true else result

/-- One round of the outer loop in `_adjust_components_for_ctype`. -/
def adjustComponent (previous : List Component) (c : Component) : Component :=
  c.subtract (previous.foldl (inheritFrom c) (Component.new [] c.ctype allDist allArch)).versions

def adjustComponentsForCtype (components : List Component) : List Component :=
  (previousLoop adjustComponent [] (sortComponents components)).filter fun c => c.versions ≠ []

def adjust (self : VersionModule) : VersionModule :=
  { self with
    components := self.getComponentsPerCtypes.flatMap fun e => adjustComponentsForCtype e.2 }

/-- One round of the outer loop in `overwrite`. -/
def overwriteComponent (forAllDist forAllArch : Bool) (components : List Component)
    (m : Component) : List Component :=
  if components.any fun c => c.checkOverwritable m forAllDist forAllArch then
    components.map fun c =>
      if c.checkOverwritable m forAllDist forAllArch then c.merge m.versions true else c
  else components ++ [m.cleanInfo forAllDist forAllArch false]

def overwrite (self module : VersionModule) (forAllDist forAllArch : Bool) : VersionModule :=
  adjust { self with
    components := (sortComponents module.components).foldl
      (overwriteComponent forAllDist forAllArch) self.components }

/-- One round of the loop in `_get_config_for_ctype`. -/
def configFrom (result component : Component) : Component :=
  if result.checkInheritable component then result.merge component.versions true else result

/-- `_get_config_for_ctype`; without components there is nothing to configure. -/
def getConfigForCtype (components : List Component) (dist arch : String) : Option Component :=
  components.head?.map fun first =>
    (sortComponents components).foldl configFrom (Component.new [] first.ctype dist arch)

def addMissingCtype (result : Dict String (List Component)) (ctype : String) :
    Dict String (List Component) :=
  if Dict.get? result ctype = none then Dict.set result ctype [] else result

/-- `_get_config_module` -/
def getConfigModule (self defaultModule : VersionModule) (dist arch : String) : VersionModule :=
  let defaultCtypes := Dict.keys (defaultModule.clone [] []).getComponentsPerCtypes
  let module := (defaultModule.clone [] []).overwrite self false false
  let ctypeComponents := defaultCtypes.foldl addMissingCtype module.getComponentsPerCtypes
  { name := self.name
    components := ctypeComponents.filterMap fun e => getConfigForCtype e.2 dist arch }

/-- One round of the inner loop in `subtract`. -/
def subtractComponent (name ctype : String) (defaultModule : VersionModule)
    (previous : List Component) (c : Component) : Component :=
  let configModule := getConfigModule ⟨name, previous⟩ defaultModule c.dist c.arch
  match (configModule.getComponentsByCtype ctype).head? with
  | some config => c.subtract config.versions
  | none => c

def subtract (self defaultModule : VersionModule) : VersionModule :=
  { self with
    components := (self.clone [] []).getComponentsPerCtypes.flatMap fun e =>
      (previousLoop (subtractComponent self.name e.1 defaultModule) []
        (sortComponents e.2)).filter fun c => c.versions ≠ [] }

end VersionModule

end SonicBuildimage.Versions
