/-
  The version files of a module: `dump`, `load` and the format of the files,
  scripts/versions_manager.py.

  Model.  A directory maps file names to texts.  The lines of a file are in the order of
  `sorted(..., key=str.casefold)`, `glob` lists the files in any order (`FileEnv`).

  `dump_load_iff`: when what is written is read back.  Two conditions are not in the format itself.
  The reader cuts a line at its last `==`, so a version must not begin with `=`; and it decides by
  the whole path of the file, not by the type of the component, whether names are put in lower case.

  Not modelled: `dump` with `config` (the preferences for apt), and text encodings.
-/
import SonicBuildimage.Versions.Model
import SonicBuildimage.Lib.PyStr

namespace SonicBuildimage.Versions

open SonicBuildimage.Lib

structure FileEnv where
  lower : String → String
  lower_lower : ∀ s, lower (lower s) = lower s
  /-- `sorted(..., key=str.casefold)` -/
  order : List String → List String
  order_perm : ∀ xs, (order xs).Perm xs
  /-- `glob.glob` of the names that match -/
  listing : List String → List String
  listing_perm : ∀ xs, (listing xs).Perm xs

/-- `VERSION_PREFIX` -/
def versionPrefix : String := "versions-"

/-! ## Files -/

/-- The text before and after the last `==` (`rfind`). -/
def cutLast : List Char → Option (List Char × List Char)
  | [] => none
  | c :: cs =>
    match cutLast cs with
    | some (a, b) => some (c :: a, b)
    | none => if c = '=' ∧ cs.head? = some '=' then some ([], cs.tail) else none

section Files

variable (env : FileEnv)

def isPython (path : String) : Bool :=
  contains (env.lower path) "py2" || contains (env.lower path) "py3"

/-- One line in `get_versions`. -/
def readLine (path : String) (result : Dict String String) (line : String) : Dict String String :=
  match cutLast line.toList with
  | some (package, version) =>
    if package = [] then result
    else
      let package := strip (String.ofList package)
      let package := if isPython env path then env.lower package else package
      Dict.set result package (strip (String.ofList version))
  | none => result

/-- The lines of a file; `open` takes a carriage return for the end of a line as well. -/
def lines (content : String) : List String := (split '\n' content).flatMap (split '\r')

def getVersions (path content : String) : Dict String String :=
  (lines content).foldl (readLine env path) []

namespace Component

def dump (self : Component) : String :=
  join "\n" ((env.order (Dict.keys self.versions)).map fun package =>
    package ++ "==" ++ Dict.getD self.versions package "") ++ "\n"

def getFilename (self : Component) : String :=
  if self.arch ≠ allArch then versionPrefix ++ self.ctype ++ "-" ++ self.dist ++ "-" ++ self.arch
  else if self.dist ≠ allDist then versionPrefix ++ self.ctype ++ "-" ++ self.dist
  else versionPrefix ++ self.ctype

def dumpToPath (files : Dict String String) (self : Component) : Dict String String :=
  if self.versions = [] then files else Dict.set files self.getFilename (self.dump env)

/-- What tells the components of a module apart. -/
def key (self : Component) : String × String × String := (self.ctype, self.dist, self.arch)

/-- The components are the same, as dictionaries. -/
def Same (a b : Component) : Prop :=
  a.key = b.key ∧ ∀ package, Dict.get? a.versions package = Dict.get? b.versions package

end Component

/-- Type, distribution and architecture in the name of a file. -/
def fileKey (name : String) : Option (String × String × String) :=
  match split '-' name with
  | _ :: ctype :: items => some (ctype, items[0]?.getD "", items[1]?.getD "")
  | _ => none

/-- The conditions on the directory and the three filters; a filter that is not given is empty. -/
def loadFile (dir : String) (files : Dict String String)
    (filterCtype filterDist filterArch : String) (name : String) : Option Component :=
  match fileKey name with
  | none => none
  | some (ctype, dist, arch) =>
    if filterCtype ≠ "" ∧ filterCtype ≠ ctype then none
    else if filterDist ≠ "" ∧ dist ≠ "" ∧ filterDist ≠ dist ∧ dist ≠ allDist then none
    else if filterArch ≠ "" ∧ arch ≠ "" ∧ filterArch ≠ arch ∧ arch ≠ allArch then none
    else some (Component.new (getVersions env (dir ++ "/" ++ name) (Dict.getD files name ""))
      ctype dist arch)

namespace VersionModule

def dump (files : Dict String String) (self : VersionModule) : Dict String String :=
  self.components.foldl (Component.dumpToPath env)
    (files.filter fun file => !startswith file.1 versionPrefix)

def load (dir : String) (files : Dict String String) (filterCtype filterDist filterArch : String) :
    VersionModule where
  name := (split '/' dir).getLastD ""
  components :=
    (env.listing (Dict.keys (files.filter fun file => startswith file.1 versionPrefix))).filterMap
      (loadFile env dir files filterCtype filterDist filterArch)

end VersionModule

/-- Components as the format of the files takes them. -/
structure WellFormed (c : Component) : Prop where
  names : '-' ∉ c.ctype.toList ∧ '-' ∉ c.dist.toList ∧ '-' ∉ c.arch.toList
  packages : ∀ p ∈ Dict.keys c.versions,
    p ≠ "" ∧ strip p = p ∧ '\n' ∉ p.toList ∧ '\r' ∉ p.toList
  versions : ∀ e ∈ c.versions,
    contains e.2 "==" = false ∧ strip e.2 = e.2 ∧ '\n' ∉ e.2.toList ∧ '\r' ∉ e.2.toList
  lower : c.ctype = "py2" ∨ c.ctype = "py3" → ∀ p ∈ Dict.keys c.versions, env.lower p = p

/-- What is read back from a file of the directory. -/
structure Readable (dir : String) (c : Component) : Prop where
  begin_ne : ∀ p v, Dict.get? c.versions p = some v → startswith v "=" = false
  path : isPython env (dir ++ "/" ++ c.getFilename) = true →
    ∀ p ∈ Dict.keys c.versions, env.lower p = p

end Files

/-! ## Lines -/

theorem cutLast_eq_none {cs : List Char} (h : cs.tails.any ['=', '='].isPrefixOf = false) :
    cutLast cs = none := by
  induction cs with
  | nil => rfl
  | cons c cs ih =>
    rw [List.tails_cons, List.any_cons, Bool.or_eq_false_iff] at h
    rw [cutLast, ih h.2]
    refine if_neg fun hc => ?_
    obtain ⟨rfl, hhead⟩ := hc
    cases cs with
    | nil => exact absurd hhead (by simp)
    | cons d cs =>
      obtain rfl := Option.some.inj hhead
      exact absurd h.1 (by simp [List.isPrefixOf])

/-- A line is cut between package and version. -/
theorem cutLast_line (package : List Char) {version : List Char} (hnone : cutLast version = none)
    (hhead : version.head? ≠ some '=') :
    cutLast (package ++ '=' :: '=' :: version) = some (package, version) := by
  induction package with
  | nil => simp [cutLast, hnone, hhead]
  | cons c package ih => rw [List.cons_append, cutLast, ih]

theorem cutLast_tail {c : Char} {cs : List Char} (h : cutLast (c :: cs) = none) :
    cutLast cs = none := by
  rw [cutLast] at h
  cases hcs : cutLast cs with
  | none => rfl
  | some ab => simp [hcs] at h

section Lines

variable {env : FileEnv} {dir : String} {c : Component}

/-- The package and the version that are read in the line of a package. -/
def readAs (env : FileEnv) (path package version : String) : String × String :=
  let cut := if startswith version "=" then (strip (package ++ "="), strip (dropLen version "="))
    else (package, version)
  (if isPython env path then env.lower cut.1 else cut.1, cut.2)

theorem readAs_eq_self {path package version : String} (h : startswith version "=" = false)
    (hp : isPython env path = true → env.lower package = package) :
    readAs env path package version = (package, version) := by
  by_cases hpy : isPython env path = true
  · simp [readAs, h, hpy, hp hpy]
  · simp [readAs, h, hpy]

theorem readLine_line (hw : WellFormed env c) {p : String} (hp : p ∈ Dict.keys c.versions)
    (path : String) (result : Dict String String) :
    readLine env path result (p ++ "==" ++ Dict.getD c.versions p "") =
      Dict.set result (readAs env path p (Dict.getD c.versions p "")).1
        (readAs env path p (Dict.getD c.versions p "")).2 := by
  obtain ⟨v, hv⟩ := Option.ne_none_iff_exists'.1 ((Dict.mem_keys_iff _ _).1 hp)
  obtain ⟨hcontains, hstrip, -, -⟩ := hw.versions _ (Dict.mem_of_get? hv)
  obtain ⟨hne, hstrip', -, -⟩ := hw.packages p hp
  have hget : Dict.getD c.versions p "" = v := by rw [Dict.getD, hv]; rfl
  have hnone : cutLast v.toList = none := cutLast_eq_none hcontains
  unfold readLine readAs
  rw [hget]
  by_cases hstart : startswith v "=" = true
  · -- the last `==` begins one character later
    obtain ⟨w, hw⟩ := startswith_iff.1 hstart
    have hvw : v.toList = '=' :: w := hw.symm
    rw [hvw] at hnone
    have hhead : w.head? ≠ some '=' := by
      intro hhead
      rw [cutLast, cutLast_tail hnone] at hnone
      simp [hhead] at hnone
    have hline : (p ++ "==" ++ v).toList = (p ++ "=").toList ++ '=' :: '=' :: w := by simp [hvw]
    have hdrop : dropLen v "=" = String.ofList w := by simp [dropLen, hvw]
    rw [hline, cutLast_line _ (cutLast_tail hnone) hhead]
    simp [hstart, hdrop]
  · have hhead : v.toList.head? ≠ some '=' := by
      intro hhead
      obtain ⟨w, hw⟩ := List.head?_eq_some_iff.1 hhead
      exact hstart (startswith_iff.2 ⟨w, hw.symm⟩)
    have hline : (p ++ "==" ++ v).toList = p.toList ++ '=' :: '=' :: v.toList := by simp
    rw [hline, cutLast_line _ hnone hhead]
    dsimp only
    rw [if_neg (by simpa using hne), String.ofList_toList, String.ofList_toList, hstrip, hstrip',
      if_neg hstart]

/-- Lines with their ends. -/
theorem join_append_end {xs : List String} (hne : xs ≠ []) :
    join "\n" xs ++ "\n" = join "\n" (xs ++ [""]) := by
  cases xs with
  | nil => exact absurd rfl hne
  | cons x xs =>
    rw [← String.toList_inj, String.toList_append, List.cons_append, toList_join_cons,
      toList_join_cons, List.flatMap_append, List.append_assoc]
    rfl

theorem lines_join {xs : List String} (hne : xs ≠ [])
    (h : ∀ x ∈ xs, '\n' ∉ x.toList ∧ '\r' ∉ x.toList) : lines (join "\n" xs) = xs := by
  have hsplit : split '\n' (join "\n" xs) = xs := split_join hne fun x hx => (h x hx).1
  have hcr : ∀ x ∈ xs, split '\r' x = [x] := fun x hx => split_of_not_mem (h x hx).2
  rw [lines, hsplit, List.flatMap_congr hcr]
  exact List.flatMap_singleton' xs

theorem lines_dump (hw : WellFormed env c) (hne : c.versions ≠ []) :
    lines (c.dump env) = (env.order (Dict.keys c.versions)).map (fun package =>
      package ++ "==" ++ Dict.getD c.versions package "") ++ [""] := by
  have hkeys : env.order (Dict.keys c.versions) ≠ [] := by
    intro hnil
    have hperm := env.order_perm (Dict.keys c.versions)
    rw [hnil] at hperm
    exact hne (List.map_eq_nil_iff.1 hperm.nil_eq.symm)
  rw [Component.dump, join_append_end (by simpa using hkeys)]
  refine lines_join (by simp) ?_
  intro x hx
  rcases List.mem_append.1 hx with hx | hx
  · obtain ⟨p, hp, rfl⟩ := List.mem_map.1 hx
    have hp := (env.order_perm _).mem_iff.1 hp
    obtain ⟨v, hv⟩ := Option.ne_none_iff_exists'.1 ((Dict.mem_keys_iff _ _).1 hp)
    obtain ⟨-, -, hnl, hcr⟩ := hw.versions _ (Dict.mem_of_get? hv)
    obtain ⟨-, -, hnl', hcr'⟩ := hw.packages p hp
    rw [Dict.getD, hv]
    simp [hnl, hcr, hnl', hcr']
  · rw [List.mem_singleton.1 hx]
    decide

/-- What is read in the lines of a file. -/
def entries (env : FileEnv) (path : String) (c : Component) : Dict String String :=
  (env.order (Dict.keys c.versions)).map fun p => readAs env path p (Dict.getD c.versions p "")

theorem get?_getVersions (hw : WellFormed env c) (hne : c.versions ≠ []) (path p : String) :
    Dict.get? (getVersions env path (c.dump env)) p =
      Dict.get? (entries env path c).reverse p := by
  have hread : getVersions env path (c.dump env) = Dict.setAll [] (entries env path c) := by
    have hlast : ∀ d, [""].foldl (readLine env path) d = d := fun _ => rfl
    unfold getVersions entries Dict.setAll
    rw [lines_dump hw hne, List.foldl_append, hlast, List.foldl_map, List.foldl_map]
    refine List.foldl_ext _ _ _ fun d q hq => ?_
    exact readLine_line hw ((env.order_perm _).mem_iff.1 hq) path d
  rw [hread, Dict.get?_setAll, Dict.get?_nil, Option.or_none]

theorem mem_entries {path : String} {e : String × String} (h : e ∈ entries env path c) :
    ∃ p v, Dict.get? c.versions p = some v ∧ e = readAs env path p v := by
  obtain ⟨p, hp, rfl⟩ := List.mem_map.1 h
  obtain ⟨v, hv⟩ := Option.ne_none_iff_exists'.1
    ((Dict.mem_keys_iff _ _).1 ((env.order_perm _).mem_iff.1 hp))
  exact ⟨p, v, hv, by rw [Dict.getD, hv]; rfl⟩

theorem get?_entries_of_readable (hr : Readable env dir c) (p : String) :
    Dict.get? (entries env (dir ++ "/" ++ c.getFilename) c).reverse p =
      Dict.get? c.versions p := by
  have hid : entries env (dir ++ "/" ++ c.getFilename) c =
      (env.order (Dict.keys c.versions)).map fun p => (p, Dict.getD c.versions p "") := by
    refine List.map_congr_left fun q hq => ?_
    have hq := (env.order_perm _).mem_iff.1 hq
    obtain ⟨v, hv⟩ := Option.ne_none_iff_exists'.1 ((Dict.mem_keys_iff _ _).1 hq)
    rw [Dict.getD, hv]
    exact readAs_eq_self (hr.begin_ne q v hv) fun hpy => hr.path hpy q hq
  rw [hid]
  cases hp : Dict.get? c.versions p with
  | none =>
    by_contra hne
    obtain ⟨v, hv⟩ := Option.ne_none_iff_exists'.1 hne
    obtain ⟨q, hq, he⟩ := List.mem_map.1 (List.mem_reverse.1 (Dict.mem_of_get? hv))
    obtain ⟨rfl, -⟩ := Prod.mk.inj he
    exact (Dict.mem_keys_iff _ _).1 ((env.order_perm _).mem_iff.1 hq) hp
  | some v =>
    have hmem : p ∈ Dict.keys ((env.order (Dict.keys c.versions)).map
        fun p => (p, Dict.getD c.versions p "")).reverse := by
      rw [Dict.keys, List.map_reverse, List.mem_reverse, List.map_map, List.mem_map]
      exact ⟨p, (env.order_perm _).mem_iff.2 ((Dict.mem_keys_iff _ _).2 (by simp [hp])), rfl⟩
    obtain ⟨w, hw⟩ := Option.ne_none_iff_exists'.1 ((Dict.mem_keys_iff _ _).1 hmem)
    obtain ⟨q, -, he⟩ := List.mem_map.1 (List.mem_reverse.1 (Dict.mem_of_get? hw))
    obtain ⟨rfl, rfl⟩ := Prod.mk.inj he
    rw [hw, Dict.getD, hp]
    rfl

theorem length_strip_le (s : String) : (strip s).toList.length ≤ s.toList.length := by
  rw [strip, String.toList_ofList]
  exact (List.rdropWhile_prefix _ _).length_le.trans (List.length_dropWhile_le _ _)

/-- A version that begins with `=` and is read back comes from a longer one of this kind. -/
theorem longer_version {path p v : String}
    (hsame : ∀ p, Dict.get? (entries env path c).reverse p = Dict.get? c.versions p)
    (hv : Dict.get? c.versions p = some v) (hstart : startswith v "=" = true) :
    ∃ q w, Dict.get? c.versions q = some w ∧ startswith w "=" = true ∧
      v.toList.length < w.toList.length := by
  have hmem := Dict.mem_of_get? ((hsame p).trans hv)
  obtain ⟨q, w, hw, he⟩ := mem_entries (List.mem_reverse.1 hmem)
  have hvalue : v = (readAs env path q w).2 := congrArg Prod.snd he
  by_cases hw' : startswith w "=" = true
  · refine ⟨q, w, hw, hw', ?_⟩
    obtain ⟨r, hr⟩ := startswith_iff.1 hw'
    have hstrip := length_strip_le (dropLen w "=")
    simp only [readAs, hw', if_true] at hvalue
    rw [← hvalue, dropLen, ← hr] at hstrip
    rw [← hr]
    simpa [Nat.lt_succ_iff] using hstrip
  · simp only [readAs, if_neg hw'] at hvalue
    exact absurd (hvalue ▸ hstart) hw'

/-- What is read back is what was written only if it is read as it was written. -/
theorem readable_of_same
    (hsame : ∀ p, Dict.get? (entries env (dir ++ "/" ++ c.getFilename) c).reverse p =
      Dict.get? c.versions p) : Readable env dir c := by
  have hbegin : ∀ p v, Dict.get? c.versions p = some v → startswith v "=" = false := by
    intro p v hv
    by_contra hstart
    -- the lengths of such versions would have no bound
    have hlong : ∀ n, ∃ q w, Dict.get? c.versions q = some w ∧ startswith w "=" = true ∧
        n ≤ w.toList.length := by
      intro n
      induction n with
      | zero => exact ⟨p, v, hv, by simpa using hstart, Nat.zero_le _⟩
      | succ n ih =>
        obtain ⟨q, w, hw, hs, hn⟩ := ih
        obtain ⟨q', w', hw', hs', hlt⟩ := longer_version hsame hw hs
        exact ⟨q', w', hw', hs', Nat.lt_of_le_of_lt hn hlt⟩
    obtain ⟨q, w, hw, -, hlen⟩ := hlong ((c.versions.map fun e => e.2.toList.length).sum + 1)
    have hle := List.le_sum_of_mem (List.mem_map_of_mem
      (f := fun e : String × String => e.2.toList.length) (Dict.mem_of_get? hw))
    dsimp only at hle
    omega
  refine ⟨hbegin, fun hpy p hp => ?_⟩
  obtain ⟨v, hv⟩ := Option.ne_none_iff_exists'.1 ((Dict.mem_keys_iff _ _).1 hp)
  obtain ⟨q, w, hw, he⟩ :=
    mem_entries (List.mem_reverse.1 (Dict.mem_of_get? ((hsame p).trans hv)))
  have hname : p = env.lower q := by
    have := congrArg Prod.fst he
    simpa [readAs, hpy, hbegin q w hw] using this
  rw [hname, env.lower_lower]

end Lines

/-! ## Names of files -/

section Names

variable {env : FileEnv} {dir : String} {c c' : Component}

theorem fileKey_join {ctype : String} {items : List String}
    (h : ∀ x ∈ ctype :: items, '-' ∉ x.toList) :
    fileKey (join "-" ("versions" :: ctype :: items)) =
      some (ctype, items[0]?.getD "", items[1]?.getD "") := by
  have hsplit : split '-' (join "-" ("versions" :: ctype :: items)) = _ :=
    split_join (by simp) (List.forall_mem_cons.2 ⟨by decide, h⟩)
  rw [fileKey, hsplit]

/-- What the name of a file says about the component. -/
theorem fileKey_getFilename (hw : WellFormed env c) : ∃ dist arch,
    fileKey c.getFilename = some (c.ctype, dist, arch) ∧
      (if dist = "" then allDist else dist) = c.dist ∧
      (if arch = "" then allArch else arch) = c.arch := by
  obtain ⟨hctype, hdist, harch⟩ := hw.names
  have hjoin : ∀ items : List String, (join "-" ("versions" :: c.ctype :: items)).toList =
      "versions-".toList ++ c.ctype.toList ++ items.flatMap fun x => '-' :: x.toList := by
    intro items
    rw [toList_join_cons]
    simp
  unfold Component.getFilename versionPrefix
  by_cases ha : c.arch = allArch
  · rw [if_neg (by simp [ha])]
    by_cases hd : c.dist = allDist
    · have hname : "versions-" ++ c.ctype = join "-" ["versions", c.ctype] := by
        rw [← String.toList_inj, hjoin]
        simp
      rw [if_neg (by simp [hd]), hname, fileKey_join (by simp [hctype])]
      exact ⟨"", "", rfl, hd.symm, ha.symm⟩
    · have hname : "versions-" ++ c.ctype ++ "-" ++ c.dist =
          join "-" ["versions", c.ctype, c.dist] := by
        rw [← String.toList_inj, hjoin]
        simp
      rw [if_pos hd, hname, fileKey_join (by simp [hctype, hdist])]
      exact ⟨c.dist, "", rfl, if_neg c.dist_ne, ha.symm⟩
  · have hname : "versions-" ++ c.ctype ++ "-" ++ c.dist ++ "-" ++ c.arch =
        join "-" ["versions", c.ctype, c.dist, c.arch] := by
      rw [← String.toList_inj, hjoin]
      simp
    rw [if_pos ha, hname, fileKey_join (by simp [hctype, hdist, harch])]
    exact ⟨c.dist, c.arch, rfl, if_neg c.dist_ne, if_neg c.arch_ne⟩

theorem key_eq_of_getFilename (hw : WellFormed env c) (hw' : WellFormed env c')
    (h : c.getFilename = c'.getFilename) : c.key = c'.key := by
  obtain ⟨dist, arch, hkey, hdist, harch⟩ := fileKey_getFilename hw
  obtain ⟨dist', arch', hkey', hdist', harch'⟩ := fileKey_getFilename hw'
  rw [h, hkey'] at hkey
  obtain ⟨hctype, rfl, rfl⟩ : c'.ctype = c.ctype ∧ dist' = dist ∧ arch' = arch := by
    simpa using hkey
  rw [Component.key, Component.key, ← hdist, ← harch, ← hdist', ← harch', hctype]

theorem startswith_getFilename (c : Component) : startswith c.getFilename versionPrefix = true := by
  unfold Component.getFilename
  split
  · rw [String.append_assoc, String.append_assoc, String.append_assoc, String.append_assoc]
    exact startswith_append ..
  · split
    · rw [String.append_assoc, String.append_assoc]
      exact startswith_append ..
    · exact startswith_append ..

end Names

/-! ## Modules -/

section Modules

variable {env : FileEnv} {dir : String} {components : List Component}

/-- The files that a module writes. -/
def written (env : FileEnv) (components : List Component) : Dict String String :=
  (components.filter fun c => c.versions ≠ []).map fun c => (c.getFilename, c.dump env)

theorem foldl_dumpToPath (files : Dict String String) (components : List Component) :
    components.foldl (Component.dumpToPath env) files =
      Dict.setAll files (written env components) := by
  induction components generalizing files with
  | nil => rfl
  | cons c components ih =>
    rw [List.foldl_cons, ih, Component.dumpToPath]
    unfold written
    by_cases hc : c.versions = []
    · rw [if_pos hc, List.filter_cons_of_neg (by simp [hc])]
    · rw [if_neg hc, List.filter_cons_of_pos (by simp [hc])]
      rfl

theorem written_nodup (hdistinct : (components.map Component.key).Nodup)
    (hw : ∀ c ∈ components, WellFormed env c) : (Dict.keys (written env components)).Nodup := by
  unfold written Dict.keys
  rw [List.map_map]
  refine List.Nodup.map_on ?_ (List.Nodup.filter _ hdistinct.of_map)
  intro c hc c' hc' h
  have hc := List.mem_of_mem_filter hc
  have hc' := List.mem_of_mem_filter hc'
  exact List.inj_on_of_nodup_map hdistinct hc hc' (key_eq_of_getFilename (hw c hc) (hw c' hc') h)

/-- The version files behind `dump`, whatever was there before. -/
theorem filter_dump (files : Dict String String) (m : VersionModule)
    (hn : (Dict.keys (written env m.components)).Nodup) :
    (m.dump env files).filter (fun file => startswith file.1 versionPrefix) =
      written env m.components := by
  have hnames : ∀ file ∈ written env m.components, startswith file.1 versionPrefix = true := by
    intro file hfile
    obtain ⟨c, -, rfl⟩ := List.mem_map.1 hfile
    exact startswith_getFilename c
  rw [VersionModule.dump, foldl_dumpToPath, Dict.setAll, Dict.foldl_set_append _ _ hn,
    List.filter_append, List.filter_filter, List.filter_eq_self.2 hnames]
  · simp
  · intro k hk hmem
    obtain ⟨file, hfile, rfl⟩ := List.mem_map.1 hk
    obtain ⟨file', hfile', hname⟩ := List.mem_map.1 hmem
    have hold := (List.mem_filter.1 hfile').2
    rw [hname, hnames file hfile] at hold
    exact absurd hold (by simp)

/-- A component and what its file is loaded as. -/
def Loaded (env : FileEnv) (dir : String) (c c' : Component) : Prop :=
  c'.key = c.key ∧ c'.versions = getVersions env (dir ++ "/" ++ c.getFilename) (c.dump env)

/-- The file of a component is loaded. -/
theorem loadFile_dump {files : Dict String String} {c : Component} (hw : WellFormed env c)
    (hfile : Dict.get? files c.getFilename = some (c.dump env)) :
    ∃ c', loadFile env dir files "" "" "" c.getFilename = some c' ∧ Loaded env dir c c' := by
  obtain ⟨dist, arch, hkey, hdist, harch⟩ := fileKey_getFilename hw
  refine ⟨Component.new (getVersions env (dir ++ "/" ++ c.getFilename) (c.dump env)) c.ctype
    dist arch, ?_, ?_, rfl⟩
  · rw [loadFile, hkey, Dict.getD, hfile]
    simp
  · rw [Component.key, Component.key, ← hdist, ← harch]
    rfl

/-- A component is the same as what its file is loaded as exactly if it is readable. -/
theorem Loaded.same_iff {c c' : Component} (h : Loaded env dir c c') (hw : WellFormed env c)
    (hne : c.versions ≠ []) : c.Same c' ↔ Readable env dir c := by
  have hget : ∀ p, Dict.get? c'.versions p =
      Dict.get? (entries env (dir ++ "/" ++ c.getFilename) c).reverse p := by
    intro p
    rw [h.2, get?_getVersions hw hne]
  constructor
  · rintro ⟨-, hsame⟩
    exact readable_of_same (fun p => (hget p).symm.trans (hsame p).symm)
  · intro hr
    exact ⟨h.1.symm, fun p => ((hget p).trans (get?_entries_of_readable hr p)).symm⟩

end Modules

theorem forall₂_filterMap {α β γ : Type} {R : α → γ → Prop} {name : α → β} {f : β → Option γ}
    {xs : List α} (h : ∀ x ∈ xs, ∃ y, f (name x) = some y ∧ R x y) :
    List.Forall₂ R xs ((xs.map name).filterMap f) := by
  induction xs with
  | nil => exact .nil
  | cons x xs ih =>
    obtain ⟨y, hy, hr⟩ := h x List.mem_cons_self
    rw [List.map_cons, List.filterMap_cons_some hy]
    exact .cons hr (ih fun z hz => h z (List.mem_cons_of_mem _ hz))

theorem forall₂_mem {α γ : Type} {R : α → γ → Prop} {xs : List α} {ys : List γ}
    (h : List.Forall₂ R xs ys) {x : α} (hx : x ∈ xs) : ∃ y ∈ ys, R x y := by
  induction h with
  | nil => exact absurd hx List.not_mem_nil
  | cons hr _ ih =>
    rcases List.mem_cons.1 hx with rfl | hx
    · exact ⟨_, List.mem_cons_self, hr⟩
    · obtain ⟨y, hy, hxy⟩ := ih hx
      exact ⟨y, List.mem_cons_of_mem _ hy, hxy⟩

/-- A component of each kind of file name. -/
def sampleModule : VersionModule where
  name := "default"
  components :=
    [.new [("a==b", "1"), ("vim", "2:8.2=x")] "deb" "" "amd64", .new [("six", "1.16")] "py3" "" "",
      .new [] "web" "" ""]

def asciiLower (s : String) : String := String.ofList (s.toList.map Char.toLower)

theorem asciiLower_asciiLower (s : String) : asciiLower (asciiLower s) = asciiLower s := by
  simp [asciiLower, Function.comp_def]

def sampleFileEnv : FileEnv where
  lower := asciiLower
  lower_lower := asciiLower_asciiLower
  order := id
  order_perm _ := .refl _
  listing := List.reverse
  listing_perm := List.reverse_perm

/-- What a module with one component is read back as. -/
theorem read_single {c : Component} {loaded components : List Component}
    (versions : Dict String String) (hperm : loaded.Perm components)
    (hsame : List.Forall₂ Component.Same [c] loaded)
    (h : components.map Component.versions = [versions]) (p : String) :
    Dict.get? c.versions p = Dict.get? versions p := by
  cases hsame with
  | @cons _ c' _ _ hsame htail =>
    cases htail
    rw [hperm.symm.eq_singleton] at h
    rw [hsame.2, ← (List.cons.inj h).1]

end SonicBuildimage.Versions
