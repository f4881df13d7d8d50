/-
  The canonical form of an FRR configuration (`bgpcfgd/config.py`: `to_canonical`,
  `from_canonical`, `count_spaces`).

  Model (read this before the theorems).
  * A text is a `String`; lines are cut at line feeds, and comments and blank lines are dropped.
  * `canonicalLine` is the loop body, on `cur_path`, `cur_offset` and `parsed_config`.
    `cur_path` has an element at every assignment to `cur_path[-1]`.
  * What a line is to be given is stated apart from the loop: the enclosing lines
    (`Lib.Outline`) and the line itself (`pathsFrom`).

  When the indentation drops, the loop takes one level off the path, however far it drops.  So
  after a block two levels deep, a line at column 0 is left inside the outer one
  (`line_left_inside`).

  Proved: `canonical_iff`.  Every line gets its enclosing lines exactly if the indentation also
  drops by one level at a time, and `from_canonical` then gives the lines back exactly if the
  indentation is made of spaces and no line ends in a blank.
-/
import SonicBuildimage.Lib.Outline
import SonicBuildimage.Lib.PyStr

namespace SonicBuildimage.Bgpcfgd.Canonical

open SonicBuildimage.Lib

/-- `count_spaces` -/
def countSpaces (line : String) : Nat :=
  line.toList.length - (line.toList.dropWhile isspace).length

/-- The lines of `to_canonical` that are not comments or blank. -/
def configLines (rawConfig : String) : List String :=
  (split '\n' rawConfig).filter fun line =>
    ¬ startswith (strip line) "!" ∧ strip line ≠ ""

/-- The variables of the loop of `to_canonical`. -/
structure Loop where
  curPath : List String
  curOffset : Nat
  parsedConfig : List (List String) := []

/-- The loop body of `to_canonical`. -/
def canonicalLine (s : Loop) (line : String) : Loop :=
  let nSpaces := countSpaces line
  let sLine := strip line
  let curPath :=
    if nSpaces = s.curOffset then s.curPath.dropLast ++ [sLine]
    else if nSpaces > s.curOffset then s.curPath ++ [sLine]
    else s.curPath.take (s.curPath.length - 2) ++ [sLine]
  ⟨curPath, nSpaces, s.parsedConfig ++ [curPath]⟩

/-- `to_canonical` -/
def toCanonical (rawConfig : String) : List (List String) :=
  match configLines rawConfig with
  | [] => []
  | first :: rest =>
    ((first :: rest).foldl canonicalLine ⟨[first], countSpaces first, []⟩).parsedConfig

/-- `from_canonical` -/
def fromCanonical (canonicalConfig : List (List String)) : String :=
  canonicalConfig.foldl
    (fun out lines =>
      out ++ (String.ofList (List.replicate (lines.length - 1) ' ') ++ lines.getLastD "" ++ "\n"))
    ""

/-! ## What is to come out -/

/-- A line and the lines around it. -/
def path (earlier : List String) (line : String) : List String :=
  (enclosing countSpaces (countSpaces line) earlier ++ [line]).map strip

/-- The paths of the lines that follow `earlier` (the nearest first). -/
def pathsFrom (earlier : List String) : List String → List (List String)
  | [] => []
  | line :: lines => path earlier line :: pathsFrom (line :: earlier) lines

/-- The first line is at column 0, and the indentation grows by one level at a time. -/
def Growing : List String → Prop
  | [] => True
  | first :: rest => countSpaces first = 0 ∧
      (first :: rest).IsChain fun a b => countSpaces b ≤ countSpaces a + 1

/-- The indentation drops by one level at a time. -/
def DropsByOne (lines : List String) : Prop :=
  lines.IsChain fun a b => countSpaces a ≤ countSpaces b + 1

instance : DecidablePred Growing
  | [] => isTrue trivial
  | _ :: _ => inferInstanceAs (Decidable (_ ∧ _))

instance : DecidablePred DropsByOne := fun _ => inferInstanceAs (Decidable (List.IsChain _ _))

/-- The line that `from_canonical` prints for a line. -/
def printed (line : String) : String :=
  String.ofList (List.replicate (countSpaces line) ' ') ++ strip line

/-- The indentation is made of spaces, and nothing blank follows the line. -/
def Spaced (line : String) : Prop := line = printed line

instance : DecidablePred Spaced := fun _ => inferInstanceAs (Decidable (_ = _))

/-! ## The loop -/

theorem dropLast_path (earlier : List String) (line : String) :
    (path earlier line).dropLast =
      (enclosing countSpaces (countSpaces line) earlier).map strip := by
  rw [path, List.map_append, List.map_singleton, List.dropLast_concat]

/-- One line: the path of the line before becomes its own. -/
theorem curPath_canonicalLine {earlier : List String} {prev line : String} {s : Loop}
    (hnested : Nested countSpaces (prev :: earlier)) (hpath : s.curPath = path earlier prev)
    (hoffset : s.curOffset = countSpaces prev) (hgrow : countSpaces line ≤ countSpaces prev + 1)
    (hdrop : countSpaces prev ≤ countSpaces line + 1) :
    (canonicalLine s line).curPath = path (prev :: earlier) line := by
  have hself : path (prev :: earlier) line =
      (enclosing countSpaces (countSpaces line) (prev :: earlier)).map strip ++ [strip line] := by
    rw [path, List.map_append, List.map_singleton]
  rw [hself]
  simp only [canonicalLine, hoffset, hpath]
  rcases Nat.lt_trichotomy (countSpaces line) (countSpaces prev) with hlt | heq | hgt
  · -- one level out: the parent of the line before goes as well
    rw [if_neg (by omega), if_neg (by omega)]
    have htake : (path earlier prev).take ((path earlier prev).length - 2) =
        (path earlier prev).dropLast.dropLast := by
      rw [List.dropLast_eq_take, List.dropLast_eq_take, List.length_take, List.take_take]
      congr 1
      omega
    have hlevel : countSpaces prev = countSpaces line + 1 := by omega
    rw [htake, dropLast_path, hlevel, enclosing_of_le (by omega)]
    cases earlier with
    | nil =>
      have hzero : countSpaces prev = 0 := hnested
      omega
    | cons e earlier =>
      obtain ⟨he, hrest⟩ := hnested
      have hpred : enclosing countSpaces (countSpaces line) (e :: earlier) =
          (enclosing countSpaces (countSpaces line + 1) (e :: earlier)).dropLast :=
        enclosing_pred hrest (by omega)
      rw [hpred, List.map_dropLast]
  · rw [if_pos heq, dropLast_path, heq, enclosing_of_le (Nat.le_refl _)]
  · rw [if_neg (by omega), if_pos hgt, enclosing_of_lt hgt]
    rfl

/-- As many lines around a line as it has spaces. -/
theorem length_path {earlier : List String} {line : String}
    (h : Nested countSpaces (line :: earlier)) :
    (path earlier line).length = countSpaces line + 1 := by
  rw [path, List.length_map, List.length_append, List.length_singleton]
  cases earlier with
  | nil =>
    have hzero : countSpaces line = 0 := h
    rw [hzero]
    rfl
  | cons e earlier => rw [length_enclosing h.2 h.1]

/-- Two levels out or more: the path is too long. -/
theorem curPath_left_inside {earlier : List String} {prev line : String} {s : Loop}
    (hnested : Nested countSpaces (prev :: earlier)) (hpath : s.curPath = path earlier prev)
    (hoffset : s.curOffset = countSpaces prev) (hgrow : countSpaces line ≤ countSpaces prev + 1)
    (hdrop : ¬countSpaces prev ≤ countSpaces line + 1) :
    (canonicalLine s line).curPath ≠ path (prev :: earlier) line := by
  intro h
  have hlen := congrArg List.length h
  rw [length_path (hnested.cons hgrow)] at hlen
  simp only [canonicalLine, hoffset, hpath] at hlen
  rw [if_neg (by omega), if_neg (by omega), List.length_append, List.length_take,
    length_path hnested, List.length_singleton] at hlen
  omega

theorem parsedConfig_foldl (lines : List String) (s : Loop) :
    s.parsedConfig <+: (lines.foldl canonicalLine s).parsedConfig := by
  induction lines generalizing s with
  | nil => exact List.prefix_rfl
  | cons line lines ih =>
    exact (List.prefix_append _ [(canonicalLine s line).curPath]).trans (ih (canonicalLine s line))

/-- All lines. -/
theorem foldl_canonicalLine_iff {lines earlier : List String} {prev : String} {s : Loop}
    (hnested : Nested countSpaces (prev :: earlier)) (hpath : s.curPath = path earlier prev)
    (hoffset : s.curOffset = countSpaces prev)
    (hgrow : (prev :: lines).IsChain fun a b => countSpaces b ≤ countSpaces a + 1) :
    (lines.foldl canonicalLine s).parsedConfig =
      s.parsedConfig ++ pathsFrom (prev :: earlier) lines ↔ DropsByOne (prev :: lines) := by
  induction lines generalizing prev earlier s with
  | nil => simp [pathsFrom, DropsByOne]
  | cons line lines ih =>
    obtain ⟨hg, hgrow⟩ := List.isChain_cons_cons.1 hgrow
    have hparsed : (canonicalLine s line).parsedConfig =
        s.parsedConfig ++ [(canonicalLine s line).curPath] := rfl
    rw [List.foldl_cons, pathsFrom, DropsByOne, List.isChain_cons_cons]
    by_cases hd : countSpaces prev ≤ countSpaces line + 1
    · have hline := curPath_canonicalLine hnested hpath hoffset hg hd
      rw [and_iff_right hd, ← DropsByOne, ← ih (hnested.cons hg) hline rfl hgrow, hparsed, hline,
        List.append_assoc, List.singleton_append]
    · refine iff_of_false (fun h => ?_) fun h => hd h.1
      obtain ⟨r, hr⟩ := parsedConfig_foldl lines (canonicalLine s line)
      rw [← hr, hparsed, List.append_assoc, List.append_cancel_left_eq, List.singleton_append,
        List.cons.injEq] at h
      exact curPath_left_inside hnested hpath hoffset hg hd h.1

theorem toCanonical_eq_iff {rawConfig : String} (hgrow : Growing (configLines rawConfig)) :
    toCanonical rawConfig = pathsFrom [] (configLines rawConfig) ↔
      DropsByOne (configLines rawConfig) := by
  rw [toCanonical]
  cases hlines : configLines rawConfig with
  | nil => simp [pathsFrom, DropsByOne]
  | cons first rest =>
    rw [hlines] at hgrow
    have hfirst : canonicalLine ⟨[first], countSpaces first, []⟩ first =
        ⟨path [] first, countSpaces first, [path [] first]⟩ := by
      simp [canonicalLine, path, enclosing]
    simp only [List.foldl_cons, hfirst]
    exact foldl_canonicalLine_iff (s := ⟨path [] first, countSpaces first, [path [] first]⟩)
      hgrow.1 rfl rfl hgrow.2

/-! ## The way back -/

/-- The text that `from_canonical` makes of one path. -/
def pathText (lines : List String) : String :=
  String.ofList (List.replicate (lines.length - 1) ' ') ++ lines.getLastD "" ++ "\n"

theorem pathText_path {earlier : List String} {line : String}
    (h : Nested countSpaces (line :: earlier)) :
    pathText (path earlier line) = printed line ++ "\n" := by
  have hlast : (path earlier line).getLastD "" = strip line := by
    rw [path, List.map_append, List.map_singleton, List.getLastD_concat]
  rw [pathText, length_path h, hlast, Nat.add_sub_cancel, printed]

theorem map_pathText {lines earlier : List String} {prev : String}
    (hnested : Nested countSpaces (prev :: earlier))
    (hgrow : (prev :: lines).IsChain fun a b => countSpaces b ≤ countSpaces a + 1) :
    (pathsFrom (prev :: earlier) lines).map pathText = lines.map fun l => printed l ++ "\n" := by
  induction lines generalizing prev earlier with
  | nil => rfl
  | cons line lines ih =>
    obtain ⟨hg, hgrow⟩ := List.isChain_cons_cons.1 hgrow
    have hline := hnested.cons hg
    rw [pathsFrom, List.map_cons, List.map_cons, pathText_path hline, ih hline hgrow]

theorem fromCanonical_pathsFrom {lines : List String} (hgrow : Growing lines) :
    fromCanonical (pathsFrom [] lines) = String.join (lines.map fun l => printed l ++ "\n") := by
  have hmap : (pathsFrom [] lines).map pathText = lines.map fun l => printed l ++ "\n" := by
    cases lines with
    | nil => rfl
    | cons first rest =>
      have hfirst : Nested countSpaces [first] := hgrow.1
      rw [pathsFrom, List.map_cons, List.map_cons, pathText_path hfirst,
        map_pathText hfirst hgrow.2]
  rw [← hmap]
  exact (List.foldl_map ..).symm

theorem not_mem_printed {line : String} (h : '\n' ∉ line.toList) :
    '\n' ∉ (printed line).toList := by
  rw [printed, String.toList_append, String.toList_ofList, List.mem_append, not_or]
  refine ⟨fun hm => absurd (List.eq_of_mem_replicate hm) (by decide), fun hm => h ?_⟩
  rw [strip, String.toList_ofList] at hm
  exact (List.dropWhile_sublist _).mem ((List.rdropWhile_prefix _ _).mem hm)

/-- Texts without line feeds can be told apart in a text with a line feed after each. -/
theorem join_lines_iff {f : String → String} {lines : List String}
    (h : ∀ l ∈ lines, '\n' ∉ l.toList ∧ '\n' ∉ (f l).toList) :
    String.join (lines.map fun l => f l ++ "\n") = String.join (lines.map (· ++ "\n")) ↔
      ∀ l ∈ lines, l = f l := by
  induction lines with
  | nil => simp
  | cons l lines ih =>
    rw [List.forall_mem_cons] at h ⊢
    rw [← ih h.2]
    simp only [List.map_cons, String.join_cons, ← String.toList_inj, String.toList_append]
    constructor
    · intro heq
      simp only [List.append_assoc] at heq
      obtain ⟨hl, hrest⟩ := append_cons_inj h.1.2 h.1.1 heq
      exact ⟨hl.symm, hrest⟩
    · rintro ⟨hl, hrest⟩
      rw [← hl, hrest]

/-- Every line gets its enclosing lines if and only if the indentation drops by one level at a time;
    the lines then also come back if and only if each is its spaces and its stripped text. -/
theorem canonical_iff {rawConfig : String} (hgrow : Growing (configLines rawConfig)) :
    (toCanonical rawConfig = pathsFrom [] (configLines rawConfig) ↔
      DropsByOne (configLines rawConfig)) ∧
    (toCanonical rawConfig = pathsFrom [] (configLines rawConfig) ∧
        fromCanonical (toCanonical rawConfig) =
          String.join ((configLines rawConfig).map (· ++ "\n")) ↔
      DropsByOne (configLines rawConfig) ∧ ∀ line ∈ configLines rawConfig, Spaced line) := by
  have hto := toCanonical_eq_iff hgrow
  refine ⟨hto, ?_⟩
  rw [← hto, and_congr_right_iff]
  intro heq
  rw [heq, fromCanonical_pathsFrom hgrow]
  refine join_lines_iff fun l hl => ?_
  have hl : '\n' ∉ l.toList := not_mem_of_mem_split (List.mem_of_mem_filter hl)
  exact ⟨hl, not_mem_printed hl⟩

/-- A block two levels deep that is left one level at a time, with a comment after it. -/
theorem canonical_two_levels :
    toCanonical "router bgp 1\n address-family ipv4\n  maximum-paths 4\n exit\n!\nline vty" =
        [["router bgp 1"], ["router bgp 1", "address-family ipv4"],
          ["router bgp 1", "address-family ipv4", "maximum-paths 4"], ["router bgp 1", "exit"],
          ["line vty"]] ∧
      fromCanonical (toCanonical
        "router bgp 1\n address-family ipv4\n  maximum-paths 4\n exit\n!\nline vty") =
        "router bgp 1\n address-family ipv4\n  maximum-paths 4\n exit\nline vty\n" := by
  have hlines : configLines
      "router bgp 1\n address-family ipv4\n  maximum-paths 4\n exit\n!\nline vty" =
        ["router bgp 1", " address-family ipv4", "  maximum-paths 4", " exit", "line vty"] := by
    decide +kernel
  have hgrow : Growing (configLines
      "router bgp 1\n address-family ipv4\n  maximum-paths 4\n exit\n!\nline vty") := by
    rw [hlines]
    decide +kernel
  obtain ⟨hto, hfrom⟩ := (canonical_iff hgrow).2.2 (by rw [hlines]; decide +kernel)
  rw [hlines] at hto hfrom
  exact ⟨hto.trans (by decide +kernel), hfrom.trans (by decide +kernel)⟩

/-- Two levels are left at once: the last line is given an enclosing line that it does not have. -/
theorem line_left_inside :
    configLines "router bgp 1\n address-family ipv4\n  maximum-paths 4\nline vty" =
        ["router bgp 1", " address-family ipv4", "  maximum-paths 4", "line vty"] ∧
      toCanonical "router bgp 1\n address-family ipv4\n  maximum-paths 4\nline vty" =
        [["router bgp 1"], ["router bgp 1", "address-family ipv4"],
          ["router bgp 1", "address-family ipv4", "maximum-paths 4"],
          ["router bgp 1", "line vty"]] ∧
      (pathsFrom [] ["router bgp 1", " address-family ipv4", "  maximum-paths 4",
        "line vty"]).getLast? = some ["line vty"] ∧
      fromCanonical (toCanonical
        "router bgp 1\n address-family ipv4\n  maximum-paths 4\nline vty") =
        "router bgp 1\n address-family ipv4\n  maximum-paths 4\n line vty\n" := by
  decide +kernel

end SonicBuildimage.Bgpcfgd.Canonical
