/-
  Python string operations on `String`: `split` at one character, `strip`, `join`, and
  the round trip between a list of texts and the separated text it is stored as.

  Everything is computed on the list of characters, so closed terms evaluate with
  `decide`. `isspace` is the set of characters that `str.strip()` removes.
-/
import Mathlib

namespace SonicBuildimage.Lib

/-- `str.isspace` on one character: the characters `str.strip()` removes. -/
def isspace (c : Char) : Bool :=
  let n := c.toNat
  (9 ≤ n && n ≤ 13) || (28 ≤ n && n ≤ 32) || n == 0x85 || n == 0xa0 || n == 0x1680 ||
    (0x2000 ≤ n && n ≤ 0x200a) || n == 0x2028 || n == 0x2029 || n == 0x202f || n == 0x205f ||
    n == 0x3000

/-- `s.split(c)` for a one-character separator. -/
def split (c : Char) (s : String) : List String :=
  (s.toList.splitOn c).map String.ofList

/-- `s.strip()`. -/
def strip (s : String) : String :=
  String.ofList ((s.toList.dropWhile isspace).rdropWhile isspace)

/-- `s.split()`: the words of a text. -/
def splitWords (s : String) : List String :=
  ((s.toList.splitOnP isspace).filter fun w => !w.isEmpty).map String.ofList

/-- `sep.join(xs)`. -/
def join (sep : String) (xs : List String) : String :=
  String.ofList (sep.toList.intercalate (xs.map String.toList))

/-- `s.replace(a, b)` for one-character texts. -/
def replace (a b : Char) (s : String) : String :=
  String.ofList (s.toList.map fun c => if c = a then b else c)

/-- `s.startswith(p)`. -/
def startswith (s p : String) : Bool := p.toList.isPrefixOf s.toList

/-- `s.endswith(p)`. -/
def endswith (s p : String) : Bool := p.toList.isSuffixOf s.toList

/-- `s[len(p):]`. -/
def dropLen (s p : String) : String := String.ofList (s.toList.drop p.toList.length)

/-- `sub in s`. -/
def contains (s sub : String) : Bool := s.toList.tails.any sub.toList.isPrefixOf

/-- The text before and after the first occurrence of `sep`. -/
def cutFirst (sep : List Char) : List Char → Option (List Char × List Char)
  | [] => if sep = [] then some ([], []) else none
  | c :: cs =>
    if sep.isPrefixOf (c :: cs) then some ([], (c :: cs).drop sep.length)
    else (cutFirst sep cs).map fun (a, b) => (c :: a, b)

/-- `s.split(sep, 1)` when `sep` occurs in `s`. -/
def splitOnce (sep s : String) : Option (String × String) :=
  (cutFirst sep.toList s.toList).map fun (a, b) => (String.ofList a, String.ofList b)

/-- A text is cut at the first of a character. -/
theorem cutFirst_singleton {c : Char} {cs a b : List Char} :
    cutFirst [c] cs = some (a, b) ↔ c ∉ a ∧ cs = a ++ c :: b := by
  induction cs generalizing a b with
  | nil => simp [cutFirst]
  | cons x cs ih =>
    by_cases hx : c = x
    · subst hx
      cases a with
      | nil => simp [cutFirst]
      | cons y a => simp +contextual [cutFirst, eq_comm]
    · have hfirst : [c].isPrefixOf (x :: cs) = false := by
        rw [List.isPrefixOf, beq_eq_false_iff_ne.2 hx, Bool.false_and]
      rw [cutFirst, hfirst, if_neg (by decide), Option.map_eq_some_iff]
      cases a with
      | nil => simp [Ne.symm hx]
      | cons y a =>
        simp only [Prod.exists, Prod.mk.injEq, List.cons.injEq, List.mem_cons, not_or,
          List.cons_append, ih]
        constructor
        · rintro ⟨a', b', ⟨ha, rfl⟩, ⟨rfl, rfl⟩, rfl⟩
          exact ⟨⟨hx, ha⟩, rfl, rfl⟩
        · rintro ⟨⟨-, ha⟩, rfl, rfl⟩
          exact ⟨a, b, ⟨ha, rfl⟩, ⟨rfl, rfl⟩, rfl⟩

theorem cutFirst_singleton_none {c : Char} {cs : List Char} :
    cutFirst [c] cs = none ↔ c ∉ cs := by
  induction cs with
  | nil => simp [cutFirst]
  | cons x cs ih =>
    by_cases hx : c = x
    · simp [cutFirst, hx]
    · simp [cutFirst, hx, ih]

/-- Delete every occurrence of `sub`, from the left; `skip` characters of one are left. -/
def deleteAll (sub : List Char) : Nat → List Char → List Char
  | _, [] => []
  | skip + 1, _ :: cs => deleteAll sub skip cs
  | 0, c :: cs =>
    if sub.isPrefixOf (c :: cs) then deleteAll sub (sub.length - 1) cs
    else c :: deleteAll sub 0 cs

/-- `s.replace(sub, '')` for a text `sub` that is not empty. -/
def remove (sub s : String) : String := String.ofList (deleteAll sub.toList 0 s.toList)

/-- `int(s)` of a text of ASCII digits; `none` when `s.isdigit()` is false. -/
def decimal (s : String) : Option Nat :=
  if s ≠ "" ∧ s.toList.all Char.isDigit then some (Nat.ofDigitChars 10 s.toList 0) else none

/-- Reading a printed number. -/
theorem decimal_repr (n : Nat) : decimal (toString n) = some n := by
  have hlist : (toString n).toList = Nat.toDigits 10 n := Nat.toList_repr
  have hdigits : (toString n).toList.all Char.isDigit = true := by
    rw [List.all_eq_true, hlist]
    intro c hc
    exact Nat.isDigit_of_mem_toDigits (by decide) (by decide) hc
  have hne : toString n ≠ "" := by
    intro h
    rw [h] at hlist
    exact Nat.toDigits_ne_nil hlist.symm
  rw [decimal, if_pos ⟨hne, hdigits⟩, hlist, Nat.ofDigitChars_toDigits (by decide) (by decide)]

theorem isDigit_of_decimal {s : String} {n : Nat} (h : decimal s = some n) :
    ∀ c ∈ s.toList, c.isDigit = true := by
  rw [decimal] at h
  by_cases hs : s ≠ "" ∧ s.toList.all Char.isDigit = true
  · exact List.all_eq_true.1 hs.2
  · rw [if_neg hs] at h
    cases h

theorem not_mem_toString {c : Char} (hc : c.isDigit = false) (n : Nat) :
    c ∉ (toString n).toList := by
  intro h
  have hlist : (toString n).toList = Nat.toDigits 10 n := Nat.toList_repr
  rw [hlist] at h
  rw [Nat.isDigit_of_mem_toDigits (by decide) (by decide) h] at hc
  exact absurd hc (by simp)

/-- A separator that is on neither left side cuts a list at one place. -/
theorem append_cons_inj {α : Type} {c : α} {x x' z z' : List α} (hx : c ∉ x) (hx' : c ∉ x')
    (h : x ++ c :: z = x' ++ c :: z') : x = x' ∧ z = z' := by
  rcases List.append_eq_append_iff.1 h with ⟨l, hl, hl'⟩ | ⟨l, hl, hl'⟩
  · cases l with
    | nil =>
      rw [List.nil_append, List.cons.injEq] at hl'
      exact ⟨by rw [hl, List.append_nil], hl'.2⟩
    | cons a l =>
      rw [List.cons_append, List.cons.injEq] at hl'
      exact absurd (hl ▸ List.mem_append_right x (hl'.1 ▸ List.mem_cons_self)) hx'
  · cases l with
    | nil =>
      rw [List.nil_append, List.cons.injEq] at hl'
      exact ⟨by rw [hl, List.append_nil], hl'.2.symm⟩
    | cons a l =>
      rw [List.cons_append, List.cons.injEq] at hl'
      exact absurd (hl ▸ List.mem_append_right x' (hl'.1 ▸ List.mem_cons_self)) hx

/-! ## Beginnings of texts -/

theorem startswith_append (p s : String) : startswith (p ++ s) p = true := by
  unfold startswith
  rw [String.toList_append, List.isPrefixOf_iff_prefix]
  exact List.prefix_append _ _

theorem dropLen_append (p s : String) : dropLen (p ++ s) p = s := by
  unfold dropLen
  rw [String.toList_append, List.drop_left, String.ofList_toList]

theorem startswith_iff {s p : String} : startswith s p = true ↔ ∃ r, p.toList ++ r = s.toList := by
  unfold startswith
  rw [List.isPrefixOf_iff_prefix]
  rfl

/-! ## Members of a split text -/

theorem not_mem_of_mem_splitOn {α : Type} [BEq α] [LawfulBEq α] {c : α} {xs l : List α}
    (h : l ∈ xs.splitOn c) : c ∉ l := by
  induction xs generalizing l with
  | nil =>
    rw [List.splitOn_nil, List.mem_singleton] at h
    simp [h]
  | cons x xs ih =>
    rw [List.splitOn_cons_eq_if_modifyHead] at h
    split at h
    · rcases List.mem_cons.1 h with rfl | h
      · simp
      · exact ih h
    · next hx =>
      cases hs : xs.splitOn c with
      | nil => simp [hs] at h
      | cons y ys =>
        rw [hs, List.modifyHead_cons] at h
        rcases List.mem_cons.1 h with rfl | h
        · have hy : c ∉ y := ih (hs ▸ List.mem_cons_self)
          have hxc : c ≠ x := fun e => hx (by simp [e])
          simp [hxc, hy]
        · exact ih (hs ▸ List.mem_cons_of_mem _ h)

/-- No part of a split text contains the separator. -/
theorem not_mem_of_mem_split {c : Char} {s x : String} (h : x ∈ split c s) : c ∉ x.toList := by
  obtain ⟨l, hl, rfl⟩ := List.mem_map.1 h
  rw [String.toList_ofList]
  exact not_mem_of_mem_splitOn hl

theorem split_ne_nil (c : Char) (s : String) : split c s ≠ [] := by
  simp [split]

/-- Replacing the only separator of a two-part key. -/
theorem replace_append_append {a b : Char} {x y : String} (hx : a ∉ x.toList)
    (hy : a ∉ y.toList) :
    replace a b (x ++ String.singleton a ++ y) = x ++ String.singleton b ++ y := by
  have hmap : ∀ l : List Char, a ∉ l → l.map (fun c => if c = a then b else c) = l := by
    intro l hl
    have hid : ∀ c ∈ l, (if c = a then b else c) = id c := by
      intro c hc
      rw [if_neg (fun e : c = a => hl (e ▸ hc))]
      rfl
    rw [List.map_congr_left hid, List.map_id]
  rw [← String.toList_inj]
  simp [replace, hmap _ hx, hmap _ hy]

/-! ## Joined texts -/

theorem toList_foldl_append (sep : String) (xs : List String) (acc : String) :
    (xs.foldl (fun acc x => acc ++ sep ++ x) acc).toList =
      acc.toList ++ xs.flatMap fun x => sep.toList ++ x.toList := by
  induction xs generalizing acc with
  | nil => simp
  | cons x xs ih => rw [List.foldl_cons, ih]; simp

theorem toList_join_cons (sep x : String) (xs : List String) :
    (join sep (x :: xs)).toList = x.toList ++ xs.flatMap fun y => sep.toList ++ y.toList := by
  unfold join
  rw [String.toList_ofList]
  induction xs generalizing x with
  | nil => simp
  | cons y ys ih =>
    rw [List.map_cons, List.intercalate_cons_of_ne_nil (by simp), ih]
    simp

/-- Appending `sep + x` for each part and cutting the first separator off is a join. -/
theorem drop_foldl_append_eq_join (sep : String) (xs : List String) :
    String.ofList ((xs.foldl (fun acc x => acc ++ sep ++ x) "").toList.drop sep.toList.length) =
      join sep xs := by
  rw [toList_foldl_append, ← String.toList_inj, String.toList_ofList]
  cases xs with
  | nil => simp [join]
  | cons x xs =>
    rw [toList_join_cons]
    simp

/-! ## Round trips -/

/-- `strip` keeps a text without blanks. -/
theorem strip_eq_self {s : String} (h : ∀ c ∈ s.toList, isspace c = false) : strip s = s := by
  have hdrop : s.toList.dropWhile isspace = s.toList := by
    rw [List.dropWhile_eq_self_iff]
    intro hl
    simp [h _ (List.getElem_mem hl)]
  have hrdrop : s.toList.rdropWhile isspace = s.toList := by
    rw [List.rdropWhile_eq_self_iff]
    intro hl
    simp [h _ (List.getLast_mem hl)]
  unfold strip
  rw [hdrop, hrdrop, String.ofList_toList]

/-- `strip` keeps every character that is not blank. -/
theorem strip_ne_empty {s : String} {c : Char} (hc : c ∈ s.toList) (hs : isspace c = false) :
    strip s ≠ "" := by
  have hmem : c ∈ s.toList.dropWhile isspace := by
    rw [← List.takeWhile_append_dropWhile (p := isspace) (l := s.toList)] at hc
    rcases List.mem_append.1 hc with h | h
    · rw [List.mem_takeWhile_imp h] at hs
      exact absurd hs (by simp)
    · exact h
  intro h
  unfold strip at h
  rw [← String.toList_inj, String.toList_ofList, String.toList_empty,
    List.rdropWhile_eq_nil_iff] at h
  rw [h c hmem] at hs
  exact absurd hs (by simp)

/-- What `strip` leaves has a character that is not blank. -/
theorem exists_of_strip_ne_empty {s : String} (h : strip s ≠ "") :
    ∃ c ∈ s.toList, isspace c = false := by
  by_contra hall
  have hspace : ∀ c ∈ s.toList, isspace c = true := by
    intro c hc
    by_contra hne
    exact hall ⟨c, hc, by simpa using hne⟩
  refine h ?_
  unfold strip
  rw [List.dropWhile_eq_nil_iff.2 hspace]
  rfl

/-- Splitting undoes joining when no part contains the separator. -/
theorem split_join {c : Char} {xs : List String} (hne : xs ≠ [])
    (h : ∀ x ∈ xs, c ∉ x.toList) : split c (join (String.singleton c) xs) = xs := by
  unfold split join
  rw [String.toList_ofList, String.toList_singleton, List.splitOn_intercalate, List.map_map]
  · have hid : String.ofList ∘ String.toList = id := funext fun x => String.ofList_toList
    rw [hid, List.map_id]
  · intro l hl
    obtain ⟨x, hx, rfl⟩ := List.mem_map.1 hl
    exact h x hx
  · simpa using hne

/-- Joining undoes splitting. -/
theorem join_split (c : Char) (s : String) : join (String.singleton c) (split c s) = s := by
  unfold split join
  have hid : String.toList ∘ String.ofList = id := funext fun x => String.toList_ofList
  rw [List.map_map, hid, List.map_id, String.toList_singleton, List.intercalate_splitOn,
    String.ofList_toList]

/-- The separators in a joined text: those between the parts, and those inside of them. -/
theorem count_join {c : Char} {xs : List String} (hne : xs ≠ []) :
    (join (String.singleton c) xs).toList.count c + 1 =
      xs.length + (xs.map fun x => x.toList.count c).sum := by
  obtain ⟨x, xs, rfl⟩ := List.exists_cons_of_ne_nil hne
  have hrest : (xs.flatMap fun y => (String.singleton c).toList ++ y.toList).count c =
      xs.length + (xs.map fun x => x.toList.count c).sum := by
    clear hne
    induction xs with
    | nil => rfl
    | cons y xs ih =>
      rw [List.flatMap_cons, List.count_append, ih]
      simp
      omega
  rw [toList_join_cons, List.count_append, hrest, List.map_cons, List.sum_cons, List.length_cons]
  omega

theorem sum_count_eq_zero {c : Char} {xs : List String} :
    (xs.map fun x => x.toList.count c).sum = 0 ↔ ∀ x ∈ xs, c ∉ x.toList := by
  simp [List.sum_eq_zero_iff, List.count_eq_zero]

theorem length_split (c : Char) (s : String) : (split c s).length = s.toList.count c + 1 := by
  have hcount := count_join (c := c) (split_ne_nil c s)
  rw [join_split, sum_count_eq_zero.2 fun x hx => not_mem_of_mem_split hx] at hcount
  exact hcount.symm

/-- As many parts make one text only if they are the same, when one side has no separators. -/
theorem join_inj {c : Char} {xs ys : List String} (hlen : xs.length = ys.length)
    (hys : ∀ y ∈ ys, c ∉ y.toList)
    (h : join (String.singleton c) xs = join (String.singleton c) ys) : xs = ys := by
  by_cases hne : xs = []
  · subst hne
    exact (List.length_eq_zero_iff.1 hlen.symm).symm
  have hne' : ys ≠ [] := by
    rintro rfl
    exact hne (List.length_eq_zero_iff.1 hlen)
  have hcount := count_join (c := c) hne
  rw [h, count_join hne', sum_count_eq_zero.2 hys, hlen] at hcount
  have hxs := sum_count_eq_zero.1 (Nat.add_left_cancel hcount).symm
  rw [← split_join hne hxs, h, split_join hne' hys]

theorem join_cons_split (c : Char) (x y : String) :
    join (String.singleton c) (x :: split c y) = x ++ String.singleton c ++ y := by
  have hy := congrArg String.toList (join_split c y)
  rw [← String.toList_inj]
  cases hs : split c y with
  | nil => exact absurd hs (split_ne_nil c y)
  | cons z zs =>
    rw [hs, toList_join_cons] at hy
    rw [toList_join_cons, List.flatMap_cons, String.toList_append, String.toList_append, ← hy]
    simp

/-- The first part of a text. -/
theorem split_append {c : Char} {x : String} (hx : c ∉ x.toList) (y : String) :
    split c (x ++ String.singleton c ++ y) = x :: split c y := by
  rw [← join_cons_split]
  refine split_join (by simp) fun z hz => ?_
  rcases List.mem_cons.1 hz with rfl | hz
  · exact hx
  · exact not_mem_of_mem_split hz

/-- The parts of two texts with a separator between them. -/
theorem split_append_append (c : Char) (x y : String) :
    split c (x ++ String.singleton c ++ y) = split c x ++ split c y := by
  have hjoin : join (String.singleton c) (split c x ++ split c y) =
      x ++ String.singleton c ++ y := by
    have hx := congrArg String.toList (join_split c x)
    have hy := congrArg String.toList (join_cons_split c "" y)
    cases hs : split c x with
    | nil => exact absurd hs (split_ne_nil c x)
    | cons z zs =>
      rw [hs, toList_join_cons] at hx
      rw [toList_join_cons] at hy
      rw [← String.toList_inj, List.cons_append, toList_join_cons, List.flatMap_append,
        ← List.append_assoc, hx, String.toList_append, String.toList_append, List.append_assoc]
      simpa using hy
  rw [← hjoin]
  refine split_join (by simp [split_ne_nil]) fun z hz => ?_
  rcases List.mem_append.1 hz with hz | hz
  · exact not_mem_of_mem_split hz
  · exact not_mem_of_mem_split hz

theorem split_of_not_mem {c : Char} {s : String} (h : c ∉ s.toList) : split c s = [s] := by
  have hjoin : join (String.singleton c) [s] = s := by
    rw [← String.toList_inj, toList_join_cons]
    simp
  have hsplit : split c (join (String.singleton c) [s]) = [s] :=
    split_join (by simp) fun x hx => List.mem_singleton.1 hx ▸ h
  rwa [hjoin] at hsplit

theorem head?_split (c : Char) (s : String) :
    (split c s).head? = some (String.ofList (s.toList.takeWhile (· ≠ c))) := by
  have hs := congrArg String.toList (join_split c s)
  cases hsplit : split c s with
  | nil => exact absurd hsplit (split_ne_nil c s)
  | cons y ys =>
    have hy : ∀ d ∈ y.toList, decide (d ≠ c) = true := by
      intro d hd
      have hc := not_mem_of_mem_split (s := s) (hsplit ▸ List.mem_cons_self)
      exact decide_eq_true fun h => hc (h ▸ hd)
    have htail : (ys.flatMap fun z => (String.singleton c).toList ++ z.toList).takeWhile
        (· ≠ c) = [] := by
      cases ys <;> simp
    rw [hsplit, toList_join_cons] at hs
    rw [← hs, List.takeWhile_append_of_pos hy, htail, List.append_nil, String.ofList_toList]
    rfl

/-- A character that is not the separator is in some part. -/
theorem exists_mem_split {c d : Char} {s : String} (hd : d ∈ s.toList) (hne : d ≠ c) :
    ∃ p ∈ split c s, d ∈ p.toList := by
  rw [← join_split c s] at hd
  cases hs : split c s with
  | nil => exact absurd hs (split_ne_nil c s)
  | cons y ys =>
    rw [hs, toList_join_cons] at hd
    rcases List.mem_append.1 hd with hd | hd
    · exact ⟨y, List.mem_cons_self, hd⟩
    · obtain ⟨z, hz, hd⟩ := List.mem_flatMap.1 hd
      rcases List.mem_append.1 hd with hd | hd
      · exact absurd (by simpa using hd) hne
      · exact ⟨z, List.mem_cons_of_mem _ hz, hd⟩

theorem mem_of_mem_strip {c : Char} {s : String} (h : c ∈ (strip s).toList) : c ∈ s.toList := by
  unfold strip at h
  rw [String.toList_ofList] at h
  exact (List.dropWhile_sublist _).subset ((List.rdropWhile_prefix isspace _).subset h)

/-- Only blanks are taken away. -/
theorem mem_strip_or {c : Char} {s : String} (h : c ∈ s.toList) :
    isspace c = true ∨ c ∈ (strip s).toList := by
  have hdrop {l : List Char} (hc : c ∈ l) : isspace c = true ∨ c ∈ l.dropWhile isspace := by
    rw [← List.takeWhile_append_dropWhile (p := isspace) (l := l), List.mem_append] at hc
    exact hc.imp_left fun hmem => List.mem_takeWhile_imp hmem
  rw [strip, String.toList_ofList, List.rdropWhile, List.mem_reverse]
  rcases hdrop h with hspace | hmem
  · exact Or.inl hspace
  · exact hdrop (List.mem_reverse.2 hmem)

/-- There are no blanks around a stripped text. -/
theorem strip_strip (s : String) : strip (strip s) = strip s := by
  have hpre := List.rdropWhile_prefix isspace (s.toList.dropWhile isspace)
  have hdrop : ((s.toList.dropWhile isspace).rdropWhile isspace).dropWhile isspace =
      (s.toList.dropWhile isspace).rdropWhile isspace := by
    rw [List.dropWhile_eq_self_iff]
    intro hl
    rw [hpre.getElem hl]
    have hlen : 0 < (s.toList.dropWhile isspace).length := lt_of_lt_of_le hl hpre.length_le
    exact List.dropWhile_get_zero_not isspace s.toList hlen
  unfold strip
  rw [String.toList_ofList, hdrop, List.rdropWhile_idempotent]

end SonicBuildimage.Lib
