/-
  Which core files core_cleanup.py keeps.

  Model.  The directory as its entries, in the order of `os.listdir`.  An exception ends the script
  in the state it has reached (`Except.error`); `os.remove` may fail, which is caught.  A datetime
  is its number of seconds, `utcfromtimestamp` has the range of the years 1 to 9999.

  Proved: `newest_kept_iff`.  Take files named process.timestamp.*.  In whatever order they are
  listed, a file stays exactly if fewer than MAX_CORE_FILES files of its process are more recent, if
  and only if (`Fits`) the files that are sorted have a process without a dot and a timestamp in the
  range of datetime, or nothing is to be deleted and every sort fails.  The sort key is computed
  outside of the `try`: otherwise a process with a dot in its name or a timestamp out of range ends
  the script, and files of other processes are left with it (`cleanup_ended`).

  Not modelled: the log.
-/
import SonicBuildimage.Lib.MostRecent
import SonicBuildimage.Lib.PyDict
import SonicBuildimage.Lib.PyInt
import SonicBuildimage.Lib.PyStr

namespace SonicBuildimage.Scripts.CoreCleanup

open SonicBuildimage.Lib

structure Entry where
  name : String
  isFile : Bool
  deriving DecidableEq

def maxCoreFiles : Nat := 4

/-- `datetime.utcfromtimestamp` -/
def utcfromtimestamp (n : Int) : Option Int :=
  if -62135596800 ≤ n ∧ n ≤ 253402300799 then some n else none

/-- `f.split('.')[0]` -/
def process (f : String) : String := (split '.' f).headD ""

/-- The key of the sort. -/
def sortKey (f : String) : Option Int := ((split '.' f)[1]?.bind int).bind utcfromtimestamp

/-- `curr_files.sort(reverse=True, key=...)`: the keys first, then the order. -/
def sortReverse (files : List String) : Option (List String) :=
  (files.mapM sortKey).map fun keys => (newestFirst Prod.fst (keys.zip files)).map Prod.snd

/-- The files that are kept of a process, and the one to delete. -/
def trim (currFiles : List String) : Option (List String × Option String) :=
  if currFiles.length ≤ maxCoreFiles then some (currFiles, none)
  else
    (sortReverse currFiles).bind fun sorted =>
    sorted[maxCoreFiles]?.map fun oldestCore => (sorted.take maxCoreFiles, some oldestCore)

structure State where
  dir : List Entry
  coreFilesByProcess : Dict String (List String) := []
  deriving DecidableEq

def State.files (s : State) (process : String) : List String :=
  Dict.getD s.coreFilesByProcess process []

section script

-- whether `os.remove` of a file succeeds
variable (removes : String → Bool)

/-- `os.remove`, with the errors that are caught. -/
def remove (dir : List Entry) : Option String → List Entry
  | none => dir
  | some f => if removes f then dir.filter (·.name ≠ f) else dir

/-- The body of the loop. -/
def step (s : State) (f : String) : Except State State :=
  let currFiles := s.files (process f) ++ [f]
  match trim currFiles with
  | none =>
    .error { s with coreFilesByProcess := Dict.set s.coreFilesByProcess (process f) currFiles }
  | some (kept, oldestCore) =>
    .ok ⟨remove removes s.dir oldestCore, Dict.set s.coreFilesByProcess (process f) kept⟩

def coreFiles (dir : List Entry) : List String := (dir.filter (·.isFile)).map Entry.name

def main (uid : Nat) (dir : List Entry) : Except State State :=
  if uid ≠ 0 then .ok { dir := dir } else (coreFiles dir).foldlM (step removes) { dir := dir }

end script

/-- The state in which the script ends, by an exception or not. -/
def ended : Except State State → State
  | .ok s => s
  | .error s => s

/-! ### What the files are -/

def coreName (process timestamp rest : String) : String :=
  process ++ "." ++ timestamp ++ "." ++ rest

/-- `f` is the core file of process `p` at the time `t`. -/
def Named (f p : String) (t : Int) : Prop :=
  ∃ timestamp rest, f = coreName p timestamp rest ∧ int timestamp = some t

/-- How many files of the process of `f` are more recent. -/
def newer (proc : String → String) (stamp : String → Int) (files : List String) (f : String) :
    Nat :=
  files.countP fun g => proc g = proc f ∧ stamp f < stamp g

/-- A file is kept exactly if fewer than MAX_CORE_FILES files of its process are more recent; what
    is no file is kept. -/
def Retained (proc : String → String) (stamp : String → Int) (dir : List Entry) (s : State) :
    Prop :=
  ∀ e, e ∈ s.dir ↔ e ∈ dir ∧
    (e.isFile = true → newer proc stamp (coreFiles dir) e.name < maxCoreFiles)

/-- Core files of processes, at different times, that can be deleted. -/
structure Cores (removes : String → Bool) (proc : String → String) (stamp : String → Int)
    (dir : List Entry) : Prop where
  nodup : (dir.map Entry.name).Nodup
  named : ∀ f ∈ coreFiles dir, Named f (proc f) (stamp f)
  distinct : ∀ f ∈ coreFiles dir, ∀ g ∈ coreFiles dir, proc f = proc g → stamp f = stamp g → f = g
  removes : ∀ f ∈ coreFiles dir, removes f = true

/-- The names that the script reads as they are meant. -/
def Readable (p : String) (t : Int) : Prop := '.' ∉ p.toList ∧ utcfromtimestamp t = some t

/-- The number of files that are one process to the script. -/
def alike (files : List String) (f : String) : Nat := files.countP fun g => process g = process f

/-- Names that are sorted are read as they are meant; or there is nothing to delete, and the script
    ends by an exception before it deletes anything. -/
def Fits (proc : String → String) (stamp : String → Int) (files : List String) : Prop :=
  (∀ f ∈ files, maxCoreFiles < alike files f → Readable (proc f) (stamp f)) ∨
    ∀ f ∈ files, files.countP (fun g => proc g = proc f) ≤ maxCoreFiles ∧
      files.countP (fun g => process g = process f ∧ (sortKey g).isSome) ≤ maxCoreFiles

section named

variable {f p : String} {t : Int}

theorem coreName_eq (p timestamp rest : String) : coreName p timestamp rest =
    p ++ String.singleton '.' ++ (timestamp ++ String.singleton '.' ++ rest) := by
  simp only [coreName, String.append_assoc]
  rfl

theorem dot_of_int {s : String} {n : Int} (h : int s = some n) : '.' ∉ s.toList := by
  intro hdot
  exact absurd (mem_of_int h hdot) (by decide +kernel)

/-- The first two parts of a name. -/
theorem Named.parts (h : Named f p t) : ∃ ps, split '.' f = split '.' p ++ ps ∧
    ps[0]?.bind int = some t := by
  obtain ⟨timestamp, rest, rfl, hint⟩ := h
  refine ⟨timestamp :: split '.' rest, ?_, hint⟩
  rw [coreName_eq, split_append_append, split_append (dot_of_int hint)]

/-- The script puts the files of a process together. -/
theorem Named.process_eq (h : Named f p t) : process f = (split '.' p).headD "" := by
  obtain ⟨ps, hparts, -⟩ := h.parts
  rw [process, hparts]
  cases hp : split '.' p with
  | nil => exact absurd hp (split_ne_nil _ _)
  | cons x xs => rfl

theorem Named.of_not_mem (h : Named f p t) (hdot : '.' ∉ p.toList) :
    process f = p ∧ sortKey f = utcfromtimestamp t := by
  obtain ⟨ps, hparts, hint⟩ := h.parts
  rw [split_of_not_mem hdot] at hparts
  refine ⟨by rw [h.process_eq, split_of_not_mem hdot]; rfl, ?_⟩
  rw [sortKey, hparts, List.getElem?_append_right (by simp)]
  simpa using congrArg (Option.bind · utcfromtimestamp) hint

/-- With a dot in the name of the process the key is the same for all its files. -/
theorem Named.of_mem (h : Named f p t) (hdot : '.' ∈ p.toList) :
    sortKey f = ((split '.' p)[1]?.bind int).bind utcfromtimestamp := by
  obtain ⟨ps, hparts, -⟩ := h.parts
  have hlen : 1 < (split '.' p).length := by
    rw [length_split]
    exact Nat.succ_lt_succ (List.count_pos_iff.2 hdot)
  rw [sortKey, hparts, List.getElem?_append_left hlen]

theorem utcfromtimestamp_eq {n m : Int} (h : utcfromtimestamp n = some m) : m = n := by
  unfold utcfromtimestamp at h
  split_ifs at h
  exact (Option.some.inj h).symm

end named

/-! ### One file -/

section trim

variable {stamp : String → Int} {f : String} {all kept files : List String}

theorem trim_room (h : files.length ≤ maxCoreFiles) : trim files = some (files, none) := if_pos h

theorem trim_keyless (hlen : maxCoreFiles < files.length) (hf : f ∈ files)
    (hkey : sortKey f = none) : trim files = none := by
  have hkeys : files.mapM sortKey = none := by
    clear hlen
    induction files with
    | nil => exact absurd hf List.not_mem_nil
    | cons g files ih =>
      rw [List.mapM_cons]
      rcases List.mem_cons.1 hf with rfl | hf
      · rw [hkey]
        rfl
      · rw [ih hf]
        cases sortKey g <;> rfl
  rw [trim, if_neg (by omega), sortReverse, hkeys]
  rfl

theorem sortReverse_eq (h : ∀ g ∈ files, sortKey g = some (stamp g)) :
    sortReverse files = some (newestFirst stamp files) := by
  have hkeys : files.mapM sortKey = some (files.map stamp) := by
    induction files with
    | nil => rfl
    | cons g files ih =>
      rw [List.mapM_cons, h g List.mem_cons_self, ih fun a ha => h a (List.mem_cons_of_mem _ ha)]
      rfl
  have hzip : (files.map stamp).zip files = files.map fun g => (stamp g, g) := by
    rw [List.zip, List.zipWith_map_left, List.zipWith_self]
  have hsort : (newestFirst stamp files).map (fun g => (stamp g, g)) =
      newestFirst Prod.fst (files.map fun g => (stamp g, g)) :=
    List.map_insertionSort _ _ _ files fun _ _ _ _ => Iff.rfl
  rw [sortReverse, hkeys, Option.map_some, hzip, ← hsort, List.map_map]
  simp [Function.comp_def]

theorem trim_sorted (hlen : files.length = maxCoreFiles + 1)
    (hkey : ∀ g ∈ files, sortKey g = some (stamp g)) :
    ∃ newest oldest, trim files = some (newest, some oldest) ∧
      newestFirst stamp files = newest ++ [oldest] ∧ (newest ++ [oldest]).Perm files ∧
      ∀ y ∈ newest, stamp oldest ≤ stamp y := by
  obtain ⟨newest, oldest, hsort, hnew, hperm, hleast⟩ := exists_newestFirst stamp hlen
  refine ⟨newest, oldest, ?_, hsort, hperm, hleast⟩
  rw [trim, if_neg (by omega), sortReverse_eq hkey, Option.bind_some, hsort, ← hnew]
  simp

/-- What one file more does to the kept files of its process. -/
theorem trim_spec (h : MostRecent stamp maxCoreFiles all kept) (hf : f ∉ all)
    (hkey : maxCoreFiles < (all ++ [f]).length → ∀ g ∈ all ++ [f], sortKey g = some (stamp g) ∧
      ∀ g' ∈ all ++ [f], stamp g = stamp g' → g = g') :
    ∃ kept' gone, trim (kept ++ [f]) = some (kept', gone) ∧
      MostRecent stamp maxCoreFiles (all ++ [f]) kept' ∧
      (∀ g, g ∈ kept ++ [f] ↔ g ∈ kept' ∨ gone = some g) ∧ ∀ g ∈ kept', gone ≠ some g := by
  have hlen := h.length
  rcases Nat.lt_or_ge kept.length maxCoreFiles with hroom | hfull
  · exact ⟨kept ++ [f], none, trim_room (by simpa using hroom), h.append hf hroom, by simp, by simp⟩
  · replace hfull : kept.length = maxCoreFiles := by omega
    replace hkey := hkey (by rw [List.length_append, List.length_singleton]; omega)
    have hsub : kept ++ [f] ⊆ all ++ [f] := fun g hg =>
      (List.mem_append.1 hg).elim (fun hg => List.mem_append_left _ (h.subset hg))
        (List.mem_append_right _)
    obtain ⟨newest, oldest, htrim, -, hperm, hleast⟩ :=
      trim_sorted (show (kept ++ [f]).length = _ by simp [hfull]) fun g hg => (hkey g (hsub hg)).1
    obtain ⟨hrecent, hout⟩ := h.replace hf hfull (fun g hg => (hkey g hg).2) hperm hleast
    refine ⟨newest, some oldest, htrim, hrecent, fun g => ?_, ?_⟩
    · rw [← hperm.mem_iff, List.mem_append, List.mem_singleton, Option.some.injEq, eq_comm]
    · rintro g hg heq
      exact hout (Option.some.inj heq ▸ hg)

end trim

/-! ### The loop -/

/-- The state after the files `seen`. -/
structure Done (stamp : String → Int) (dir : List Entry) (seen : List String) (s : State) :
    Prop where
  window : ∀ p, MostRecent stamp maxCoreFiles (seen.filter (process · = p)) (s.files p)
  entries : ∀ e, e ∈ s.dir ↔ e ∈ dir ∧ (e.name ∈ seen → e.name ∈ s.files (process e.name))

/-- Files that can be deleted, with keys where they are sorted. -/
structure Files (removes : String → Bool) (stamp : String → Int) (files : List String) : Prop where
  key : ∀ f ∈ files, maxCoreFiles < alike files f → sortKey f = some (stamp f) ∧
    ∀ g ∈ files, process f = process g → stamp f = stamp g → f = g
  removes : ∀ f ∈ files, removes f = true

section loop

variable {removes : String → Bool} {stamp : String → Int} {dir : List Entry}
  {seen files : List String} {s : State} {f : String}

theorem Files.mono {fs : List String} (h : Files removes stamp files) (hsub : fs.Sublist files) :
    Files removes stamp fs := by
  refine ⟨fun f hf hlarge => ?_, fun f hf => h.removes f (hsub.subset hf)⟩
  obtain ⟨hkey, hdistinct⟩ := h.key f (hsub.subset hf) (lt_of_lt_of_le hlarge hsub.countP_le)
  exact ⟨hkey, fun g hg => hdistinct g (hsub.subset hg)⟩

theorem Done.start (dir : List Entry) : Done stamp dir [] { dir := dir } :=
  ⟨fun _ => .nil _ _, by simp⟩

theorem mem_remove {e : Entry} {gone : Option String}
    (hgone : ∀ g, gone = some g → removes g = true) :
    e ∈ remove removes dir gone ↔ e ∈ dir ∧ gone ≠ some e.name := by
  cases gone with
  | none => simp [remove]
  | some g =>
    rw [remove, if_pos (hgone g rfl), List.mem_filter, decide_eq_true_eq, ne_eq, ne_eq,
      Option.some.injEq, eq_comm (a := g)]

/-- The files of the process of `f`, with `f`. -/
theorem filter_snoc (p : String) : (seen ++ [f]).filter (process · = p) =
    seen.filter (process · = p) ++ if process f = p then [f] else [] := by
  rw [List.filter_append]
  congr 1
  by_cases hp : process f = p <;> simp [hp]

/-- A file seen and kept, and not deleted now, is one that is kept once the next one is seen. -/
theorem kept_snoc {kept kept' : List String} {gone : Option String} {x : String} (hf : f ∉ seen)
    (hsplit : x ∈ kept ++ [f] ↔ x ∈ kept' ∨ gone = some x)
    (hgone : gone = some x → x ∈ seen ++ [f]) (hout : x ∈ kept' → gone ≠ some x) :
    ((x ∈ seen → x ∈ kept) ∧ gone ≠ some x) ↔ (x ∈ seen ++ [f] → x ∈ kept') := by
  constructor
  · rintro ⟨hkept, hne⟩ hseen
    refine (hsplit.mp ?_).resolve_right hne
    rcases List.mem_append.mp hseen with hseen | hseen
    · exact List.mem_append_left _ (hkept hseen)
    · exact List.mem_append_right _ hseen
  · intro hkept
    refine ⟨fun hseen => ?_, fun hg => hout (hkept (hgone hg)) hg⟩
    rcases List.mem_append.mp (hsplit.mpr (.inl (hkept (List.mem_append_left _ hseen))))
      with hk | hk
    · exact hk
    · exact absurd (List.mem_singleton.mp hk ▸ hseen) hf

theorem Done.step (h : Done stamp dir seen s) (hf : f ∉ seen)
    (hfiles : Files removes stamp (seen ++ [f])) :
    ∃ s', step removes s f = .ok s' ∧ Done stamp dir (seen ++ [f]) s' := by
  have hmem : ∀ g ∈ seen.filter (process · = process f) ++ [f],
      g ∈ seen ++ [f] ∧ process g = process f := by
    intro g hg
    rcases List.mem_append.mp hg with hg | hg
    · obtain ⟨hg, hp⟩ := List.mem_filter.mp hg
      exact ⟨List.mem_append_left _ hg, of_decide_eq_true hp⟩
    · exact ⟨List.mem_append_right _ hg, by rw [List.mem_singleton.mp hg]⟩
  have halike : alike (seen ++ [f]) f = (seen.filter (process · = process f) ++ [f]).length := by
    rw [alike, List.countP_eq_length_filter, filter_snoc, if_pos rfl]
  obtain ⟨kept', gone, htrim, hrecent, hsplit, hout⟩ := trim_spec (h.window (process f))
    (fun hmem => hf (List.mem_filter.mp hmem).1) (fun hlarge g hg => by
      obtain ⟨hseen, hp⟩ := hmem g hg
      obtain ⟨hkey, hdistinct⟩ := hfiles.key g hseen (by rwa [alike, hp, ← alike, halike])
      exact ⟨hkey, fun g' hg' => hdistinct g' (hmem g' hg').1 (hp.trans (hmem g' hg').2.symm)⟩)
  -- what is deleted is a file of this process that was seen
  have hgone : ∀ g, gone = some g → g ∈ seen ++ [f] ∧ process g = process f := by
    intro g hg
    rcases List.mem_append.mp ((hsplit g).mpr (.inr hg)) with hk | hk
    · exact hmem g (List.mem_append_left _ ((h.window (process f)).subset hk))
    · exact hmem g (List.mem_append_right _ hk)
  refine ⟨⟨remove removes s.dir gone, Dict.set s.coreFilesByProcess (process f) kept'⟩, ?_, ?_, ?_⟩
  · rw [CoreCleanup.step]
    simp only [htrim]
  · intro p
    rw [filter_snoc, State.files]
    dsimp only
    by_cases hp : process f = p
    · subst hp
      rw [if_pos rfl, Dict.getD_set_self]
      exact hrecent
    · rw [if_neg hp, List.append_nil, Dict.getD_set_ne _ _ _ hp]
      exact h.window p
  · intro e
    rw [State.files]
    dsimp only
    rw [mem_remove fun g hg => hfiles.removes g (hgone g hg).1, h.entries, and_assoc]
    refine and_congr_right fun _ => ?_
    by_cases hp : process e.name = process f
    · rw [hp, Dict.getD_set_self]
      exact kept_snoc hf (hsplit _) (fun hg => (hgone _ hg).1) (hout _)
    · -- nothing changes for another process
      rw [Dict.getD_set_ne _ _ _ (Ne.symm hp)]
      have hne : e.name ≠ f := fun heq => hp (by rw [heq])
      have hnot : gone ≠ some e.name := fun hg => hp (hgone _ hg).2
      simp [hne, hnot, State.files]

theorem foldlM_done (h : Done stamp dir seen s) (hnodup : (seen ++ files).Nodup)
    (hfiles : Files removes stamp (seen ++ files)) :
    ∃ s', files.foldlM (CoreCleanup.step removes) s = .ok s' ∧
      Done stamp dir (seen ++ files) s' := by
  induction files generalizing seen s with
  | nil => exact ⟨s, rfl, by rwa [List.append_nil]⟩
  | cons f files ih =>
    have hsnoc : seen ++ f :: files = seen ++ [f] ++ files := by simp
    rw [hsnoc] at hnodup hfiles ⊢
    have hf : f ∉ seen := fun hmem =>
      (List.nodup_append.mp (List.nodup_append.mp hnodup).1).2.2 f hmem f (by simp) rfl
    obtain ⟨s₁, hstep, hdone⟩ := h.step hf (hfiles.mono (List.sublist_append_left _ _))
    obtain ⟨s', hrun, hdone'⟩ := ih hdone hnodup hfiles
    refine ⟨s', ?_, hdone'⟩
    rw [List.foldlM_cons, hstep]
    exact hrun

/-- Where every sort fails nothing is deleted. -/
theorem foldlM_keyless (hwindow : ∀ p, s.files p = seen.filter (process · = p))
    (hkeys : ∀ p, (seen ++ files).countP (fun g => process g = p ∧ (sortKey g).isSome) ≤
      maxCoreFiles) :
    (ended (files.foldlM (CoreCleanup.step removes) s)).dir = s.dir := by
  induction files generalizing seen s with
  | nil => rfl
  | cons f files ih =>
    rw [show seen ++ f :: files = seen ++ [f] ++ files by simp] at hkeys
    have hcurr : s.files (process f) ++ [f] = (seen ++ [f]).filter (process · = process f) := by
      rw [hwindow, filter_snoc, if_pos rfl]
    rw [List.foldlM_cons, CoreCleanup.step]
    simp only [hcurr]
    by_cases hroom : ((seen ++ [f]).filter (process · = process f)).length ≤ maxCoreFiles
    · rw [trim_room hroom]
      refine ih (fun p => ?_) hkeys
      rw [State.files]
      dsimp only
      by_cases hp : process f = p
      · rw [hp, Dict.getD_set_self]
      · rw [Dict.getD_set_ne _ _ _ hp, filter_snoc, if_neg hp, List.append_nil]
        exact hwindow p
    · -- not all of the files can have a key
      obtain ⟨g, hg, hkey⟩ : ∃ g ∈ (seen ++ [f]).filter (process · = process f),
          sortKey g = none := by
        by_contra hall
        rw [not_exists] at hall
        refine hroom (le_trans ?_ (hkeys (process f)))
        rw [← List.countP_eq_length_filter]
        refine le_trans (List.countP_mono_left fun g hg hp => ?_)
          (List.sublist_append_left _ _).countP_le
        have hkey : sortKey g ≠ none := fun hkey =>
          hall g ⟨List.mem_filter.2 ⟨hg, hp⟩, hkey⟩
        simpa [Option.isSome_iff_ne_none, hkey] using hp
      rw [trim_keyless (not_le.1 hroom) hg hkey]
      rfl

end loop

/-! ### The first overflow -/

section overflow

variable {removes : String → Bool} {dir : List Entry} {files fs rest : List String} {s : State}
  {f p : String}

theorem foldlM_room (hfs : ∀ g ∈ fs, process g = p)
    (hlen : (s.files p).length + fs.length ≤ maxCoreFiles) :
    ∃ s', fs.foldlM (step removes) s = .ok s' ∧ s'.dir = s.dir ∧ s'.files p = s.files p ++ fs := by
  induction fs generalizing s with
  | nil => exact ⟨s, rfl, rfl, (List.append_nil _).symm⟩
  | cons g fs ih =>
    rw [List.length_cons] at hlen
    have hg := hfs g List.mem_cons_self
    have hstep : step removes s g =
        .ok ⟨s.dir, Dict.set s.coreFilesByProcess p (s.files p ++ [g])⟩ := by
      rw [step, hg, trim_room (by rw [List.length_append, List.length_singleton]; omega)]
      rfl
    have hfiles : State.files ⟨s.dir, Dict.set s.coreFilesByProcess p (s.files p ++ [g])⟩ p =
        s.files p ++ [g] := Dict.getD_set_self _ _ _ _
    obtain ⟨s', hrun, hdir, hs'⟩ := ih (fun a ha => hfs a (List.mem_cons_of_mem _ ha))
      (s := ⟨s.dir, Dict.set s.coreFilesByProcess p (s.files p ++ [g])⟩)
      (by rw [hfiles, List.length_append, List.length_singleton]; omega)
    refine ⟨s', ?_, hdir, ?_⟩
    · rw [List.foldlM_cons, hstep]
      exact hrun
    · rw [hs', hfiles, List.append_assoc, List.singleton_append]

theorem remove_subset (gone : Option String) : remove removes dir gone ⊆ dir := by
  cases gone with
  | none => exact List.Subset.refl _
  | some g =>
    rw [remove]
    split_ifs
    · exact List.filter_subset_self _
    · exact List.Subset.refl _

/-- What is deleted stays deleted. -/
theorem ended_subset : (ended (files.foldlM (step removes) s)).dir ⊆ s.dir := by
  induction files generalizing s with
  | nil => exact List.Subset.refl _
  | cons g files ih =>
    rw [List.foldlM_cons, step]
    cases trim (s.files (process g) ++ [g]) with
    | none => exact List.Subset.refl _
    | some r => exact List.Subset.trans ih (remove_subset _)

/-- The files that come first can be any ones of the directory. -/
theorem exists_listing (hsub : fs ⊆ coreFiles dir) (hnodup : fs.Nodup) :
    ∃ dir' rest, dir'.Perm dir ∧ coreFiles dir' = fs ++ rest := by
  let first : List Entry := fs.map fun f => ⟨f, true⟩
  have hfirst : first ⊆ dir := by
    intro e he
    obtain ⟨f, hf, rfl⟩ := List.mem_map.1 he
    obtain ⟨e, hcore, rfl⟩ := List.mem_map.1 (hsub hf)
    obtain ⟨hmem, hfile⟩ := List.mem_filter.1 hcore
    rwa [← hfile]
  have hnodup' : first.Nodup := hnodup.map fun f g heq => congrArg Entry.name heq
  obtain ⟨l, hl, hsub'⟩ := List.subperm_of_subset hnodup' hfirst
  obtain ⟨others, hperm⟩ := hsub'.exists_perm_append
  refine ⟨first ++ others, coreFiles others, (hperm.trans (hl.append_right _)).symm, ?_⟩
  have hcore : coreFiles first = fs := by
    simp [first, coreFiles, List.filter_map, Function.comp_def]
  rw [← hcore, coreFiles, coreFiles, coreFiles, List.filter_append, List.map_append]

/-- One file more than are kept comes first. -/
theorem main_overflow (removes : String → Bool) (hfiles : coreFiles dir = fs ++ [f] ++ rest)
    (hlen : fs.length = maxCoreFiles)
    (hp : ∀ g ∈ fs ++ [f], process g = p) :
    (trim (fs ++ [f]) = none → (ended (main removes 0 dir)).dir = dir) ∧
      ∀ kept g, trim (fs ++ [f]) = some (kept, some g) →
        (ended (main removes 0 dir)).dir ⊆ remove removes dir (some g) := by
  obtain ⟨s, hrun, hdir, hs⟩ : ∃ s, fs.foldlM (step removes) { dir := dir } = .ok s ∧
      s.dir = dir ∧ s.files p = fs :=
    foldlM_room (fun g hg => hp g (List.mem_append_left _ hg)) (show 0 + fs.length ≤ _ by omega)
  have hmain : main removes 0 dir = step removes s f >>= rest.foldlM (step removes) := by
    rw [main, if_neg (by simp), hfiles, List.append_assoc, List.foldlM_append, hrun]
    rfl
  have hcurr : s.files (process f) ++ [f] = fs ++ [f] := by
    rw [hp f (by simp), hs]
  rw [hmain, step, hcurr, hdir]
  refine ⟨fun htrim => ?_, fun kept g htrim => ?_⟩
  · rw [htrim]
    rfl
  · rw [htrim]
    exact ended_subset

end overflow

/-! ### The script -/

section main

variable {removes : String → Bool} {proc : String → String} {stamp : String → Int}
  {dir dir' : List Entry}

theorem mem_coreFiles {e : Entry} (hdir : (dir.map Entry.name).Nodup) (he : e ∈ dir) :
    e.name ∈ coreFiles dir ↔ e.isFile = true := by
  rw [coreFiles, List.mem_map]
  constructor
  · rintro ⟨e', he', hname⟩
    obtain ⟨hmem, hfile⟩ := List.mem_filter.mp he'
    rwa [← List.inj_on_of_nodup_map hdir hmem he hname]
  · exact fun hfile => ⟨e, List.mem_filter.mpr ⟨he, hfile⟩, rfl⟩

theorem Cores.files_nodup (h : Cores removes proc stamp dir) : (coreFiles dir).Nodup :=
  h.nodup.sublist (List.filter_sublist.map _)

theorem countP_newer (key : String → String) (files : List String) (f : String) :
    (files.filter (key · = key f)).countP (fun g => stamp f < stamp g) =
      newer key stamp files f := by
  rw [List.countP_filter, newer]
  exact List.countP_congr fun g _ => by simp [and_comm]

/-- A file is not more recent than itself. -/
theorem newer_lt {files : List String} {f : String} (hf : f ∈ files) (key : String → String) :
    newer key stamp files f < files.countP fun g => key g = key f := by
  rw [← countP_newer, List.countP_eq_length_filter, List.countP_eq_length_filter]
  refine lt_of_le_of_ne List.filter_sublist.length_le fun hlen => ?_
  have hmem : f ∈ files.filter (key · = key f) := List.mem_filter.2 ⟨hf, by simp⟩
  rw [← List.filter_sublist.eq_of_length hlen] at hmem
  simpa using (List.mem_filter.1 hmem).2

theorem Cores.process_eq (h : Cores removes proc stamp dir) {f g : String}
    (hf : f ∈ coreFiles dir) (hg : g ∈ coreFiles dir) (hproc : proc g = proc f) :
    process g = process f := by
  rw [(h.named f hf).process_eq, (h.named g hg).process_eq, hproc]

/-- There are no more files of the process than the script puts together. -/
theorem Cores.count_le (h : Cores removes proc stamp dir) {f : String} (hf : f ∈ coreFiles dir) :
    (coreFiles dir).countP (fun g => proc g = proc f) ≤ alike (coreFiles dir) f :=
  List.countP_mono_left fun _ hg hproc =>
    decide_eq_true (h.process_eq hf hg (of_decide_eq_true hproc))

/-- In a group of readable names the script counts the files of the process. -/
theorem Cores.newer_iff (h : Cores removes proc stamp dir) {f : String} (hf : f ∈ coreFiles dir)
    (hread : maxCoreFiles < alike (coreFiles dir) f →
      ∀ g ∈ coreFiles dir, process g = process f → Readable (proc g) (stamp g)) :
    newer process stamp (coreFiles dir) f < maxCoreFiles ↔
      newer proc stamp (coreFiles dir) f < maxCoreFiles := by
  by_cases hlarge : maxCoreFiles < alike (coreFiles dir) f
  · have hown (g : String) (hg : g ∈ coreFiles dir) (hp : process g = process f) :
        process g = proc g := ((h.named g hg).of_not_mem (hread hlarge g hg hp).1).1
    have hcount : newer process stamp (coreFiles dir) f = newer proc stamp (coreFiles dir) f := by
      refine List.countP_congr fun g hg => ?_
      simp only [decide_eq_true_eq]
      refine and_congr_left fun _ => ⟨fun hp => ?_, h.process_eq hf hg⟩
      rw [← hown g hg hp, ← hown f hf rfl, hp]
    rw [hcount]
  · have hsmall := not_lt.1 hlarge
    exact iff_of_true (lt_of_lt_of_le (newer_lt hf process) hsmall)
      (lt_of_lt_of_le (newer_lt hf proc) ((h.count_le hf).trans hsmall))

theorem retained_of_readable (h : Cores removes proc stamp dir)
    (hread : ∀ f ∈ coreFiles dir, maxCoreFiles < alike (coreFiles dir) f →
      Readable (proc f) (stamp f)) :
    Retained proc stamp dir (ended (main removes 0 dir)) := by
  have hgroup (f : String) (hlarge : maxCoreFiles < alike (coreFiles dir) f) (g : String)
      (hg : g ∈ coreFiles dir) (hp : process g = process f) : Readable (proc g) (stamp g) :=
    hread g hg (by rwa [alike, hp, ← alike])
  have hfiles : Files removes stamp ([] ++ coreFiles dir) := by
    refine ⟨fun f hf hlarge => ?_, h.removes⟩
    have hname (g : String) (hg : g ∈ coreFiles dir) (hp : process g = process f) :=
      (h.named g hg).of_not_mem (hgroup f hlarge g hg hp).1
    refine ⟨(hname f hf rfl).2.trans (hread f hf hlarge).2, fun g hg hp => h.distinct f hf g hg ?_⟩
    rw [← (hname f hf rfl).1, ← (hname g hg hp.symm).1, hp]
  have hnodup : ([] ++ coreFiles dir).Nodup := h.files_nodup
  obtain ⟨s, hrun, hdone⟩ := foldlM_done (Done.start dir) hnodup hfiles
  have hmain : ended (main removes 0 dir) = s := by
    rw [main, if_neg (by simp), hrun]
    rfl
  rw [hmain]
  intro e
  rw [hdone.entries, List.nil_append]
  refine and_congr_right fun he => ?_
  rw [mem_coreFiles h.nodup he]
  refine imp_congr_right fun hfile => ?_
  have hf := (mem_coreFiles h.nodup he).mpr hfile
  have hmem : e.name ∈ (coreFiles dir).filter (process · = process e.name) :=
    List.mem_filter.mpr ⟨hf, by simp⟩
  have hkept := (hdone.window (process e.name)).mem_iff (x := e.name) (h.files_nodup.filter _)
  rw [List.nil_append, countP_newer] at hkept
  rw [hkept, and_iff_right hmem, h.newer_iff hf (hgroup e.name)]

theorem retained_of_keyless (h : Cores removes proc stamp dir)
    (hfew : ∀ f ∈ coreFiles dir, (coreFiles dir).countP (fun g => proc g = proc f) ≤ maxCoreFiles ∧
      (coreFiles dir).countP (fun g => process g = process f ∧ (sortKey g).isSome) ≤
        maxCoreFiles) :
    Retained proc stamp dir (ended (main removes 0 dir)) := by
  have hkeys (p : String) : ([] ++ coreFiles dir).countP
      (fun g => process g = p ∧ (sortKey g).isSome) ≤ maxCoreFiles := by
    by_cases hp : ∃ f ∈ coreFiles dir, process f = p
    · obtain ⟨f, hf, rfl⟩ := hp
      exact (hfew f hf).2
    · rw [List.nil_append, List.countP_eq_zero.2]
      · exact Nat.zero_le _
      · intro g hg
        simpa using fun hpg => absurd ⟨g, hg, hpg⟩ hp
  have hdir : (ended (main removes 0 dir)).dir = dir := by
    rw [main, if_neg (by simp)]
    exact foldlM_keyless (fun _ => rfl) hkeys
  intro e
  rw [hdir]
  refine ⟨fun he => ⟨he, fun hfile => ?_⟩, fun he => he.1⟩
  have hf := (mem_coreFiles h.nodup he).mpr hfile
  exact lt_of_lt_of_le (newer_lt hf proc) (hfew _ hf).1

/-! ### Every order -/

theorem Cores.perm (h : Cores removes proc stamp dir) (hperm : dir'.Perm dir) :
    Cores removes proc stamp dir' ∧ (coreFiles dir').Perm (coreFiles dir) := by
  have hfiles : (coreFiles dir').Perm (coreFiles dir) := (hperm.filter _).map _
  refine ⟨⟨(hperm.map _).nodup_iff.2 h.nodup, ?_, ?_, ?_⟩, hfiles⟩
  · exact fun f hf => h.named f (hfiles.subset hf)
  · exact fun f hf g hg => h.distinct f (hfiles.subset hf) g (hfiles.subset hg)
  · exact fun f hf => h.removes f (hfiles.subset hf)

theorem Fits.perm {files files' : List String} (h : Fits proc stamp files)
    (hperm : files'.Perm files) : Fits proc stamp files' := by
  simpa only [Fits, alike, hperm.mem_iff, hperm.countP_eq] using h

theorem Cores.mostRecent (h : Cores removes proc stamp dir) (p : String) :
    ∃ kept, MostRecent stamp maxCoreFiles ((coreFiles dir).filter (proc · = p)) kept := by
  refine exists_mostRecent _ (h.files_nodup.filter _) fun f hf g hg => ?_
  obtain ⟨hf, hpf⟩ := List.mem_filter.1 hf
  obtain ⟨hg, hpg⟩ := List.mem_filter.1 hg
  exact h.distinct f hf g hg ((of_decide_eq_true hpf).trans (of_decide_eq_true hpg).symm)

/-- The files of a process that are to be kept. -/
theorem Cores.recent (h : Cores removes proc stamp dir) (p : String) :
    ∃ kept : List String, kept.Nodup ∧
      kept.length = min maxCoreFiles ((coreFiles dir).countP fun g => proc g = p) ∧
      ∀ x ∈ kept, x ∈ coreFiles dir ∧ proc x = p ∧
        newer proc stamp (coreFiles dir) x < maxCoreFiles := by
  obtain ⟨kept, hkept⟩ := h.mostRecent p
  refine ⟨kept, hkept.nodup, ?_, fun x hx => ?_⟩
  · rw [hkept.length, List.countP_eq_length_filter]
  · obtain ⟨hmem, hcount⟩ := (hkept.mem_iff (h.files_nodup.filter _)).1 hx
    obtain ⟨hfile, hp⟩ := List.mem_filter.1 hmem
    obtain rfl := of_decide_eq_true hp
    exact ⟨hfile, rfl, by rwa [countP_newer] at hcount⟩

/-- One file at least is to be kept of a process. -/
theorem Cores.exists_recent (h : Cores removes proc stamp dir) {f : String}
    (hf : f ∈ coreFiles dir) :
    ∃ x ∈ coreFiles dir, proc x = proc f ∧ newer proc stamp (coreFiles dir) x < maxCoreFiles := by
  obtain ⟨kept, -, hlen, hkept⟩ := h.recent (proc f)
  have hone : 0 < (coreFiles dir).countP fun g => proc g = proc f :=
    List.countP_pos_iff.2 ⟨f, hf, by simp⟩
  obtain ⟨x, hx⟩ := List.exists_mem_of_length_pos
    (show 0 < kept.length by rw [hlen]; exact lt_min (by decide) hone)
  exact ⟨x, hkept x hx⟩

theorem Cores.exists_old (h : Cores removes proc stamp dir) {p : String}
    (hmany : maxCoreFiles < (coreFiles dir).countP fun g => proc g = p) :
    ∃ x ∈ coreFiles dir, maxCoreFiles ≤ newer proc stamp (coreFiles dir) x := by
  obtain ⟨kept, hkept⟩ := h.mostRecent p
  obtain ⟨x, hx, hle⟩ := hkept.exists_old (h.files_nodup.filter _)
    (by rwa [← List.countP_eq_length_filter])
  obtain ⟨hfile, hp⟩ := List.mem_filter.1 hx
  obtain rfl := of_decide_eq_true hp
  exact ⟨x, hfile, by rwa [countP_newer] at hle⟩

/-- Where the script keeps all that is to be kept, it takes one process for one. -/
theorem Cores.single (h : Cores removes proc stamp dir) {f g : String} (hf : f ∈ coreFiles dir)
    (hlarge : maxCoreFiles < alike (coreFiles dir) f)
    (hfew : (coreFiles dir).countP (fun x => process x = process f ∧
      newer proc stamp (coreFiles dir) x < maxCoreFiles) ≤ maxCoreFiles)
    (hg : g ∈ coreFiles dir) (hp : process g = process f) : proc g = proc f := by
  by_contra hne
  obtain ⟨a, ha, hpa, hold⟩ : ∃ a ∈ coreFiles dir, process a = process f ∧
      maxCoreFiles ≤ newer proc stamp (coreFiles dir) a := by
    by_contra hnone
    refine absurd hlarge (not_lt.2 (le_trans (List.countP_mono_left fun x hx hpx => ?_) hfew))
    refine decide_eq_true ⟨of_decide_eq_true hpx, ?_⟩
    by_contra hx'
    exact hnone ⟨x, hx, of_decide_eq_true hpx, not_lt.1 hx'⟩
  -- a file of another process of the group, besides the most recent ones of `a`'s
  obtain ⟨x, hx, hpx, hxa⟩ : ∃ x ∈ coreFiles dir, process x = process f ∧ proc x ≠ proc a := by
    by_cases hfa : proc f = proc a
    · exact ⟨g, hg, hp, hfa ▸ hne⟩
    · exact ⟨f, hf, rfl, hfa⟩
  obtain ⟨kept, hnodup, hlen, hkept⟩ := h.recent (proc a)
  obtain ⟨y, hy, hyx, hynew⟩ := h.exists_recent hx
  have hmany : newer proc stamp (coreFiles dir) a < _ := newer_lt ha proc
  have hsub : y :: kept ⊆ (coreFiles dir).filter (fun x => process x = process f ∧
      newer proc stamp (coreFiles dir) x < maxCoreFiles) := by
    intro z hz
    rcases List.mem_cons.1 hz with rfl | hz
    · exact List.mem_filter.2 ⟨hy, decide_eq_true ⟨(h.process_eq hx hy hyx).trans hpx, hynew⟩⟩
    · obtain ⟨hz, hpz, hnew⟩ := hkept z hz
      exact List.mem_filter.2 ⟨hz, decide_eq_true ⟨(h.process_eq ha hz hpz).trans hpa, hnew⟩⟩
  have hcons : (y :: kept).Nodup := List.nodup_cons.2
    ⟨fun hmem => hxa (hyx.symm.trans (hkept y hmem).2.1), hnodup⟩
  have hle := (List.subperm_of_subset hcons hsub).length_le
  rw [← List.countP_eq_length_filter, List.length_cons, hlen] at hle
  omega

section converse

variable {fs : List String} {f : String} (h : Cores removes proc stamp dir)
  (hall : ∀ dir', dir'.Perm dir → Retained proc stamp dir' (ended (main removes 0 dir')))

include h hall

/-- What one file more than are kept, listed first, says about the files. -/
theorem first_overflow (hlen : fs.length = maxCoreFiles) (hsub : fs ++ [f] ⊆ coreFiles dir)
    (hnodup : (fs ++ [f]).Nodup) (hp : ∀ g ∈ fs ++ [f], process g = process f) :
    (trim (fs ++ [f]) = none →
      ∀ g ∈ coreFiles dir, newer proc stamp (coreFiles dir) g < maxCoreFiles) ∧
    ∀ kept g, trim (fs ++ [f]) = some (kept, some g) → g ∈ fs ++ [f] →
      maxCoreFiles ≤ newer proc stamp (coreFiles dir) g := by
  obtain ⟨dir', rest, hperm, hfiles⟩ := exists_listing hsub hnodup
  obtain ⟨hcores, hfilesPerm⟩ := h.perm hperm
  have hret := hall dir' hperm
  have hnewer (g : String) : newer proc stamp (coreFiles dir') g =
      newer proc stamp (coreFiles dir) g := hfilesPerm.countP_eq _
  obtain ⟨hnone, hsome⟩ := main_overflow removes hfiles hlen hp
  have hentry {g : String} (hg : g ∈ coreFiles dir) :
      ∃ e ∈ dir', e.isFile = true ∧ e.name = g := by
    obtain ⟨e, he, rfl⟩ := List.mem_map.1 (hfilesPerm.mem_iff.2 hg)
    obtain ⟨hmem, hfile⟩ := List.mem_filter.1 he
    exact ⟨e, hmem, hfile, rfl⟩
  refine ⟨fun htrim g hg => ?_, fun kept g htrim hg => ?_⟩
  · obtain ⟨e, he, hfile, rfl⟩ := hentry hg
    rw [← hnewer]
    exact ((hret e).1 (by rwa [hnone htrim])).2 hfile
  · obtain ⟨e, he, hfile, rfl⟩ := hentry (hsub hg)
    by_contra hnew
    rw [not_le, ← hnewer] at hnew
    have hmem := hsome kept _ htrim ((hret e).2 ⟨he, fun _ => hnew⟩)
    rw [mem_remove fun a ha => h.removes a (hsub (Option.some.inj ha ▸ hg))] at hmem
    exact hmem.2 rfl

omit h hall in
theorem exists_among {l : List String} {g : String} (hl : l.Nodup) (hg : g ∈ l)
    (hlen : maxCoreFiles < l.length) :
    ∃ fs : List String, fs.length = maxCoreFiles ∧ fs ++ [g] ⊆ l ∧ (fs ++ [g]).Nodup := by
  refine ⟨(l.erase g).take maxCoreFiles, ?_, ?_, ?_⟩
  · rw [List.length_take, List.length_erase_of_mem hg]
    omega
  · intro x hx
    rcases List.mem_append.1 hx with hx | hx
    · exact List.mem_of_mem_erase (List.mem_of_mem_take hx)
    · rwa [List.mem_singleton.1 hx]
  · rw [List.nodup_append_comm]
    exact List.nodup_cons.2 ⟨fun hmem => hl.not_mem_erase (List.mem_of_mem_take hmem),
      (hl.erase g).take⟩

section group

variable {l : List String} (hl : l.Nodup) (hsub : l ⊆ coreFiles dir)
  (hlen : maxCoreFiles < l.length)

include hl hsub hlen

theorem keyless_newer {p : String} (hp : ∀ g ∈ l, process g = p) (hf : f ∈ l)
    (hkey : sortKey f = none) :
    ∀ g ∈ coreFiles dir, newer proc stamp (coreFiles dir) g < maxCoreFiles := by
  obtain ⟨fs, hfs, hfsl, hnodup⟩ := exists_among hl hf hlen
  refine (first_overflow h hall hfs (List.Subset.trans hfsl hsub) hnodup fun g hg => ?_).1 ?_
  · rw [hp g (hfsl hg), hp f hf]
  · exact trim_keyless (f := f) (by simp [hfs]) (by simp) hkey

/-- The file that is deleted first is one to delete; with one key for all it is the last one. -/
theorem keyed_newer {p : String} (hp : ∀ g ∈ l, process g = p) (hf : f ∈ l)
    (hkeys : ∀ g ∈ l, (sortKey g).isSome) :
    (∃ g ∈ l, maxCoreFiles ≤ newer proc stamp (coreFiles dir) g) ∧
      ((∀ g ∈ l, sortKey g = sortKey f) →
        maxCoreFiles ≤ newer proc stamp (coreFiles dir) f) := by
  obtain ⟨fs, hfs, hfsl, hnodup⟩ := exists_among hl hf hlen
  let key := fun g => (sortKey g).getD 0
  have hkey : ∀ g ∈ fs ++ [f], sortKey g = some (key g) := by
    intro g hg
    obtain ⟨k, hk⟩ := Option.isSome_iff_exists.1 (hkeys g (hfsl hg))
    simp [key, hk]
  obtain ⟨newest, oldest, htrim, hsort, hperm, -⟩ := trim_sorted (by simp [hfs]) hkey
  have hmem : oldest ∈ fs ++ [f] := hperm.subset (by simp)
  have hold := (first_overflow h hall hfs (List.Subset.trans hfsl hsub) hnodup fun g hg => by
    rw [hp g (hfsl hg), hp f hf]).2 newest oldest htrim hmem
  refine ⟨⟨oldest, hfsl hmem, hold⟩, fun heq => ?_⟩
  have hsame : newestFirst key (fs ++ [f]) = fs ++ [f] := by
    refine List.Pairwise.insertionSort_eq (List.pairwise_of_forall_mem_list fun a ha b hb => ?_)
    exact le_of_eq (by simp only [key, heq a (hfsl ha), heq b (hfsl hb)])
  rw [hsame] at hsort
  obtain ⟨-, hlast⟩ := List.append_inj' hsort rfl
  obtain rfl : f = oldest := by simpa using hlast
  exact hold

end group

/-- Among files of a group with keys, more than are kept, one is to be deleted. -/
theorem exists_keyed_newer {q : String → Prop} [DecidablePred q]
    (hkeys : ∀ g ∈ coreFiles dir, process g = process f → q g → (sortKey g).isSome)
    (hlt : maxCoreFiles < (coreFiles dir).countP fun g => process g = process f ∧ q g) :
    ∃ g ∈ coreFiles dir, q g ∧ maxCoreFiles ≤ newer proc stamp (coreFiles dir) g := by
  rw [List.countP_eq_length_filter] at hlt
  obtain ⟨x, hx⟩ := List.exists_mem_of_length_pos (lt_of_le_of_lt (Nat.zero_le _) hlt)
  have hmem (g : String) (hg : g ∈ (coreFiles dir).filter fun g => process g = process f ∧ q g) :
      g ∈ coreFiles dir ∧ process g = process f ∧ q g := by
    simpa using hg
  obtain ⟨⟨g, hg, hold⟩, -⟩ := keyed_newer h hall (h.files_nodup.filter _)
    (List.filter_subset_self _) hlt (fun g hg => (hmem g hg).2.1) hx
    (fun g hg => hkeys g (hmem g hg).1 (hmem g hg).2.1 (hmem g hg).2.2)
  exact ⟨g, (hmem g hg).1, (hmem g hg).2.2, hold⟩

/-- If there is something to delete, the names that are sorted are read as they are meant. -/
theorem readable_of_retained {p : String}
    (hmany : maxCoreFiles < (coreFiles dir).countP fun g => proc g = p) (hf : f ∈ coreFiles dir)
    (hlarge : maxCoreFiles < alike (coreFiles dir) f) : Readable (proc f) (stamp f) := by
  obtain ⟨a, ha, hold⟩ := h.exists_old hmany
  have hl : ((coreFiles dir).filter (process · = process f)).Nodup := h.files_nodup.filter _
  have hmem {g : String} : g ∈ (coreFiles dir).filter (process · = process f) ↔
      g ∈ coreFiles dir ∧ process g = process f := by
    simp
  rw [alike, List.countP_eq_length_filter] at hlarge
  have hkeys : ∀ g ∈ (coreFiles dir).filter (process · = process f), (sortKey g).isSome := by
    intro g hg
    by_contra hnone
    have hnew := keyless_newer h hall hl (List.filter_subset_self _) hlarge
      (fun g hg => (hmem.1 hg).2) hg (Option.not_isSome_iff_eq_none.1 hnone) a ha
    omega
  by_cases hdot : '.' ∈ (proc f).toList
  · exfalso
    -- the files of the group are those of one process, and have the same key
    have hfew : (coreFiles dir).countP (fun x => process x = process f ∧
        newer proc stamp (coreFiles dir) x < maxCoreFiles) ≤ maxCoreFiles := by
      by_contra hlt
      obtain ⟨g, -, hnew, hge⟩ := exists_keyed_newer h hall
        (fun g hg hp _ => hkeys g (hmem.2 ⟨hg, hp⟩)) (not_le.1 hlt)
      omega
    rw [← List.countP_eq_length_filter, ← alike] at hlarge
    have hsame (g : String) (hg : g ∈ (coreFiles dir).filter (process · = process f)) :
        sortKey g = ((split '.' (proc f))[1]?.bind int).bind utcfromtimestamp := by
      have hproc := h.single hf hlarge hfew (hmem.1 hg).1 (hmem.1 hg).2
      have hkey := (h.named g (hmem.1 hg).1).of_mem (hproc ▸ hdot)
      rwa [hproc] at hkey
    obtain ⟨y, hfile, hproc, hnew⟩ := h.exists_recent hf
    rw [alike, List.countP_eq_length_filter] at hlarge
    have hyl := hmem.2 ⟨hfile, h.process_eq hf hfile hproc⟩
    have hge := (keyed_newer h hall hl (List.filter_subset_self _) hlarge
      (fun g hg => (hmem.1 hg).2) hyl hkeys).2 fun g hg => (hsame g hg).trans (hsame y hyl).symm
    omega
  · have hkey := hkeys f (hmem.2 ⟨hf, rfl⟩)
    rw [((h.named f hf).of_not_mem hdot).2, Option.isSome_iff_exists] at hkey
    obtain ⟨m, hm⟩ := hkey
    exact ⟨hdot, hm.trans (congrArg some (utcfromtimestamp_eq hm))⟩

end converse

/-- In whatever order the files are listed, the newest ones are kept. -/
theorem newest_kept_iff (h : Cores removes proc stamp dir) :
    (∀ dir', dir'.Perm dir → Retained proc stamp dir' (ended (main removes 0 dir'))) ↔
      Fits proc stamp (coreFiles dir) := by
  constructor
  · intro hall
    by_cases hmany : ∃ p, maxCoreFiles < (coreFiles dir).countP fun g => proc g = p
    · obtain ⟨p, hmany⟩ := hmany
      exact Or.inl fun f hf hlarge => readable_of_retained h hall hmany hf hlarge
    · have hfew (p : String) : (coreFiles dir).countP (fun g => proc g = p) ≤ maxCoreFiles :=
        not_lt.1 fun hlt => hmany ⟨p, hlt⟩
      refine Or.inr fun f hf => ⟨hfew _, ?_⟩
      by_contra hlt
      obtain ⟨g, hg, -, hold⟩ := exists_keyed_newer h hall (fun _ _ _ hkey => hkey)
        (not_le.1 hlt)
      have hnew : newer proc stamp (coreFiles dir) g < _ := newer_lt hg proc
      have hle := hfew (proc g)
      omega
  · intro hfits dir' hperm
    obtain ⟨hcores, hfiles⟩ := h.perm hperm
    rcases hfits.perm hfiles with hread | hfew
    · exact retained_of_readable hcores hread
    · exact retained_of_keyless hcores hfew

end main

/-- Core files of a process. -/
def cores (process : String) (timestamps : List String) : List Entry :=
  timestamps.map fun t => ⟨coreName process t "7.core.gz", true⟩

/-- Five files of swss, out of order, one of a process with a dot in its name and a directory. -/
def sampleDir : List Entry :=
  cores "swss" ["13", "11", "15"] ++ cores "start.sh" ["10"] ++ cores "swss" ["12", "14"] ++
    [⟨"old", false⟩]

/-- The name of the process and the time in a file of the sample. -/
def sampleProc (f : String) : String := if process f = "start" then "start.sh" else "swss"

def sampleStamp (f : String) : Int :=
  (((split '.' f).filterMap int).head?).getD 0

theorem oldest_deleted : Cores (fun _ => true) sampleProc sampleStamp sampleDir ∧
    Fits sampleProc sampleStamp (coreFiles sampleDir) ∧
    Retained sampleProc sampleStamp sampleDir (ended (main (fun _ => true) 0 sampleDir)) ∧
    ⟨"swss.11.7.core.gz", true⟩ ∉ (ended (main (fun _ => true) 0 sampleDir)).dir ∧
    ⟨"start.sh.10.7.core.gz", true⟩ ∈ (ended (main (fun _ => true) 0 sampleDir)).dir := by
  have hnamed : ∀ f ∈ coreFiles sampleDir, Named f (sampleProc f) (sampleStamp f) := by
    have hall : ∀ f ∈ coreFiles sampleDir, ∃ t ∈ ["10", "11", "12", "13", "14", "15"],
        f = coreName (sampleProc f) t "7.core.gz" ∧ int t = some (sampleStamp f) := by
      decide +kernel
    intro f hf
    obtain ⟨t, -, hname, hint⟩ := hall f hf
    exact ⟨t, _, hname, hint⟩
  have hkeys : ((coreFiles sampleDir).map fun f => (sampleProc f, sampleStamp f)).Nodup := by
    decide +kernel
  have hcores : Cores (fun _ => true) sampleProc sampleStamp sampleDir :=
    ⟨by decide +kernel, hnamed,
      fun f hf g hg hp ht => List.inj_on_of_nodup_map hkeys hf hg (Prod.ext hp ht), fun _ _ => rfl⟩
  have hfits : Fits sampleProc sampleStamp (coreFiles sampleDir) :=
    Or.inl (by unfold Readable; decide +kernel)
  exact ⟨hcores, hfits, (newest_kept_iff hcores).2 hfits _ (List.Perm.refl _), by decide +kernel,
    by decide +kernel⟩

/-- Five files of a process with a dot in its name. -/
def dotted : List Entry := cores "start.sh" ["1", "2", "3", "4", "5"]

/-- Five files with times after the year 9999. -/
def late : List Entry :=
  cores "swss" ["300000000001", "300000000002", "300000000003", "300000000004", "300000000005"]

/-- Both end the script: all of them stay, and so do the files of bgpd that come later. -/
theorem cleanup_ended :
    main (fun _ => true) 0 (dotted ++ cores "bgpd" ["1", "2", "3", "4", "5"]) =
      .error ⟨dotted ++ cores "bgpd" ["1", "2", "3", "4", "5"],
        [("start", dotted.map Entry.name)]⟩ ∧
    main (fun _ => true) 0 (late ++ cores "bgpd" ["1", "2", "3", "4", "5"]) =
      .error ⟨late ++ cores "bgpd" ["1", "2", "3", "4", "5"], [("swss", late.map Entry.name)]⟩ := by
  decide +kernel

end SonicBuildimage.Scripts.CoreCleanup
