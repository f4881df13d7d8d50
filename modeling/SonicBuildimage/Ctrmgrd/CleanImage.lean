/-
  Old images of a feature: `_do_clean` of kube_commands.py.

  Model.  An image is a line of `docker images`.  `grep` selects the lines that contain the name of
  the feature and not `latest`.  `docker rmi repo:tag` takes one line away, `docker rmi id --force`
  all lines with the id, and docker may refuse to remove an image that is in use.  A feature has a
  repository of a registry, and a local one for the image that came with the system.

  Proved: `clean_keeps_iff`.  The current and the last version and all images of other features stay
  if and only if what is removed can be told from them (`Separate`): with a local version listed,
  it is one of the feature and no version that is needed gives its place to it; otherwise no old
  version shares its id with an image that is needed.  An example where they do is
  `needed_removed`.

  Not modelled: the texts that are logged.
-/
import SonicBuildimage.Lib.PyDict
import SonicBuildimage.Lib.PyStr

namespace SonicBuildimage.Ctrmgrd.CleanImage

open SonicBuildimage.Lib

/-- A line of `docker images`; `rest` is when it was created, and its size. -/
structure Image where
  repo : String
  tag : String
  id : String
  rest : String
  deriving DecidableEq

def Image.line (r : Image) : String := join " " [r.repo, r.tag, r.id, r.rest]

/-- `docker images |grep feat |grep -v latest` -/
def selected (feat : String) (images : List Image) : List Image :=
  images.filter fun r => contains r.line feat && !contains r.line "latest"

def isLocal (repo : String) : Bool := (split '/' repo).length = 1

/-- The id and the repository of each version; of several repositories the last one stays. -/
def versionDict (rows : List Image) : Dict String (String × String) :=
  rows.foldl (fun d r => Dict.set d r.tag (r.id, r.repo)) []

section Docker

variable (inUse : Image → Bool)

/-- `docker rmi repo:tag` -/
def rmi (images : List Image) (repo tag : String) : Option (List Image) :=
  match images.find? fun r => r.repo = repo ∧ r.tag = tag with
  | none => none
  | some r =>
    if inUse r then none else some (images.filter fun r => ¬(r.repo = repo ∧ r.tag = tag))

/-- `docker tag id repo:tag` -/
def retag (images : List Image) (id repo tag : String) : Option (List Image) :=
  match images.find? fun r => r.id = id with
  | none => none
  | some r =>
    some (images.filter (fun r => ¬(r.repo = repo ∧ r.tag = tag)) ++ [⟨repo, tag, id, r.rest⟩])

/-- `docker rmi ids --force` -/
def rmiForce (images : List Image) (ids : List String) : List Image :=
  images.filter fun r => r.id ∉ ids ∨ inUse r

/-- The local version is removed; with a remote image of the same version it takes its place. -/
def cleanLocal (images : List Image) (replaced : Bool) (imagePrefix version id repo : String) :
    Nat × List Image :=
  if replaced then
    match rmi inUse images imagePrefix version with
    | none => (1, images)
    | some images =>
      match retag images id imagePrefix version with
      | none => (1, images)
      | some images =>
        match rmi inUse images repo version with
        | none => (1, images)
        | some images => (0, images)
  else
    match rmi inUse images repo version with
    | none => (1, images)
    | some images => (0, images)

/-- `_do_clean`: what it returns first, and the images afterwards. -/
def doClean (feat currentVersion lastVersion : String) (images : List Image) : Nat × List Image :=
  let rows := selected feat images
  if rows = [] then (1, images)
  else
    let remoteDict := versionDict (rows.filter fun r => !isLocal r.repo)
    let localDict := versionDict (rows.filter fun r => isLocal r.repo)
    match Dict.get? remoteDict currentVersion with
    | none => (0, images)
    | some (_, imagePrefix) =>
      let remoteDict := Dict.erase remoteDict currentVersion
      match localDict with
      | (version, id, repo) :: _ =>
        cleanLocal inUse images (Dict.get? remoteDict version).isSome imagePrefix version id repo
      | [] =>
        let ids := (Dict.erase remoteDict lastVersion).map fun e => e.2.1
        if ids = [] then (0, images)
        else
          (if images.any fun r => r.id ∈ ids && inUse r then 1 else 0, rmiForce inUse images ids)

end Docker

/-! ## What is needed -/

/-- A feature with its repositories. -/
structure Feature where
  name : String
  repo : String
  localRepo : String
  remote : isLocal repo = false
  isLocal : isLocal localRepo = true

/-- The current and the last version of the feature, and the images of all others. -/
def Needed (f : Feature) (currentVersion lastVersion : String) (r : Image) : Prop :=
  (r.repo = f.repo ∧ (r.tag = currentVersion ∨ r.tag = lastVersion)) ∨
    (r.repo ≠ f.repo ∧ r.repo ≠ f.localRepo)

/-- Of several lines with one version the last one counts. -/
def lastOf (rows : List Image) (tag : String) : Option Image :=
  rows.reverse.find? fun r => r.tag = tag

/-- The only local version that is looked at: that of the first local line. -/
def firstLocal : List Image → Option Image
  | [] => none
  | l :: rows => lastOf (l :: rows) l.tag

/-- The local version is one of the feature, or docker does not remove it. -/
def OwnLocal (inUse : Image → Bool) (f : Feature) (images : List Image) (q : Image) : Prop :=
  q.repo = f.localRepo ∨ rmi inUse images q.repo q.tag = none

/-- Nothing that is needed gives its place to the local version. -/
def Replaces (inUse : Image → Bool) (f : Feature) (currentVersion lastVersion : String)
    (images : List Image) (imagePrefix : String) (q : Image) : Prop :=
  rmi inUse images imagePrefix q.tag = none ∨
    (∀ r ∈ images, r.repo = imagePrefix → r.tag = q.tag →
      Needed f currentVersion lastVersion r → r.id = q.id) ∧ OwnLocal inUse f images q

/-- Nothing that is needed has the id of an old version. -/
def OwnIds (inUse : Image → Bool) (f : Feature) (currentVersion lastVersion : String)
    (images remote : List Image) : Prop :=
  ∀ q, lastOf remote q.tag = some q → q.tag ≠ currentVersion → q.tag ≠ lastVersion →
    ∀ r ∈ images, r.id = q.id → Needed f currentVersion lastVersion r → inUse r = true

/-- What is removed can be told from the images that are needed. -/
def Separate (inUse : Image → Bool) (f : Feature) (currentVersion lastVersion : String)
    (images : List Image) : Prop :=
  let rows := selected f.name images
  let remote := rows.filter fun r => !isLocal r.repo
  ∀ current, lastOf remote currentVersion = some current →
    match firstLocal (rows.filter fun r => isLocal r.repo) with
    | some q =>
      if (lastOf remote q.tag).isSome ∧ q.tag ≠ currentVersion then
        Replaces inUse f currentVersion lastVersion images current.repo q
      else OwnLocal inUse f images q
    | none => OwnIds inUse f currentVersion lastVersion images remote

/-- When an image was created, and its size, are those of its id. -/
def Listed (images : List Image) : Prop :=
  ∀ r ∈ images, ∀ r' ∈ images, r.id = r'.id → r.rest = r'.rest

/-! ## The versions -/

section Versions

variable {rows : List Image} {tag : String} {r : Image}

theorem lastOf_tag (h : lastOf rows tag = some r) : r.tag = tag := by
  simpa using List.find?_some h

theorem mem_of_lastOf (h : lastOf rows tag = some r) : r ∈ rows :=
  List.mem_reverse.1 (List.mem_of_find?_eq_some h)

theorem mem_firstLocal (h : firstLocal rows = some r) : r ∈ rows := by
  cases rows with
  | nil => cases h
  | cons l rows => exact mem_of_lastOf h

/-- A version of the dictionary, as an item of it. -/
def item (r : Image) : String × String × String := (r.tag, r.id, r.repo)

theorem versionDict_eq (rows : List Image) :
    versionDict rows = Dict.setAll [] (rows.map item) := by
  rw [Dict.setAll, List.foldl_map]
  rfl

theorem get?_map_item (rows : List Image) (tag : String) :
    Dict.get? (rows.map item) tag = (rows.find? fun r => r.tag = tag).map fun r => (item r).2 := by
  induction rows with
  | nil => rfl
  | cons r rows ih =>
    rw [List.map_cons, Dict.get?_cons, List.find?_cons, ih]
    by_cases h : r.tag = tag
    · simp [item, h]
    · simp [item, h]

theorem get?_versionDict (rows : List Image) (tag : String) :
    Dict.get? (versionDict rows) tag = (lastOf rows tag).map fun r => (item r).2 := by
  rw [versionDict_eq, Dict.get?_setAll, ← List.map_reverse, get?_map_item, Dict.get?_nil,
    Option.or_none, lastOf]

theorem mem_versionDict (rows : List Image) (e : String × String × String) :
    e ∈ versionDict rows ↔ ∃ r, lastOf rows r.tag = some r ∧ item r = e := by
  have hnodup : (Dict.keys (versionDict rows)).Nodup := by
    rw [versionDict_eq]
    exact Dict.keys_setAll_nodup (d := []) List.nodup_nil _
  rw [← Dict.get?_eq_some_iff hnodup (k := e.1) (v := e.2), get?_versionDict,
    Option.map_eq_some_iff]
  constructor
  · rintro ⟨r, hr, heq⟩
    have htag := lastOf_tag hr
    exact ⟨r, htag ▸ hr, Prod.ext htag heq⟩
  · rintro ⟨r, hr, rfl⟩
    exact ⟨r, hr, rfl⟩

theorem setAll_cons (l : List (String × String × String)) (e : String × String × String)
    (d : Dict String (String × String)) :
    ∃ v d', Dict.setAll (e :: d) l = (e.1, v) :: d' := by
  induction l generalizing e d with
  | nil => exact ⟨e.2, d, rfl⟩
  | cons e' l ih =>
    change ∃ v d', Dict.setAll (Dict.set (e :: d) e'.1 e'.2) l = _
    rw [Dict.set]
    by_cases h : e.1 = e'.1
    · rw [if_pos h, h]
      exact ih (e'.1, e'.2) d
    · rw [if_neg h]
      exact ih e _

/-- The first item of the dictionary is that of the first line's version. -/
theorem head?_versionDict (rows : List Image) :
    (versionDict rows).head? = (firstLocal rows).map item := by
  cases rows with
  | nil => rfl
  | cons l rows =>
    obtain ⟨v, d, hd⟩ := setAll_cons (rows.map item) (item l) []
    have heq : versionDict (l :: rows) = (l.tag, v) :: d := by
      rw [versionDict_eq]
      exact hd
    have hget := get?_versionDict (l :: rows) l.tag
    rw [heq, Dict.get?_cons, if_pos rfl] at hget
    obtain ⟨r, hr, hv⟩ := Option.map_eq_some_iff.1 hget.symm
    rw [heq, firstLocal, hr, Option.map_some, List.head?_cons]
    exact congrArg some (Prod.ext (lastOf_tag hr).symm hv.symm)

end Versions

/-! ## The commands -/

section Commands

variable {inUse : Image → Bool} {images images' : List Image} {r : Image} {repo tag : String}

/-- The images but those of a repository and a tag. -/
def without (repo tag : String) (images : List Image) : List Image :=
  images.filter fun r => ¬(r.repo = repo ∧ r.tag = tag)

theorem mem_without :
    r ∈ without repo tag images ↔ r ∈ images ∧ ¬(r.repo = repo ∧ r.tag = tag) := by
  rw [without, List.mem_filter, decide_eq_true_eq]

theorem rmi_eq_some (h : rmi inUse images repo tag = some images') :
    images' = without repo tag images := by
  unfold rmi at h
  split at h
  · cases h
  · split at h
    · cases h
    · exact (Option.some.inj h).symm

/-- The tag goes to the image with the id of one that is listed. -/
theorem retag_eq {q : Image} (hq : q ∈ images) (hlisted : Listed images) :
    retag images q.id repo tag = some (without repo tag images ++ [⟨repo, tag, q.id, q.rest⟩]) := by
  unfold retag
  cases h : images.find? fun r => r.id = q.id with
  | none => exact absurd (List.find?_eq_none.1 h q hq) (by simp)
  | some p =>
    have hp : p.id = q.id := by simpa using List.find?_some h
    rw [← hlisted p (List.mem_of_find?_eq_some h) q hq hp]
    rfl

theorem mem_moved {q : Image} (hq : q ∈ images) (hlisted : Listed images) (hr : r ∈ images) :
    r ∈ without repo tag images ++ [⟨repo, tag, q.id, q.rest⟩] ↔
      (r.repo = repo → r.tag = tag → r.id = q.id) := by
  rw [List.mem_append, mem_without, List.mem_singleton]
  constructor
  · rintro (⟨-, hne⟩ | rfl) hrepo htag
    · exact absurd ⟨hrepo, htag⟩ hne
    · rfl
  · intro h
    by_cases hline : r.repo = repo ∧ r.tag = tag
    · obtain ⟨rfl, rfl⟩ := hline
      have hid := h rfl rfl
      rw [← hid, ← hlisted r hr q hq hid]
      exact Or.inr rfl
    · exact Or.inl ⟨hr, hline⟩

/-- Lines of another repository do not matter to `docker rmi`. -/
theorem rmi_of_moved {p : Image} {repo' : String} (hp : p.repo = repo') (hne : repo ≠ repo') :
    rmi inUse (without repo' tag images ++ [p]) repo tag = none ↔
      rmi inUse images repo tag = none := by
  have hfind : (without repo' tag images ++ [p]).find? (fun r => r.repo = repo ∧ r.tag = tag) =
      images.find? fun r => r.repo = repo ∧ r.tag = tag := by
    have hnot : ¬(p.repo = repo ∧ p.tag = tag) := fun h => hne (h.1.symm.trans hp)
    rw [List.find?_append, List.find?_singleton, if_neg (by simpa using hnot), Option.or_none,
      without, List.find?_filter]
    congr 1
    funext r
    by_cases h : r.repo = repo ∧ r.tag = tag
    · simp [h.1, h.2, hne]
    · simp [h]
  unfold rmi
  rw [hfind]
  cases images.find? fun r => r.repo = repo ∧ r.tag = tag with
  | none => exact Iff.rfl
  | some r => cases inUse r <;> simp

end Commands

section Keeps

variable (inUse : Image → Bool) {f : Feature} {currentVersion lastVersion : String}
  {images : List Image} {q : Image}

/-- Where the feature's own local repository is meant, a line of it is not needed. -/
theorem not_needed_iff (hlocal : isLocal q.repo = true) :
    ¬Needed f currentVersion lastVersion q ↔ q.repo = f.localRepo := by
  have hne : q.repo ≠ f.repo := by
    intro heq
    rw [heq, f.remote] at hlocal
    exact absurd hlocal (by decide)
  simp [Needed, hne]

/-- All that is needed survives `docker rmi` of a local version. -/
theorem rmi_keeps_iff (currentVersion lastVersion : String) (hq : q ∈ images)
    (hlocal : isLocal q.repo = true) :
    (∀ r ∈ images, Needed f currentVersion lastVersion r → r ∈ without q.repo q.tag images) ↔
      q.repo = f.localRepo := by
  constructor
  · intro h
    have hnot : ¬Needed f currentVersion lastVersion q := fun hneeded =>
      (mem_without.1 (h q hq hneeded)).2 ⟨rfl, rfl⟩
    exact (not_needed_iff hlocal).1 hnot
  · intro hown r hr hneeded
    refine mem_without.2 ⟨hr, fun heq => ?_⟩
    exact (not_needed_iff (heq.1 ▸ hlocal)).2 (heq.1.trans hown) hneeded

/-- The local version is removed. -/
theorem cleanLocal_keeps_iff (hq : q ∈ images) (hlocal : isLocal q.repo = true)
    (imagePrefix : String) :
    (∀ r ∈ images, Needed f currentVersion lastVersion r →
      r ∈ (cleanLocal inUse images false imagePrefix q.tag q.id q.repo).2) ↔
      OwnLocal inUse f images q := by
  unfold cleanLocal OwnLocal
  rw [if_neg (by decide)]
  cases h : rmi inUse images q.repo q.tag with
  | none => exact ⟨fun _ => Or.inr rfl, fun _ r hr _ => hr⟩
  | some images' =>
    obtain rfl := rmi_eq_some h
    rw [rmi_keeps_iff _ _ hq hlocal]
    simp

/-- The local version is removed, after it has taken the place of a remote one. -/
theorem cleanLocal_replaced_iff (hlisted : Listed images) (hq : q ∈ images)
    (hlocal : isLocal q.repo = true) {imagePrefix : String}
    (hremote : isLocal imagePrefix = false) :
    (∀ r ∈ images, Needed f currentVersion lastVersion r →
      r ∈ (cleanLocal inUse images true imagePrefix q.tag q.id q.repo).2) ↔
      Replaces inUse f currentVersion lastVersion images imagePrefix q := by
  have hne : q.repo ≠ imagePrefix := by
    intro heq
    rw [heq, hremote] at hlocal
    exact absurd hlocal (by decide)
  unfold cleanLocal Replaces
  rw [if_pos rfl]
  cases h₁ : rmi inUse images imagePrefix q.tag with
  | none => exact ⟨fun _ => Or.inl rfl, fun _ r hr _ => hr⟩
  | some images₁ =>
    obtain rfl := rmi_eq_some h₁
    have hq₁ : q ∈ without imagePrefix q.tag images := mem_without.2 ⟨hq, fun h => hne h.1⟩
    have hlisted₁ : Listed (without imagePrefix q.tag images) := fun r hr r' hr' =>
      hlisted r (mem_without.1 hr).1 r' (mem_without.1 hr').1
    have hidem : without imagePrefix q.tag (without imagePrefix q.tag images) =
        without imagePrefix q.tag images := by
      simp [without]
    have hmoved (r : Image) (hr : r ∈ images) :
        r ∈ without imagePrefix q.tag images ++ [⟨imagePrefix, q.tag, q.id, q.rest⟩] ↔
          (r.repo = imagePrefix → r.tag = q.tag → r.id = q.id) := mem_moved hq hlisted hr
    have hrefused : rmi inUse (without imagePrefix q.tag images ++
        [⟨imagePrefix, q.tag, q.id, q.rest⟩]) q.repo q.tag = none ↔
          rmi inUse images q.repo q.tag = none := rmi_of_moved rfl hne
    dsimp only
    rw [retag_eq hq₁ hlisted₁, hidem]
    dsimp only
    cases h₃ : rmi inUse (without imagePrefix q.tag images ++ [⟨imagePrefix, q.tag, q.id, q.rest⟩])
        q.repo q.tag with
    | none =>
      have hown : OwnLocal inUse f images q := Or.inr (hrefused.1 h₃)
      simp only [reduceCtorEq, false_or, hown, and_true]
      exact ⟨fun h r hr hrepo htag hneeded => (hmoved r hr).1 (h r hr hneeded) hrepo htag,
        fun h r hr hneeded => (hmoved r hr).2 fun hrepo htag => h r hr hrepo htag hneeded⟩
    | some images₃ =>
      obtain rfl := rmi_eq_some h₃
      have hown : OwnLocal inUse f images q ↔ q.repo = f.localRepo := by
        rw [OwnLocal, ← hrefused, h₃]
        simp
      rw [hown, ← rmi_keeps_iff currentVersion lastVersion hq hlocal]
      simp only [reduceCtorEq, false_or]
      constructor
      · intro h
        refine ⟨fun r hr hrepo htag hneeded => ?_, fun r hr hneeded => ?_⟩
        · exact (hmoved r hr).1 (mem_without.1 (h r hr hneeded)).1 hrepo htag
        · exact mem_without.2 ⟨hr, (mem_without.1 (h r hr hneeded)).2⟩
      · rintro ⟨hids, hlocals⟩ r hr hneeded
        refine mem_without.2 ⟨?_, (mem_without.1 (hlocals r hr hneeded)).2⟩
        exact (hmoved r hr).2 fun hrepo htag => hids r hr hrepo htag hneeded

/-- The ids of the versions that are neither the current nor the last one. -/
theorem mem_oldIds (rows : List Image) (id : String) :
    id ∈ (Dict.erase (Dict.erase (versionDict rows) currentVersion) lastVersion).map
        (fun e => e.2.1) ↔
      ∃ q, lastOf rows q.tag = some q ∧ q.tag ≠ currentVersion ∧ q.tag ≠ lastVersion ∧
        q.id = id := by
  simp only [List.mem_map, Dict.erase, List.mem_filter, mem_versionDict, decide_eq_true_eq]
  constructor
  · rintro ⟨_, ⟨⟨⟨q, hq, rfl⟩, hcur⟩, hlast⟩, rfl⟩
    exact ⟨q, hq, hcur, hlast, rfl⟩
  · rintro ⟨q, hq, hcur, hlast, rfl⟩
    exact ⟨item q, ⟨⟨⟨q, hq, rfl⟩, hcur⟩, hlast⟩, rfl⟩

/-- The old versions are removed by their ids. -/
theorem rmiForce_keeps_iff (rows : List Image) :
    (∀ r ∈ images, Needed f currentVersion lastVersion r → r ∈ rmiForce inUse images
      ((Dict.erase (Dict.erase (versionDict rows) currentVersion) lastVersion).map
        fun e => e.2.1)) ↔ OwnIds inUse f currentVersion lastVersion images rows := by
  simp only [rmiForce, List.mem_filter, decide_eq_true_eq, mem_oldIds]
  constructor
  · intro h q hq hcur hlast r hr hid hneeded
    exact (h r hr hneeded).2.resolve_left fun hnot => hnot ⟨q, hq, hcur, hlast, hid.symm⟩
  · intro h r hr hneeded
    refine ⟨hr, or_iff_not_imp_left.2 fun hold => ?_⟩
    obtain ⟨q, hq, hcur, hlast, hid⟩ := not_not.1 hold
    exact h q hq hcur hlast r hr hid.symm hneeded

/-- Images that are needed stay just where they are told from what is removed. -/
theorem clean_keeps_iff (hlisted : Listed images) :
    (∀ r ∈ images, Needed f currentVersion lastVersion r →
      r ∈ (doClean inUse f.name currentVersion lastVersion images).2) ↔
      Separate inUse f currentVersion lastVersion images := by
  unfold doClean Separate
  dsimp only
  by_cases hrows : selected f.name images = []
  · rw [if_pos hrows, hrows]
    exact ⟨fun _ current hcurrent => absurd (mem_of_lastOf hcurrent) List.not_mem_nil,
      fun _ r hr _ => hr⟩
  rw [if_neg hrows]
  generalize hremote : (selected f.name images).filter (fun r => !isLocal r.repo) = remote
  generalize hloc : (selected f.name images).filter (fun r => isLocal r.repo) = locals
  have hhead := head?_versionDict locals
  rw [get?_versionDict]
  cases hcur : lastOf remote currentVersion with
  | none =>
    exact ⟨fun _ current hcurrent => absurd hcurrent (Option.some_ne_none _).symm,
      fun _ r hr _ => hr⟩
  | some current =>
    have hcurrent : isLocal current.repo = false := by
      have hmem := mem_of_lastOf hcur
      rw [← hremote] at hmem
      simpa using (List.mem_filter.1 hmem).2
    simp only [Option.some.injEq, forall_eq', Option.map_some, item]
    cases hfirst : firstLocal locals with
    | none =>
      rw [hfirst, Option.map_none, List.head?_eq_none_iff] at hhead
      rw [hhead]
      dsimp only
      rw [← rmiForce_keeps_iff]
      split
      · next hids => simp [hids, rmiForce]
      · exact Iff.rfl
    | some q =>
      obtain ⟨hq, hlocal⟩ : q ∈ images ∧ isLocal q.repo = true := by
        have hmem := mem_firstLocal hfirst
        rw [← hloc] at hmem
        obtain ⟨hsel, hlocal⟩ := List.mem_filter.1 hmem
        exact ⟨(List.mem_filter.1 hsel).1, hlocal⟩
      rw [hfirst, Option.map_some] at hhead
      obtain ⟨d, hd⟩ := List.head?_eq_some_iff.1 hhead
      rw [hd]
      dsimp only [item]
      rw [Dict.get?_erase, get?_versionDict]
      by_cases hcurrentTag : currentVersion = q.tag
      · rw [if_pos hcurrentTag, if_neg fun h => h.2 hcurrentTag.symm]
        exact cleanLocal_keeps_iff inUse hq hlocal _
      · rw [if_neg hcurrentTag, Option.isSome_map]
        cases lastOf remote q.tag with
        | none =>
          rw [if_neg fun h => absurd h.1 (by decide)]
          exact cleanLocal_keeps_iff inUse hq hlocal _
        | some older =>
          rw [if_pos ⟨rfl, Ne.symm hcurrentTag⟩]
          exact cleanLocal_replaced_iff inUse hlisted hq hlocal hcurrent

end Keeps

/-! ## Listings -/

def snmp : Feature where
  name := "snmp"
  repo := "acr.io/docker-snmp"
  localRepo := "docker-snmp"
  remote := by decide +kernel
  isLocal := by decide +kernel

def old : Image := ⟨"acr.io/docker-snmp", "1", "aaa", "2 months ago 300MB"⟩

def current : Image := ⟨"acr.io/docker-snmp", "3", "ccc", "2 days ago 300MB"⟩

def shipped : Image := ⟨"docker-snmp", "2020", "lll", "3 years ago 280MB"⟩

/-- The local version is removed first, also where the current one has the id of an old one. -/
theorem local_removed :
    Listed [shipped, { old with id := "ccc", rest := current.rest }, current] ∧
      Separate (fun _ => false) snmp "3" "2"
        [shipped, { old with id := "ccc", rest := current.rest }, current] ∧
      shipped ∉ (doClean (fun _ => false) "snmp" "3" "2"
        [shipped, { old with id := "ccc", rest := current.rest }, current]).2 := by
  have hlisted : Listed [shipped, { old with id := "ccc", rest := current.rest }, current] := by
    unfold Listed
    decide
  refine ⟨hlisted, (clean_keeps_iff _ hlisted).1 ?_, by decide +kernel⟩
  unfold Needed
  decide +kernel

/-- The current version has the id of an old one, or a feature has `snmp` in its name. -/
theorem needed_removed :
    (doClean (fun _ => false) "snmp" "3" "2"
        [{ old with id := "ccc", rest := current.rest }, current]).2 = [] ∧
      (doClean (fun _ => false) "snmp" "3" "2"
        [current, ⟨"acr.io/docker-snmp-trap", "5", "ddd", "3 days ago 90MB"⟩]).2 = [current] := by
  decide +kernel

end SonicBuildimage.Ctrmgrd.CleanImage
