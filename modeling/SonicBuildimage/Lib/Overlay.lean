/-
  Partial maps laid over each other, and families of them.

  `overlay f g` takes a value from `f` and, where `f` has none, from `g`; `minus f g` drops from
  `f` what `g` says as well.  A family `e` of maps over an index type, where an index inherits
  from the indices below it (`base`, the most general one first), is reduced to the family in
  which no map says what it inherits (`Reduced`).

  Proved:
  * `Reduced.eq_on`: the reduced family is determined on any set of indices that is closed
    under `base`.
  * `Reduced.eq_of_minus`: a family laid over a default can be thinned out against the default
    and what is inherited, and the reduced family stays the same.

  `Retained` is the weaker relation of a family to one that keeps enough of it at each index alone.
  It keeps what a chain of indices says (`Retained.chain`), but what an index says that inherits
  from two others only if they do not get into each other's way (`Retained.diamond_iff`).
-/
import Mathlib.Data.List.Sort

namespace SonicBuildimage.Lib

variable {ι κ ν : Type}

/-! ## Maps -/

section Maps

def overlay (f g : κ → Option ν) : κ → Option ν := fun k => (f k).or (g k)

def nothing : κ → Option ν := fun _ => none

@[simp] theorem nothing_overlay (f : κ → Option ν) : overlay nothing f = f := by
  funext k
  rfl

@[simp] theorem overlay_nothing (f : κ → Option ν) : overlay f nothing = f := by
  funext k
  exact Option.or_none

theorem overlay_assoc (f g h : κ → Option ν) :
    overlay (overlay f g) h = overlay f (overlay g h) := by
  funext k
  exact Option.or_assoc

variable [DecidableEq ν]

def minus (f g : κ → Option ν) : κ → Option ν := fun k => if f k = g k then none else f k

@[simp] theorem nothing_minus (f : κ → Option ν) : minus nothing f = nothing := by
  funext k
  unfold minus nothing
  split
  · rfl
  · rfl

@[simp] theorem minus_nothing (f : κ → Option ν) : minus f nothing = f := by
  funext k
  unfold minus nothing
  split
  · next h =>
    exact h.symm
  · rfl

/-- What was dropped is found below. -/
theorem overlay_minus (f g : κ → Option ν) : overlay (minus f g) g = overlay f g := by
  funext k
  unfold overlay minus
  split
  · next h =>
    cases hg : g k with
    | none => rw [h, hg]
    | some v => rw [h, hg]; rfl
  · rfl

/-- What is dropped against `d` over `b` is found in `d`, or it would be dropped against `b`. -/
theorem minus_overlay_minus (m d b : κ → Option ν) :
    minus (overlay (minus m (overlay d b)) d) b = minus (overlay m d) b := by
  funext k
  unfold minus overlay
  cases hd : d k with
  | some u =>
    cases hm : m k with
    | none => simp [hd, hm]
    | some v =>
      by_cases huv : v = u
      · simp [hd, hm, huv]
      · simp [hd, hm, huv]
  | none =>
    by_cases hmb : m k = b k
    · simp [hd, hmb]
    · simp [hd, hmb]

end Maps

/-! ## Families of maps -/

/-- The maps of a list of indices over each other, the last one on top. -/
def stack (A : ι → κ → Option ν) (l : List ι) : κ → Option ν :=
  l.foldl (fun acc j => overlay (A j) acc) nothing

theorem foldl_overlay (A : ι → κ → Option ν) (l : List ι) (f : κ → Option ν) :
    l.foldl (fun acc j => overlay (A j) acc) f = overlay (stack A l) f := by
  induction l generalizing f with
  | nil => exact (nothing_overlay f).symm
  | cons j l ih =>
    unfold stack
    rw [List.foldl_cons, List.foldl_cons, ih, ih (overlay (A j) nothing), overlay_nothing,
      overlay_assoc]

theorem stack_cons (A : ι → κ → Option ν) (j : ι) (l : List ι) :
    stack A (j :: l) = overlay (stack A l) (A j) := by
  have h := foldl_overlay A l (overlay (A j) nothing)
  rw [overlay_nothing] at h
  unfold stack
  rw [List.foldl_cons, overlay_nothing]
  exact h

theorem stack_append_singleton (A : ι → κ → Option ν) (l : List ι) (j : ι) :
    stack A (l ++ [j]) = overlay (A j) (stack A l) := by
  unfold stack
  rw [List.foldl_append]
  rfl

theorem stack_append (A : ι → κ → Option ν) (l l' : List ι) :
    stack A (l ++ l') = overlay (stack A l') (stack A l) := by
  unfold stack
  rw [List.foldl_append]
  exact foldl_overlay A l' _

theorem stack_singleton (A : ι → κ → Option ν) (j : ι) : stack A [j] = A j := overlay_nothing _

theorem stack_eq_none_iff (A : ι → κ → Option ν) (l : List ι) (k : κ) :
    stack A l k = none ↔ ∀ j ∈ l, A j k = none := by
  induction l with
  | nil => exact iff_of_true rfl nofun
  | cons j l ih =>
    rw [stack_cons, overlay, Option.or_eq_none_iff, ih, List.forall_mem_cons, and_comm]

/-- Indices without a map can be left out. -/
theorem stack_filter {A : ι → κ → Option ν} {l : List ι} {p : ι → Bool}
    (h : ∀ j ∈ l, p j = false → A j = nothing) : stack A (l.filter p) = stack A l := by
  induction l with
  | nil => rfl
  | cons j l ih =>
    obtain ⟨hj, hl⟩ := List.forall_mem_cons.1 h
    rw [List.filter_cons]
    by_cases hp : p j = true
    · rw [if_pos hp, stack_cons, stack_cons, ih hl]
    · rw [if_neg hp, stack_cons, ih hl, hj (Bool.eq_false_of_not_eq_true hp), overlay_nothing]

theorem stack_congr {A A' : ι → κ → Option ν} {l : List ι} (h : ∀ j ∈ l, A j = A' j) :
    stack A l = stack A' l := by
  induction l with
  | nil => rfl
  | cons j l ih =>
    obtain ⟨hj, hl⟩ := List.forall_mem_cons.1 h
    rw [stack_cons, stack_cons, ih hl, hj]

theorem stack_nothing (l : List ι) : stack (fun _ => (nothing : κ → Option ν)) l = nothing := by
  induction l with
  | nil => rfl
  | cons j l ih => rw [stack_cons, ih, nothing_overlay]

/-- `A` says less than `e`, but the same over what is inherited. -/
structure Retained (base : ι → List ι) (e A : ι → κ → Option ν) : Prop where
  agree : ∀ i, overlay (A i) (stack A (base i)) = overlay (e i) (stack A (base i))
  less : ∀ i k, e i k = none → A i k = none

section Retained

variable {base : ι → List ι} {e A : ι → κ → Option ν}

theorem Retained.bottom (h : Retained base e A) {i : ι} (hi : base i = []) : A i = e i := by
  have hover := h.agree i
  rw [hi] at hover
  rwa [show stack A [] = nothing from rfl, overlay_nothing, overlay_nothing] at hover

/-- If the same is inherited, the same is said. -/
theorem Retained.chain (h : Retained base e A) {i : ι} (hi : stack A (base i) = stack e (base i)) :
    stack A (base i ++ [i]) = stack e (base i ++ [i]) := by
  rw [stack_append_singleton, stack_append_singleton, h.agree i, hi]

/-- What was dropped is inherited. -/
theorem Retained.dropped (h : Retained base e A) {a c : ι} (ha : base a = []) (hc : base c = [a])
    {k : κ} {v : ν} (hdrop : A c k = none) (hec : e c k = some v) : e a k = some v := by
  have hc' := congrFun (h.agree c) k
  rwa [hc, stack_singleton, h.bottom ha, overlay, overlay, hdrop, hec] at hc'

/-- The index `i` inherits from `b` and then from `c`, which both inherit from `a`.  It sees a value
    that was dropped at `c` as it is in `a`, unless `b` has another one. -/
theorem Retained.diamond_iff (h : Retained base e A) {a b c i : ι} (ha : base a = [])
    (hb : base b = [a]) (hc : base c = [a]) (hi : base i = [a, b, c]) (k : κ) :
    stack A (base i ++ [i]) k = stack e (base i ++ [i]) k ↔
      ∀ v w, e i k = none → A c k = none → e c k = some v → e b k = some w → w = v := by
  have ha' := h.bottom ha
  have hb' := congrFun (h.agree b) k
  have hc' := congrFun (h.agree c) k
  have hi' := congrFun (h.agree i) k
  have hless := h.less c k
  rw [hb, stack_singleton, ha'] at hb'
  rw [hc, stack_singleton, ha'] at hc'
  have hstack : ∀ B : ι → κ → Option ν,
      stack B (base i) k = (B c k).or ((B b k).or (B a k)) := by
    intro B
    rw [hi, stack_cons, stack_cons, stack_singleton, overlay, overlay, Option.or_assoc]
  rw [stack_append_singleton, stack_append_singleton, hi']
  unfold overlay at hb' hc' ⊢
  rw [hstack A, hstack e, ha', hb']
  cases hei : e i k with
  | some v => exact iff_of_true rfl nofun
  | none =>
    rw [Option.none_or, Option.none_or]
    cases hec : e c k with
    | none => exact iff_of_true (by rw [hless hec]) nofun
    | some v =>
      rw [hec] at hc'
      cases hAc : A c k with
      | some v' => exact iff_of_true (by rwa [hAc] at hc') nofun
      | none =>
        rw [Option.none_or, Option.some_or, h.dropped ha hc hAc hec]
        cases heb : e b k with
        | none => exact iff_of_true rfl nofun
        | some w => simp

end Retained

variable [DecidableEq ν]

/-- `A` is `e` without what is inherited. -/
def Reduced (base : ι → List ι) (e A : ι → κ → Option ν) : Prop :=
  ∀ i, A i = minus (e i) (stack A (base i))

section Reduced

variable {base : ι → List ι} {e e' A A' : ι → κ → Option ν}

theorem Reduced.overlay_stack (h : Reduced base e A) (i : ι) :
    overlay (A i) (stack A (base i)) = overlay (e i) (stack A (base i)) := by
  rw [h i]
  exact overlay_minus _ _

/-- Reduced families agree where the families agree. -/
theorem Reduced.eq_on (hwf : WellFounded fun j i => j ∈ base i) (h : Reduced base e A)
    (h' : Reduced base e' A') {S : ι → Prop} (hS : ∀ i, S i → ∀ j ∈ base i, S j)
    (he : ∀ i, S i → e i = e' i) (i : ι) (hi : S i) : A i = A' i := by
  induction i using hwf.induction with
  | _ i ih =>
    have hbelow : stack A (base i) = stack A' (base i) :=
      stack_congr fun j hj => ih j hj (hS i hi j hj)
    rw [h i, h' i, he i hi, hbelow]

/-- A family `m` over a default `d` may drop what the default over the inherited maps says. -/
theorem Reduced.eq_of_minus (hwf : WellFounded fun j i => j ∈ base i)
    {m m' d : ι → κ → Option ν} (h : Reduced base (fun i => overlay (m i) (d i)) A)
    (h' : Reduced base (fun i => overlay (m' i) (d i)) A')
    (hm : ∀ i, m' i = minus (m i) (overlay (d i) (stack A' (base i)))) : A' = A := by
  funext i
  induction i using hwf.induction with
  | _ i ih =>
    have hbelow : stack A' (base i) = stack A (base i) := stack_congr ih
    rw [h i, h' i]
    dsimp only
    rw [hm i, hbelow, minus_overlay_minus]

end Reduced

end SonicBuildimage.Lib
