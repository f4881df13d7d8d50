/-
  `merge_intervals` of dhcp_utilities/common/utils.py: the ranges of a port, merged.

  Model.  A range is a pair of addresses, and the merged ranges are kept with the last one first.
  The ranges of a port lie in one network, so all addresses have one version; Python refuses to
  compare others.

  Proved: `mergeIntervals_spec`.  The merged ranges are in increasing order, they do not overlap,
  and they have exactly the addresses of the ranges that were given.  The loop keeps `Merged`: it
  is about the ranges so far, in the order of their starts, so nothing that is merged starts
  behind the range that comes next.
-/
import SonicBuildimage.DhcpUtilities.Monitor

namespace SonicBuildimage.DhcpUtilities

abbrev IpRange := IpAddr × IpAddr

/-- One interval of `merge_intervals`, with the last one of the merged first. -/
def mergeStep (ret : List IpRange) (interval : IpRange) : List IpRange :=
  match ret with
  | [] => [interval]
  | last :: ret =>
    if interval.1.value > last.2.value then interval :: last :: ret
    else (last.1, if last.2.value < interval.2.value then interval.2 else last.2) :: ret

def mergeIntervals (intervals : List IpRange) : List IpRange :=
  ((intervals.insertionSort fun a b => a.1.value ≤ b.1.value).foldl mergeStep []).reverse

/-- An address of a range. -/
def InRange (x : IpAddr) (r : IpRange) : Prop :=
  r.1.version = x.version ∧ r.1.value ≤ x.value ∧ x.value ≤ r.2.value

/-- Ranges without an address in common. -/
def Apart (r r' : IpRange) : Prop := ∀ x, ¬(InRange x r ∧ InRange x r')

/-- A range of addresses of one version. -/
def Proper (v : Nat) (r : IpRange) : Prop :=
  r.1.version = v ∧ r.2.version = v ∧ r.1.value ≤ r.2.value

theorem Proper.inRange_iff {v : Nat} {r : IpRange} (h : Proper v r) (x : IpAddr) :
    InRange x r ↔ v = x.version ∧ r.1.value ≤ x.value ∧ x.value ≤ r.2.value := by
  unfold InRange
  rw [h.1]

theorem apart_of_lt {r r' : IpRange} (h : r.2.value < r'.1.value) : Apart r r' := by
  rintro x ⟨⟨-, -, hx⟩, -, hx', -⟩
  omega

/-- What is merged, the last range first, from the ranges so far. -/
structure Merged (v : Nat) (ret rs : List IpRange) : Prop where
  proper : ∀ m ∈ ret, Proper v m
  order : ret.Pairwise fun m m' => m'.2.value < m.1.value
  same : ∀ x, (∃ m ∈ ret, InRange x m) ↔ ∃ r ∈ rs, InRange x r

section Step

variable {v : Nat} {ret rs : List IpRange} {r last : IpRange}

theorem Merged.nil : Merged v [] [] := ⟨by simp, by simp, by simp⟩

theorem exists_inRange_append (x : IpAddr) :
    (∃ r' ∈ rs ++ [r], InRange x r') ↔ (∃ r' ∈ rs, InRange x r') ∨ InRange x r := by
  simp [or_and_right, exists_or]

/-- A range behind all of them. -/
theorem Merged.push (h : Merged v ret rs) (hr : Proper v r)
    (hlt : ∀ m ∈ ret, m.2.value < r.1.value) : Merged v (r :: ret) (rs ++ [r]) := by
  refine ⟨List.forall_mem_cons.2 ⟨hr, h.proper⟩, List.pairwise_cons.2 ⟨hlt, h.order⟩, fun x => ?_⟩
  rw [exists_inRange_append, ← h.same x, or_comm]
  simp only [List.mem_cons, exists_eq_or_imp]

/-- A range that starts in the last one: the last one grows, if it has to. -/
theorem Merged.extend (h : Merged v (last :: ret) rs) (hr : Proper v r)
    (hstart : last.1.value ≤ r.1.value) (hle : r.1.value ≤ last.2.value) {e : IpAddr}
    (hv : e.version = v) (he : e.value = max last.2.value r.2.value) :
    Merged v ((last.1, e) :: ret) (rs ++ [r]) := by
  obtain ⟨hlast, hproper⟩ := List.forall_mem_cons.1 h.proper
  have hgrown : Proper v (last.1, e) := ⟨hlast.1, hv, by have := hlast.2.2; simp only; omega⟩
  refine ⟨List.forall_mem_cons.2 ⟨hgrown, hproper⟩, ?_, fun x => ?_⟩
  · exact List.pairwise_cons.2 (List.pairwise_cons.1 h.order)
  · have hunion : InRange x (last.1, e) ↔ InRange x last ∨ InRange x r := by
      rw [hgrown.inRange_iff, hlast.inRange_iff, hr.inRange_iff]
      simp only
      omega
    rw [exists_inRange_append, ← h.same x]
    simp only [List.mem_cons, exists_eq_or_imp, hunion]
    exact or_right_comm

theorem Merged.step (h : Merged v ret rs) (hr : Proper v r)
    (hstart : ∀ m ∈ ret, m.1.value ≤ r.1.value) :
    Merged v (mergeStep ret r) (rs ++ [r]) ∧ ∀ m ∈ mergeStep ret r, m.1.value ≤ r.1.value := by
  cases ret with
  | nil => exact ⟨h.push hr (by simp), by simp [mergeStep]⟩
  | cons last ret =>
    obtain ⟨hlast, hrest⟩ := List.forall_mem_cons.1 hstart
    have hproper := h.proper last List.mem_cons_self
    rw [mergeStep]
    by_cases hgt : r.1.value > last.2.value
    · rw [if_pos hgt]
      refine ⟨h.push hr fun m hm => ?_, List.forall_mem_cons.2 ⟨le_rfl, hstart⟩⟩
      rcases List.mem_cons.1 hm with rfl | hm
      · exact hgt
      · have hm' := (List.pairwise_cons.1 h.order).1 m hm
        have hle := hproper.2.2
        omega
    · rw [if_neg hgt]
      refine ⟨h.extend hr hlast (by omega) ?_ ?_, List.forall_mem_cons.2 ⟨hlast, hrest⟩⟩
      · split
        · exact hr.2.1
        · exact hproper.2.1
      · split <;> omega

theorem Merged.foldl {todo : List IpRange} (h : Merged v ret rs) (hproper : ∀ r ∈ todo, Proper v r)
    (hsorted : todo.Pairwise fun r r' => r.1.value ≤ r'.1.value)
    (hstart : ∀ r ∈ todo, ∀ m ∈ ret, m.1.value ≤ r.1.value) :
    Merged v (todo.foldl mergeStep ret) (rs ++ todo) := by
  induction todo generalizing ret rs with
  | nil =>
    rw [List.append_nil]
    exact h
  | cons r todo ih =>
    obtain ⟨hfirst, hrest⟩ := List.pairwise_cons.1 hsorted
    obtain ⟨hr, htodo⟩ := List.forall_mem_cons.1 hproper
    obtain ⟨hstep, hnext⟩ := h.step hr (hstart r List.mem_cons_self)
    rw [List.foldl_cons, List.append_cons]
    exact ih hstep htodo hrest fun r' hr' m hm => (hnext m hm).trans (hfirst r' hr')

end Step

theorem mergeIntervals_merged {v : Nat} {rs : List IpRange} (h : ∀ r ∈ rs, Proper v r) :
    Merged v (mergeIntervals rs).reverse rs := by
  have hperm := List.perm_insertionSort (fun a b : IpRange => a.1.value ≤ b.1.value) rs
  have hmerged := Merged.nil.foldl (fun r hr => h r (hperm.mem_iff.1 hr))
    (List.pairwise_insertionSort _ _) (by simp)
  unfold mergeIntervals
  rw [List.reverse_reverse]
  refine ⟨hmerged.proper, hmerged.order, fun x => (hmerged.same x).trans ?_⟩
  simp only [List.nil_append, hperm.mem_iff]

theorem pairwise_mergeIntervals {v : Nat} {rs : List IpRange} (h : ∀ r ∈ rs, Proper v r) :
    (mergeIntervals rs).Pairwise fun m m' => m.2.value < m'.1.value :=
  List.pairwise_reverse.1 (mergeIntervals_merged h).order

theorem mem_mergeIntervals_iff {v : Nat} {rs : List IpRange} (h : ∀ r ∈ rs, Proper v r)
    (x : IpAddr) : (∃ m ∈ mergeIntervals rs, InRange x m) ↔ ∃ r ∈ rs, InRange x r := by
  have hsame := (mergeIntervals_merged h).same x
  simp only [List.mem_reverse] at hsame
  exact hsame

/-- The merged ranges are in increasing order, apart from each other, and have the addresses of the
    ranges. -/
theorem mergeIntervals_spec {v : Nat} {rs : List IpRange} (h : ∀ r ∈ rs, Proper v r) :
    ((mergeIntervals rs).Pairwise fun m m' => m.1.value < m'.1.value) ∧
      (mergeIntervals rs).Pairwise Apart ∧ (∀ m ∈ mergeIntervals rs, Proper v m) ∧
      ∀ x, (∃ m ∈ mergeIntervals rs, InRange x m) ↔ ∃ r ∈ rs, InRange x r := by
  have hproper : ∀ m ∈ mergeIntervals rs, Proper v m := fun m hm =>
    (mergeIntervals_merged h).proper m (List.mem_reverse.2 hm)
  have horder := pairwise_mergeIntervals h
  refine ⟨?_, horder.imp apart_of_lt, hproper, mem_mergeIntervals_iff h⟩
  refine horder.imp_of_mem fun {m m'} hm _ hlt => ?_
  exact lt_of_le_of_lt (hproper m hm).2.2 hlt

/-- A range inside another, and one that starts at its end. -/
theorem merged_sample :
    (∀ r ∈ [((⟨4, 10⟩, ⟨4, 12⟩) : IpRange), (⟨4, 2⟩, ⟨4, 8⟩), (⟨4, 3⟩, ⟨4, 5⟩), (⟨4, 8⟩, ⟨4, 9⟩)],
        Proper 4 r) ∧
      mergeIntervals [(⟨4, 10⟩, ⟨4, 12⟩), (⟨4, 2⟩, ⟨4, 8⟩), (⟨4, 3⟩, ⟨4, 5⟩), (⟨4, 8⟩, ⟨4, 9⟩)] =
        [(⟨4, 2⟩, ⟨4, 9⟩), (⟨4, 10⟩, ⟨4, 12⟩)] ∧
      (mergeIntervals [(⟨4, 10⟩, ⟨4, 12⟩), (⟨4, 2⟩, ⟨4, 8⟩), (⟨4, 3⟩, ⟨4, 5⟩),
        (⟨4, 8⟩, ⟨4, 9⟩)]).Pairwise Apart := by
  have hproper : ∀ r ∈ [((⟨4, 10⟩, ⟨4, 12⟩) : IpRange), (⟨4, 2⟩, ⟨4, 8⟩), (⟨4, 3⟩, ⟨4, 5⟩),
      (⟨4, 8⟩, ⟨4, 9⟩)], Proper 4 r := by simp [Proper]
  exact ⟨hproper, by decide +kernel, (mergeIntervals_spec hproper).2.1⟩

end SonicBuildimage.DhcpUtilities
