/-
  The `k` most recent elements of a list, over any linear order of times.

  `MostRecent time k all kept`: `kept` has `k` elements of `all` (all of them if there are fewer),
  and every element that was left out is older than each of them.  The two rules say how the kept
  ones change when an element is added: it stays if there is room (`append`), otherwise the last one
  in the order from the most recent on goes (`replace`).
-/
import Mathlib.Data.List.Induction
import Mathlib.Data.List.Sort
import Mathlib.Data.List.Perm.Subperm

namespace SonicBuildimage.Lib

variable {α κ : Type} [LinearOrder κ] {time : α → κ} {k : Nat} {all kept : List α} {x : α}

/-- From the most recent on; elements of one time keep their order. -/
def newestFirst (time : α → κ) (l : List α) : List α := l.insertionSort fun a b => time b ≤ time a

structure MostRecent (time : α → κ) (k : Nat) (all kept : List α) : Prop where
  nodup : kept.Nodup
  subset : kept ⊆ all
  length : kept.length = min k all.length
  older : ∀ x ∈ kept, ∀ y ∈ all, y ∉ kept → time y < time x

theorem MostRecent.nil (time : α → κ) (k : Nat) : MostRecent time k [] [] :=
  ⟨List.nodup_nil, List.Subset.refl _, by simp, by simp⟩

/-- Below the bound nothing was left out. -/
theorem MostRecent.perm (h : MostRecent time k all kept) (hroom : kept.length < k) :
    kept.Perm all := by
  refine (List.subperm_of_subset h.nodup h.subset).perm_of_length_le ?_
  have hlen := h.length
  omega

theorem MostRecent.append (h : MostRecent time k all kept) (hx : x ∉ all)
    (hroom : kept.length < k) : MostRecent time k (all ++ [x]) (kept ++ [x]) := by
  have hperm := h.perm hroom
  refine ⟨?_, ?_, ?_, ?_⟩
  · exact (List.nodup_append_comm).mp (List.nodup_cons.mpr ⟨fun hk => hx (h.subset hk), h.nodup⟩)
  · exact (hperm.append_right [x]).subset
  · rw [List.length_append, List.length_append, hperm.length_eq, List.length_singleton]
    rw [hperm.length_eq] at hroom
    omega
  · intro y _ z hz hout
    exact absurd ((hperm.append_right [x]).mem_iff.mpr hz) hout

/-- What is left when the last one from the most recent on is taken away. -/
theorem exists_newestFirst (time : α → κ) {l : List α} (hlen : l.length = k + 1) :
    ∃ newest oldest, newestFirst time l = newest ++ [oldest] ∧ newest.length = k ∧
      (newest ++ [oldest]).Perm l ∧ ∀ y ∈ newest, time oldest ≤ time y := by
  have hperm : (newestFirst time l).Perm l := List.perm_insertionSort _ l
  have hsorted : (newestFirst time l).Pairwise fun a b => time b ≤ time a := by
    have : IsTrans α fun a b => time b ≤ time a := ⟨fun _ _ _ hab hbc => le_trans hbc hab⟩
    have : Std.Total fun a b : α => time b ≤ time a := ⟨fun a b => le_total (time b) (time a)⟩
    exact List.pairwise_insertionSort _ l
  rcases List.eq_nil_or_concat' (newestFirst time l) with hnil | ⟨newest, oldest, heq⟩
  · rw [hnil] at hperm
    have hzero := hperm.length_eq
    simp [hlen] at hzero
  · rw [heq] at hperm hsorted
    refine ⟨newest, oldest, heq, ?_, hperm, ?_⟩
    · have hsize := hperm.length_eq
      rw [List.length_append, List.length_singleton, hlen] at hsize
      omega
    · intro y hy
      exact (List.pairwise_append.mp hsorted).2.2 y hy oldest (List.mem_singleton.mpr rfl)

/-- A new element when there is no room: the oldest of the kept ones and the new one goes. -/
theorem MostRecent.replace (h : MostRecent time k all kept) (hx : x ∉ all) (hfull : kept.length = k)
    (htime : ∀ y ∈ all ++ [x], ∀ z ∈ all ++ [x], time y = time z → y = z) {newest : List α}
    {oldest : α} (hperm : (newest ++ [oldest]).Perm (kept ++ [x]))
    (hleast : ∀ y ∈ newest, time oldest ≤ time y) :
    MostRecent time k (all ++ [x]) newest ∧ oldest ∉ newest := by
  have hnodup : (newest ++ [oldest]).Nodup := by
    refine hperm.nodup_iff.mpr ((List.nodup_append_comm).mp ?_)
    exact List.nodup_cons.mpr ⟨fun hk => hx (h.subset hk), h.nodup⟩
  have hsub : newest ++ [oldest] ⊆ all ++ [x] := by
    intro y hy
    rcases List.mem_append.mp (hperm.mem_iff.mp hy) with hk | hk
    · exact List.mem_append_left _ (h.subset hk)
    · exact List.mem_append_right _ hk
  have hnew : newest ⊆ newest ++ [oldest] := List.subset_append_left _ _
  have hlast : oldest ∈ newest ++ [oldest] := by simp
  have hout : oldest ∉ newest := by
    intro hmem
    have hdisjoint := (List.nodup_append.mp hnodup).2.2
    exact hdisjoint oldest hmem oldest (List.mem_singleton.mpr rfl) rfl
  have hlt : ∀ y ∈ newest, time oldest < time y := by
    intro y hy
    refine lt_of_le_of_ne (hleast y hy) fun heq => hout ?_
    rwa [htime oldest (hsub hlast) y (hsub (hnew hy)) heq]
  refine ⟨⟨(List.nodup_append.mp hnodup).1, List.Subset.trans hnew hsub, ?_, ?_⟩, hout⟩
  · have hsize := hperm.length_eq
    have hlen := h.length
    rw [List.length_append, List.length_append, List.length_singleton, List.length_singleton]
      at hsize
    rw [List.length_append, List.length_singleton]
    omega
  · intro y hy z hz hgone
    by_cases hz' : z ∈ newest ++ [oldest]
    · rcases List.mem_append.mp hz' with hz' | hz'
      · exact absurd hz' hgone
      · rw [List.mem_singleton.mp hz']
        exact hlt y hy
    -- `z` was left out before, so it is older than every kept one, and one of them is not above `y`
    · have hzk : z ∉ kept ++ [x] := fun hk => hz' (hperm.mem_iff.mpr hk)
      have hzall : z ∈ all := by
        rcases List.mem_append.mp hz with hz | hz
        · exact hz
        · exact absurd (List.mem_append_right _ hz) hzk
      have hzold := fun a ha => h.older a ha z hzall fun hk => hzk (List.mem_append_left _ hk)
      rcases List.mem_append.mp (hperm.mem_iff.mp (hnew hy)) with hyk | hyx
      · exact hzold y hyk
      · have hold : oldest ∈ kept := by
          rcases List.mem_append.mp (hperm.mem_iff.mp hlast) with hk | hk
          · exact hk
          · rw [List.mem_singleton] at hk hyx
            exact absurd (hk.trans hyx.symm ▸ hy) hout
        exact lt_trans (hzold oldest hold) (hlt y hy)

/-- With different times there are `k` most recent ones. -/
theorem exists_mostRecent (k : Nat) (hall : all.Nodup)
    (htime : ∀ y ∈ all, ∀ z ∈ all, time y = time z → y = z) :
    ∃ kept, MostRecent time k all kept := by
  induction all using List.reverseRecOn with
  | nil => exact ⟨[], .nil _ _⟩
  | append_singleton all x ih =>
    obtain ⟨hall', -, hx⟩ := List.nodup_append.mp hall
    obtain ⟨kept, h⟩ := ih hall' fun y hy z hz =>
      htime y (List.mem_append_left _ hy) z (List.mem_append_left _ hz)
    have hxall : x ∉ all := fun hmem => hx x hmem x (List.mem_singleton.mpr rfl) rfl
    have hlen : kept.length ≤ k := h.length ▸ Nat.min_le_left _ _
    rcases Nat.lt_or_eq_of_le hlen with hroom | hfull
    · exact ⟨_, h.append hxall hroom⟩
    · obtain ⟨newest, oldest, -, -, hperm, hleast⟩ := exists_newestFirst (k := k) time
        (l := kept ++ [x]) (by simp [hfull])
      exact ⟨newest, (h.replace hxall hfull htime hperm hleast).1⟩

/-- An element is kept exactly if fewer than `k` are more recent. -/
theorem MostRecent.mem_iff (h : MostRecent time k all kept) (hall : all.Nodup) :
    x ∈ kept ↔ x ∈ all ∧ all.countP (fun y => time x < time y) < k := by
  rw [List.countP_eq_length_filter]
  constructor
  · intro hx
    refine ⟨h.subset hx, ?_⟩
    have hnewer : x :: all.filter (fun y => time x < time y) ⊆ kept := by
      intro y hy
      rcases List.mem_cons.mp hy with rfl | hy
      · exact hx
      · obtain ⟨hyall, hlt⟩ := List.mem_filter.mp hy
        by_contra hout
        exact lt_asymm (h.older x hx y hyall hout) (of_decide_eq_true hlt)
    have hnodup : (x :: all.filter fun y => time x < time y).Nodup :=
      List.nodup_cons.mpr ⟨by simp, hall.filter _⟩
    have hle := (List.subperm_of_subset hnodup hnewer).length_le
    have hlen := h.length
    rw [List.length_cons] at hle
    omega
  · rintro ⟨hx, hcount⟩
    by_contra hout
    have hnewer : kept ⊆ all.filter fun y => time x < time y := fun y hy =>
      List.mem_filter.mpr ⟨h.subset hy, decide_eq_true (h.older y hy x hx hout)⟩
    have hle := (List.subperm_of_subset h.nodup hnewer).length_le
    exact hout ((h.perm (lt_of_le_of_lt hle hcount)).mem_iff.mpr hx)

/-- One of more than `k` is too old. -/
theorem MostRecent.exists_old (h : MostRecent time k all kept) (hall : all.Nodup)
    (hlt : k < all.length) : ∃ x ∈ all, k ≤ all.countP fun y => time x < time y := by
  by_contra hnone
  have hsub : all ⊆ kept := fun x hx => (h.mem_iff hall).2 ⟨hx, by
    by_contra hle
    exact hnone ⟨x, hx, not_lt.1 hle⟩⟩
  have hle := (List.subperm_of_subset hall hsub).length_le
  have hlen := h.length
  omega

end SonicBuildimage.Lib
