/-
  A store of images kept up to date by differences of objects.

  A program holds a set `C` of objects and a store holds their images under `f`. To move
  to a set `N` it deletes the image of every object of `C \ N` and then adds the image of
  every object of `N \ C` (`patch`). `f` need not be injective, so a deletion may take an
  image away that an object of `C ∩ N` still needs; `patch_image_iff` says exactly when
  this goes wrong. `O` is the rest of the store, which no object of `C` or `N` maps to.
-/
import Mathlib

namespace SonicBuildimage.Lib

variable {α β : Type}

/-- A store after deletions and then additions. -/
def patch (store deleted added : Set β) : Set β := store \ deleted ∪ added

/-- Every image that is deleted although a kept object has it is added again. -/
def Separates (f : α → β) (C N : Set α) : Prop :=
  ∀ a ∈ C ∩ N, ∀ b ∈ C \ N, f a = f b → ∃ c ∈ N \ C, f c = f a

/-- All old images are deleted, all new ones added. -/
theorem patch_replace {O C : Set β} (A : Set β) (hO : ∀ x ∈ O, x ∉ C) :
    patch (O ∪ C) C A = O ∪ A := by
  unfold patch
  ext x
  have hx := hO x
  simp only [Set.mem_union, Set.mem_sdiff]
  tauto

/-- The difference of the objects updates the images exactly when it separates. -/
theorem patch_image_iff {f : α → β} {C N : Set α} {O : Set β}
    (hO : ∀ x ∈ O, ∀ a, a ∈ C ∨ a ∈ N → f a ≠ x) :
    patch (O ∪ f '' C) (f '' (C \ N)) (f '' (N \ C)) = O ∪ f '' N ↔ Separates f C N := by
  constructor
  · intro h a ha b hb hab
    have hmem : f a ∈ patch (O ∪ f '' C) (f '' (C \ N)) (f '' (N \ C)) := by
      rw [h]
      exact Or.inr ⟨a, ha.2, rfl⟩
    rcases hmem with ⟨_, hdel⟩ | ⟨c, hc, hfc⟩
    · exact absurd ⟨b, hb, hab.symm⟩ hdel
    · exact ⟨c, hc, hfc⟩
  · intro h
    ext x
    constructor
    · rintro (⟨hx | ⟨a, ha, rfl⟩, hdel⟩ | ⟨c, hc, rfl⟩)
      · exact Or.inl hx
      · by_cases haN : a ∈ N
        · exact Or.inr ⟨a, haN, rfl⟩
        · exact absurd ⟨a, ⟨ha, haN⟩, rfl⟩ hdel
      · exact Or.inr ⟨c, hc.1, rfl⟩
    · rintro (hx | ⟨a, ha, rfl⟩)
      · refine Or.inl ⟨Or.inl hx, ?_⟩
        rintro ⟨b, hb, hfb⟩
        exact hO x hx b (Or.inl hb.1) hfb
      · by_cases haC : a ∈ C
        · by_cases hdel : f a ∈ f '' (C \ N)
          · -- a deleted object has the same image, so it must be added again
            obtain ⟨b, hb, hfb⟩ := hdel
            obtain ⟨c, hc, hfc⟩ := h a ⟨haC, ha⟩ b hb hfb.symm
            exact Or.inr ⟨c, hc, hfc⟩
          · exact Or.inl ⟨Or.inr ⟨a, haC, rfl⟩, hdel⟩
        · exact Or.inr ⟨a, ⟨ha, haC⟩, rfl⟩

end SonicBuildimage.Lib
