import Mathlib.Data.List.Basic

/-!
# Tagged keys without separators

Each family has a tag and a key width, and an encoding is the tag followed by a
key.  Nothing marks where the tag ends.  If any two families differ in the total
length, or in a symbol that both tags have, then an encoding still determines
its family and its key.
-/

namespace SolBtcBridge.Foundation

variable {F α : Type}

/-- Two families whose encodings differ in length or already in the tags. -/
def Apart (tag : F → List α) (width : F → Nat) (f g : F) : Prop :=
  (tag f).length + width f ≠ (tag g).length + width g ∨
    (tag f).take (min (tag f).length (tag g).length) ≠
      (tag g).take (min (tag f).length (tag g).length)

instance [DecidableEq α] (tag : F → List α) (width : F → Nat) (f g : F) :
    Decidable (Apart tag width f g) :=
  inferInstanceAs (Decidable (_ ∨ _))

variable {tag : F → List α} {width : F → Nat} {f g : F} {k l : List α}

theorem Apart.append_ne (h : Apart tag width f g) (hk : k.length = width f)
    (hl : l.length = width g) : tag f ++ k ≠ tag g ++ l := by
  intro heq
  cases h with
  | inl hlength =>
      have hsame := congrArg List.length heq
      rw [List.length_append, List.length_append, hk, hl] at hsame
      exact hlength hsame
  | inr htags =>
      have hsame := congrArg
        (List.take (min (tag f).length (tag g).length)) heq
      rw [List.take_append_of_le_length (Nat.min_le_left _ _),
        List.take_append_of_le_length (Nat.min_le_right _ _)] at hsame
      exact htags hsame

/-- An encoding determines its family and its key. -/
theorem eq_of_tagged_eq (hapart : ∀ f g, f ≠ g → Apart tag width f g)
    (hk : k.length = width f) (hl : l.length = width g)
    (h : tag f ++ k = tag g ++ l) : f = g ∧ k = l := by
  have hfamily : f = g := by
    by_contra hne
    exact (hapart f g hne).append_ne hk hl h
  subst hfamily
  exact ⟨rfl, List.append_cancel_left h⟩

end SolBtcBridge.Foundation
