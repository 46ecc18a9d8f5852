import SolBtcBridge.Foundation.Run
import Mathlib.Data.Set.Card

/-!
# Tickets

A step that adds to a quantity takes a ticket that was still free, and no step
gives a ticket back.  With finitely many tickets and a bound on what one step
adds, the quantity stays bounded for ever.
-/

namespace SolBtcBridge.Foundation

section

variable {σ ι ο ε κ : Type} {step : σ → ι → Except ε (σ × ο)}

/-- What a step does to a ticketed quantity. -/
inductive Ticketed (bound : Nat) (f : σ → Nat) (taken : σ → Set κ)
    (s s' : σ) : Prop
  | kept : f s' ≤ f s → taken s ⊆ taken s' → Ticketed bound f taken s s'
  | took (k : κ) : k ∉ taken s → insert k (taken s) ⊆ taken s' →
      f s' ≤ f s + bound → Ticketed bound f taken s s'

variable [Finite κ] {bound : Nat} {f : σ → Nat} {taken : σ → Set κ}

theorem Ticketed.le {s s' : σ} (h : Ticketed bound f taken s s')
    (hle : f s ≤ bound * (taken s).ncard) :
    f s' ≤ bound * (taken s').ncard := by
  cases h with
  | kept hf hsubset =>
      have hcard := Set.ncard_le_ncard hsubset
      calc f s' ≤ bound * (taken s).ncard := hf.trans hle
        _ ≤ bound * (taken s').ncard := Nat.mul_le_mul_left bound hcard
  | took k hfree hsubset hf =>
      have hcard : (taken s).ncard + 1 ≤ (taken s').ncard := by
        rw [← Set.ncard_insert_of_notMem hfree]
        exact Set.ncard_le_ncard hsubset
      calc f s' ≤ bound * (taken s).ncard + bound := hf.trans (by omega)
        _ = bound * ((taken s).ncard + 1) := by rw [Nat.mul_succ]
        _ ≤ bound * (taken s').ncard := Nat.mul_le_mul_left bound hcard

variable (taken) in
/-- A ticketed quantity never exceeds one bound for each ticket. -/
theorem run_ticketed {I : σ → Prop} {s : σ} (start : I s) (zero : f s = 0)
    (next : ∀ e : Record σ ι ο, I e.pre → IsStep step e →
      I e.post ∧ Ticketed bound f taken e.pre e.post) (inputs : List ι) :
    f (run step s inputs).state ≤ bound * Nat.card κ := by
  have hrun : I (run step s inputs).state ∧ f (run step s inputs).state ≤
      bound * (taken (run step s inputs).state).ncard := by
    refine run_invariant (I := fun s => I s ∧ f s ≤ bound * (taken s).ncard)
      ⟨start, by rw [zero]; exact Nat.zero_le _⟩ ?_ inputs
    rintro e ⟨hinv, hle⟩ hstep
    obtain ⟨hpost, hticketed⟩ := next e hinv hstep
    exact ⟨hpost, hticketed.le hle⟩
  calc f (run step s inputs).state
      ≤ bound * (taken (run step s inputs).state).ncard := hrun.2
    _ ≤ bound * Nat.card κ :=
        Nat.mul_le_mul_left bound (Set.ncard_le_card _)

end

def wordEquiv (w : Nat) : BitVec w ≃ Fin (2 ^ w) where
  toFun := BitVec.toFin
  invFun := BitVec.ofFin
  left_inv _ := rfl
  right_inv _ := rfl

instance finite_word (w : Nat) : Finite (BitVec w) :=
  Finite.of_equiv _ (wordEquiv w).symm

theorem card_word (w : Nat) : Nat.card (BitVec w) = 2 ^ w := by
  rw [Nat.card_congr (wordEquiv w), Nat.card_fin]

end SolBtcBridge.Foundation
