import Mathlib.Data.List.Basic

/-!
# When a slice is a suffix

A slice of a list can equal one of its suffixes although it starts elsewhere:
exactly when the list repeats, from the start of the slice on, with the
distance between the two as its period.
-/

namespace SolBtcBridge.Foundation

variable {α : Type}

/-- Every element is equal to the one `period` places later, if there is one. -/
def Repeats (period : Nat) (xs : List α) : Prop :=
  ∀ i < xs.length, i + period < xs.length → xs[i]? = xs[i + period]?

instance [DecidableEq α] (period : Nat) (xs : List α) :
    Decidable (Repeats period xs) :=
  inferInstanceAs (Decidable
    (∀ i < xs.length, i + period < xs.length → xs[i]? = xs[i + period]?))

theorem slice_eq_drop_iff {xs : List α} {offset size start : Nat}
    (hfits : offset + size ≤ xs.length) (hstart : start ≤ xs.length) :
    (xs.drop offset).take size = xs.drop start ↔
      size = xs.length - start ∧
        Repeats (start - offset) (xs.drop offset) := by
  constructor
  · intro h
    have hlength := congrArg List.length h
    simp only [List.length_take, List.length_drop] at hlength
    have hsize : size = xs.length - start := by omega
    refine ⟨hsize, fun i hi hlater => ?_⟩
    rw [List.length_drop] at hi hlater
    have hget : ((xs.drop offset).take size)[i]? = (xs.drop start)[i]? := by rw [h]
    rw [List.getElem?_take_of_lt (by omega), List.getElem?_drop,
      List.getElem?_drop] at hget
    rw [List.getElem?_drop, List.getElem?_drop, hget]
    congr 1
    omega
  · rintro ⟨rfl, hrepeats⟩
    apply List.ext_getElem?
    intro i
    by_cases hi : i < xs.length - start
    · have hperiod := hrepeats i (by rw [List.length_drop]; omega)
        (by rw [List.length_drop]; omega)
      rw [List.getElem?_drop, List.getElem?_drop] at hperiod
      rw [List.getElem?_take_of_lt hi, List.getElem?_drop, List.getElem?_drop,
        hperiod]
      congr 1
      omega
    · rw [List.getElem?_eq_none (by simp; omega),
        List.getElem?_eq_none (by simp; omega)]

end SolBtcBridge.Foundation
