import Mathlib.Algebra.BigOperators.Group.List.Basic
import Mathlib.Data.Nat.ModEq

/-!
# A share of an amount, rounded down

The share `p / d` of an amount is charged in whole units.  Charging the parts
of an amount one by one loses less than one unit for each part after the first;
charging a larger amount takes a larger share and leaves a larger rest, as long
as the rate is at most one.
-/

namespace SolBtcBridge.Foundation

def share (p d amount : Nat) : Nat := amount * p / d

section

variable {p d a b : Nat}

theorem share_mono (h : a ≤ b) : share p d a ≤ share p d b :=
  Nat.div_le_div_right (Nat.mul_le_mul_right p h)

theorem share_add_share_le : share p d a + share p d b ≤ share p d (a + b) := by
  rw [share, share, share, Nat.add_mul]
  exact Nat.div_add_div_le_add_div

theorem share_add_le : share p d (a + b) ≤ share p d a + share p d b + 1 := by
  rw [share, share, share, Nat.add_mul]
  exact Nat.add_div_le_div_add_div_add_one _ _ _

theorem share_le (hd : 0 < d) (hp : p ≤ d) : share p d a ≤ a := by
  calc share p d a ≤ a * d / d := Nat.div_le_div_right (Nat.mul_le_mul_left a hp)
    _ = a := Nat.mul_div_cancel a hd

theorem rest_mono (hd : 0 < d) (hp : p ≤ d) (h : a ≤ b) :
    a - share p d a ≤ b - share p d b := by
  obtain ⟨more, rfl⟩ := Nat.exists_eq_add_of_le h
  have hgrowth : share p d (a + more) ≤ share p d a + more := by
    calc share p d (a + more)
        = (a * p + more * p) / d := by rw [share, Nat.add_mul]
      _ ≤ (a * p + more * d) / d :=
        Nat.div_le_div_right (Nat.add_le_add_left (Nat.mul_le_mul_left more hp) _)
      _ = share p d a + more := Nat.add_mul_div_right _ _ hd
  have hcovered : share p d (a + more) ≤ a + more := share_le hd hp
  omega

theorem sum_share_le (amounts : List Nat) :
    (amounts.map (share p d)).sum ≤ share p d amounts.sum := by
  induction amounts with
  | nil => exact Nat.zero_le _
  | cons amount amounts ih =>
      rw [List.map_cons, List.sum_cons, List.sum_cons]
      exact (Nat.add_le_add_left ih _).trans share_add_share_le

/-- One unit is lost at most for each part after the first. -/
theorem share_sum_le (first : Nat) (amounts : List Nat) :
    share p d (first :: amounts).sum ≤
      ((first :: amounts).map (share p d)).sum + amounts.length := by
  induction amounts generalizing first with
  | nil => simp
  | cons second amounts ih =>
      have hrest := ih second
      rw [List.length_cons]
      generalize second :: amounts = rest at hrest ⊢
      calc share p d (first :: rest).sum
          ≤ share p d first + share p d rest.sum + 1 := by
            rw [List.sum_cons]
            exact share_add_le
        _ ≤ share p d first + ((rest.map (share p d)).sum + amounts.length) +
            1 := by omega
        _ = ((first :: rest).map (share p d)).sum + (amounts.length + 1) := by
            rw [List.map_cons, List.sum_cons]
            omega

theorem share_sum_lt {amounts : List Nat} (hne : amounts ≠ []) :
    share p d amounts.sum <
      (amounts.map (share p d)).sum + amounts.length := by
  cases amounts with
  | nil => exact absurd rfl hne
  | cons first amounts =>
      have hle : share p d (first :: amounts).sum ≤
          ((first :: amounts).map (share p d)).sum + amounts.length :=
        share_sum_le first amounts
      rw [List.length_cons]
      omega

end

end SolBtcBridge.Foundation
