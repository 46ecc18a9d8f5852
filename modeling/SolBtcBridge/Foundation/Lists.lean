import Mathlib.Data.List.MinMax
import Mathlib.Data.List.Nodup
import Mathlib.Data.List.Range

/-!
# Lists with keys and numbers

A list whose keys are distinct holds what a lookup by key finds; one whose
numbers are consecutive or increasing is known from its positions.
-/

namespace SolBtcBridge.Foundation

variable {α β κ : Type}

theorem find?_of_distinct {key : α → κ} {xs : List α}
    (hdistinct : (xs.map key).Nodup) {x : α} (hmem : x ∈ xs) {p : α → Bool}
    (hp : ∀ y, p y = true ↔ key y = key x) : xs.find? p = some x := by
  induction xs with
  | nil => contradiction
  | cons first xs ih =>
      rw [List.map_cons, List.nodup_cons] at hdistinct
      rcases hdistinct with ⟨hnew, hdistinct⟩
      rcases List.mem_cons.mp hmem with rfl | hlater
      · exact List.find?_cons_of_pos ((hp x).mpr rfl)
      · have hother : ¬ p first = true := by
          intro hfirst
          rw [(hp first).mp hfirst] at hnew
          exact hnew (List.mem_map_of_mem hlater)
        rw [List.find?_cons_of_neg hother]
        exact ih hdistinct hlater

theorem exists_of_forall₂ {R : α → β → Prop} {xs : List α}
    {ys : List β} (h : List.Forall₂ R xs ys) {y : β} (hy : y ∈ ys) :
    ∃ x, R x y := by
  induction h with
  | nil => contradiction
  | @cons x z _ _ hxz _ ih =>
      rcases List.mem_cons.mp hy with rfl | htail
      · exact ⟨x, hxz⟩
      · exact ih htail

theorem getElem?_of_map_eq_range' {xs : List β} {number : β → Nat}
    {start len k : Nat} {x : β} (hmap : xs.map number = List.range' start len)
    (hget : xs[k]? = some x) : number x = start + k := by
  have hnumber : (xs.map number)[k]? = some (number x) := by
    rw [List.getElem?_map, hget, Option.map_some]
  rw [hmap] at hnumber
  have hlt : k < len := by
    by_contra hge
    rw [List.getElem?_eq_none (by simpa using hge)] at hnumber
    contradiction
  rw [List.getElem?_range' hlt] at hnumber
  simpa using (Option.some.inj hnumber).symm

theorem length_le_one_of_increasing {number : β → Nat} {xs : List β}
    (h : xs.Pairwise fun a b => number a < number b)
    (hsame : ∀ a ∈ xs, ∀ b ∈ xs, number a = number b) : xs.length ≤ 1 := by
  cases xs with
  | nil => simp
  | cons a xs =>
      cases xs with
      | nil => simp
      | cons b xs =>
          have hlt := List.rel_of_pairwise_cons h List.mem_cons_self
          have heq := hsame a (by simp) b (by simp)
          omega

theorem argmax_eq_getLast? {number : β → Nat} {xs : List β}
    (h : xs.Pairwise fun a b => number a < number b) :
    xs.argmax number = xs.getLast? := by
  induction xs using List.reverseRecOn with
  | nil => rfl
  | append_singleton xs x ih =>
      rw [List.pairwise_append] at h
      rw [List.argmax_concat, ih h.1, List.getLast?_concat]
      cases hlast : xs.getLast? with
      | none => rfl
      | some y =>
          have hy : y ∈ xs := List.mem_of_getLast? hlast
          simp [h.2.2 y hy x (by simp)]

end SolBtcBridge.Foundation
