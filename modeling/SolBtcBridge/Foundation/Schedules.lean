import SolBtcBridge.Foundation.Run
import Mathlib.Data.List.Nodup
import Mathlib.Data.Set.BooleanAlgebra
import Mathlib.Data.Set.Function
import Mathlib.Order.CompletePartialOrder

/-!
# Schedules of transactions that do not conflict

The state is a memory of cells, and a step reads and writes some of them.  Two
inputs conflict if one writes what the other reads or writes.  Inputs that do
not conflict commute, so two schedules that order all conflicting inputs alike
end in the same memory and accept the same inputs with the same outputs.
-/

namespace SolBtcBridge.Foundation

section

variable {α : Type} {R : α → α → Prop}

/-- Neighbours may change places where the relation allows it. -/
inductive Rearranges (R : α → α → Prop) : List α → List α → Prop
  | refl (xs : List α) : Rearranges R xs xs
  | swap (before : List α) {x y : α} (after : List α) (h : R x y) :
      Rearranges R (before ++ x :: y :: after) (before ++ y :: x :: after)
  | trans {xs ys zs : List α} :
      Rearranges R xs ys → Rearranges R ys zs → Rearranges R xs zs

namespace Rearranges

theorem cons (x : α) {xs ys : List α} (h : Rearranges R xs ys) :
    Rearranges R (x :: xs) (x :: ys) := by
  induction h with
  | refl xs => exact .refl (x :: xs)
  | swap before after h => exact .swap (x :: before) after h
  | trans _ _ ih₁ ih₂ => exact .trans ih₁ ih₂

theorem back {x : α} {before : List α} (after : List α)
    (h : ∀ b ∈ before, R x b) :
    Rearranges R (x :: (before ++ after)) (before ++ x :: after) := by
  induction before with
  | nil => exact .refl (x :: after)
  | cons b before ih =>
      have hfirst : Rearranges R (x :: b :: (before ++ after))
          (b :: x :: (before ++ after)) :=
        .swap [] (before ++ after) (h b List.mem_cons_self)
      exact .trans hfirst
        (.cons b (ih fun c hc => h c (List.mem_cons_of_mem b hc)))

end Rearranges

theorem not_sublist_of_nodup {x b : α} {before after : List α}
    (hnodup : (before ++ x :: after).Nodup) (hb : b ∈ before) :
    ¬ [x, b].Sublist (before ++ x :: after) := by
  intro h
  rcases List.nodup_append.mp hnodup with ⟨-, hrest, hapart⟩
  rcases List.sublist_append_iff.mp h with ⟨front, rear, hsplit, hfront, hrear⟩
  cases front with
  | nil =>
      rw [List.nil_append] at hsplit
      rw [← hsplit] at hrear
      exact hapart b hb b (hrear.subset (by simp)) rfl
  | cons first front =>
      have hx : x ∈ before := by
        rw [List.cons_append, List.cons.injEq] at hsplit
        rw [hsplit.1]
        exact hfront.subset List.mem_cons_self
      exact hapart x hx x List.mem_cons_self rfl

theorem sublist_of_removed [DecidableEq α] {x a b : α} {before after : List α}
    (hnodup : (before ++ x :: after).Nodup) (ha : a ≠ x) (hb : b ≠ x)
    (h : [a, b].Sublist (before ++ x :: after)) :
    [a, b].Sublist (before ++ after) := by
  have herased := h.erase x
  rw [List.erase_of_not_mem (by simp [ha.symm, hb.symm])] at herased
  have hx : x ∉ before := by
    intro hmem
    rcases List.nodup_append.mp hnodup with ⟨-, -, hapart⟩
    exact hapart x hmem x List.mem_cons_self rfl
  rwa [List.erase_append_right _ hx, List.erase_cons_head] at herased

theorem rearranges_of_order {xs ys : List α} (hnodup : xs.Nodup)
    (hperm : xs.Perm ys)
    (order : ∀ a b, ¬ R a b → [a, b].Sublist xs → [a, b].Sublist ys) :
    Rearranges R xs ys := by
  classical
  induction xs generalizing ys with
  | nil =>
      rw [← hperm.nil_eq]
      exact .refl []
  | cons x xs ih =>
      have hnodup' := hperm.nodup_iff.mp hnodup
      rcases List.nodup_cons.mp hnodup with ⟨hx, hrest⟩
      rcases List.append_of_mem (hperm.subset List.mem_cons_self) with
        ⟨before, after, rfl⟩
      have hperm' : xs.Perm (before ++ after) :=
        (hperm.trans List.perm_middle).cons_inv
      have hfree : ∀ b ∈ before, R x b := by
        intro b hb
        by_contra hconflict
        have hlater : b ∈ xs := hperm'.symm.subset (List.mem_append_left after hb)
        refine not_sublist_of_nodup hnodup' hb (order x b hconflict ?_)
        exact (List.singleton_sublist.mpr hlater).cons_cons x
      have hsub : Rearranges R xs (before ++ after) := by
        refine ih hrest hperm' fun a b hconflict h => ?_
        have ha : a ≠ x := fun heq => hx (heq ▸ h.subset (by simp))
        have hb : b ≠ x := fun heq => hx (heq ▸ h.subset (by simp))
        exact sublist_of_removed hnodup' ha hb
          (order a b hconflict (h.trans (List.sublist_cons_self x xs)))
      exact .trans (.cons x hsub) (.back after hfree)

end

/-! ## Footprints -/

section

variable {A V ι ο ε : Type} {step : (A → V) → ι → Except ε ((A → V) × ο)}
  {reads writes : ι → Set A}

/-- A step depends only on what it reads and writes, and changes what it writes. -/
structure Footprint (step : (A → V) → ι → Except ε ((A → V) × ο))
    (reads writes : ι → Set A) : Prop where
  frame : ∀ {s i s' o}, step s i = .ok (s', o) → Set.EqOn s s' (writes i)ᶜ
  congr : ∀ {s t i s' o}, Set.EqOn s t (reads i ∪ writes i) →
    step s i = .ok (s', o) →
      ∃ t', step t i = .ok (t', o) ∧ Set.EqOn s' t' (writes i)

def Independent (reads writes : ι → Set A) (i j : ι) : Prop :=
  Disjoint (writes i) (reads j ∪ writes j) ∧
    Disjoint (writes j) (reads i ∪ writes i)

theorem Independent.symm {i j : ι} (h : Independent reads writes i j) :
    Independent reads writes j i := ⟨h.2, h.1⟩

namespace Footprint

theorem unseen (h : Footprint step reads writes) {i j : ι} {s s' : A → V} {o : ο}
    (hij : Independent reads writes i j) (hi : step s i = .ok (s', o)) :
    Set.EqOn s s' (reads j ∪ writes j) :=
  (h.frame hi).mono (Set.subset_compl_iff_disjoint_left.mpr hij.1)

theorem swap (h : Footprint step reads writes) {i j : ι} {s s₁ s₂ : A → V}
    {o p : ο} (hij : Independent reads writes i j) (hi : step s i = .ok (s₁, o))
    (hj : step s₁ j = .ok (s₂, p)) :
    ∃ t, step s j = .ok (t, p) ∧ step t i = .ok (s₂, o) := by
  rcases h.congr (h.unseen hij hi).symm hj with ⟨t, hfirst, hjCells⟩
  rcases h.congr (h.unseen hij.symm hfirst) hi with ⟨t₂, hsecond, hiCells⟩
  refine ⟨t, hfirst, ?_⟩
  suffices hsame : s₂ = t₂ by rw [hsame, hsecond]
  funext a
  by_cases ha : a ∈ writes i
  · have hkept : a ∈ (writes j)ᶜ := fun hb =>
      Set.disjoint_left.mp hij.1 ha (.inr hb)
    rw [← h.frame hj hkept, hiCells ha]
  · rw [← h.frame hsecond ha]
    by_cases hb : a ∈ writes j
    · exact hjCells hb
    · rw [← h.frame hj hb, ← h.frame hi ha, h.frame hfirst hb]

theorem still (h : Footprint step reads writes) {i j : ι} {s s₁ t : A → V}
    {o p : ο} (hij : Independent reads writes i j) (hi : step s i = .ok (s₁, o))
    (hj : step s j = .ok (t, p)) : ∃ s₂, step s₁ j = .ok (s₂, p) := by
  rcases h.congr (h.unseen hij hi) hj with ⟨s₂, hstep, -⟩
  exact ⟨s₂, hstep⟩

end Footprint

/-! ## Runs of two schedules -/

def Trace.accepted {σ : Type} (t : Trace σ ι ο) : List (ι × ο) :=
  t.log.map fun e => (e.input, e.output)

/-- The same final state, and the same inputs accepted with the same outputs. -/
structure Trace.Agrees {σ : Type} (t u : Trace σ ι ο) : Prop where
  state : t.state = u.state
  accepted : t.accepted.Perm u.accepted

namespace Footprint

theorem advance_both (h : Footprint step reads writes) {i j : ι}
    (hij : Independent reads writes i j) {t : Trace (A → V) ι ο} {s s' : A → V}
    {o p : ο} (hi : step t.state i = .ok (s, o)) (hj : step t.state j = .ok (s', p)) :
    (advance step (advance step t i) j).Agrees
      (advance step (advance step t j) i) := by
  rcases h.still hij hi hj with ⟨s₂, hlater⟩
  rcases h.swap hij hi hlater with ⟨s₁, hfirst, hsecond⟩
  have hleft : step (advance step t i).state j = .ok (s₂, p) := by
    rw [advance_of_ok hi]
    exact hlater
  have hright : step (advance step t j).state i = .ok (s₂, o) := by
    rw [advance_of_ok hfirst]
    exact hsecond
  rw [advance_of_ok hleft, advance_of_ok hright, advance_of_ok hi,
    advance_of_ok hfirst]
  refine ⟨rfl, ?_⟩
  simp only [Trace.accepted, List.map_append, List.map_cons, List.map_nil,
    List.append_assoc, List.singleton_append]
  exact (List.Perm.swap (j, p) (i, o) []).append_left _

theorem advance_one (h : Footprint step reads writes) {i j : ι}
    (hij : Independent reads writes i j) {t : Trace (A → V) ι ο} {s : A → V} {o : ο}
    (hi : step t.state i = .ok (s, o)) (hj : ∀ s p, step t.state j ≠ .ok (s, p)) :
    advance step (advance step t i) j = advance step (advance step t j) i := by
  have hlater : ∀ s p, step (advance step t i).state j ≠ .ok (s, p) := by
    rw [advance_of_ok hi]
    intro s₂ p hlater
    rcases h.swap hij hi hlater with ⟨s₁, hfirst, -⟩
    exact hj s₁ p hfirst
  rw [advance_of_failed hlater, advance_of_failed hj]

theorem advance_swap (h : Footprint step reads writes) {i j : ι}
    (hij : Independent reads writes i j) (t : Trace (A → V) ι ο) :
    (advance step (advance step t i) j).Agrees
      (advance step (advance step t j) i) := by
  have hsame : ∀ {u v : Trace (A → V) ι ο}, u = v → u.Agrees v :=
    fun heq => ⟨by rw [heq], by rw [heq]⟩
  by_cases hi : ∃ s o, step t.state i = .ok (s, o)
  · rcases hi with ⟨s, o, hi⟩
    by_cases hj : ∃ s p, step t.state j = .ok (s, p)
    · rcases hj with ⟨s', p, hj⟩
      exact h.advance_both hij hi hj
    · exact hsame (h.advance_one hij hi fun s p heq => hj ⟨s, p, heq⟩)
  · have hi' : ∀ s o, step t.state i ≠ .ok (s, o) :=
      fun s o heq => hi ⟨s, o, heq⟩
    by_cases hj : ∃ s p, step t.state j = .ok (s, p)
    · rcases hj with ⟨s', p, hj⟩
      exact hsame (h.advance_one hij.symm hj hi').symm
    · have hj' : ∀ s p, step t.state j ≠ .ok (s, p) :=
        fun s p heq => hj ⟨s, p, heq⟩
      rw [advance_of_failed hi', advance_of_failed hj', advance_of_failed hi']
      exact hsame rfl

theorem run_swap (h : Footprint step reads writes) {i j : ι}
    (hij : Independent reads writes i j) (s : A → V) (before after : List ι) :
    (run step s (before ++ i :: j :: after)).Agrees
      (run step s (before ++ j :: i :: after)) := by
  have hsplit : ∀ x y : ι, run step s (before ++ x :: y :: after) =
      run step s ((before ++ [x] ++ [y]) ++ after) := by
    intro x y
    simp
  have hagrees := h.advance_swap hij (run step s before)
  simp only [hsplit, run_append s _ after, run_concat]
  refine ⟨by rw [hagrees.state], ?_⟩
  simp only [Trace.accepted, List.map_append] at hagrees ⊢
  rw [hagrees.state]
  exact hagrees.accepted.append_right _

/-- Schedules that order all conflicting transactions alike agree. -/
theorem run_agrees (h : Footprint step reads writes) {α : Type} (input : α → ι)
    {xs ys : List α} (hnodup : xs.Nodup) (hperm : xs.Perm ys)
    (order : ∀ a b, ¬ Independent reads writes (input a) (input b) →
      [a, b].Sublist xs → [a, b].Sublist ys) (s : A → V) :
    (run step s (xs.map input)).Agrees (run step s (ys.map input)) := by
  have hrearranges : Rearranges
      (fun a b => Independent reads writes (input a) (input b)) xs ys :=
    rearranges_of_order hnodup hperm order
  clear order hnodup hperm
  induction hrearranges with
  | refl xs => exact ⟨rfl, .refl _⟩
  | swap before after hij =>
      simp only [List.map_append, List.map_cons]
      exact h.run_swap hij s (before.map input) (after.map input)
  | trans _ _ ih₁ ih₂ =>
      exact ⟨ih₁.state.trans ih₂.state, ih₁.accepted.trans ih₂.accepted⟩

end Footprint

end

end SolBtcBridge.Foundation
