import SolBtcBridge.Foundation.Run
import Mathlib.Algebra.GroupWithZero.Nat

/-!
# Labelled transitions and simulation

An abstract system is a relation between a state, a label and the next state,
and a path is a sequence of its steps.  A fallible step function is simulated
by such a system when every successful step is matched by a path; a run is then
matched by one path, and what holds along all paths holds of every run.
-/

namespace SolBtcBridge.Foundation

section

variable {α Label : Type}

inductive Path (Step : α → Label → α → Prop) : α → List Label → α → Prop
  | nil {a : α} : Path Step a [] a
  | cons {a b c : α} {label : Label} {labels : List Label} :
      Step a label b → Path Step b labels c → Path Step a (label :: labels) c

namespace Path

variable {Step : α → Label → α → Prop} {a b c : α} {labels more : List Label}

theorem single {label : Label} (h : Step a label b) : Path Step a [label] b :=
  .cons h .nil

theorem append (h : Path Step a labels b) (h' : Path Step b more c) :
    Path Step a (labels ++ more) c := by
  induction h with
  | nil => exact h'
  | cons hstep _ ih => exact .cons hstep (ih h')

theorem invariant {I : α → Prop}
    (next : ∀ {a label b}, I a → Step a label b → I b)
    (h : Path Step a labels b) (ha : I a) : I b := by
  induction h with
  | nil => exact ha
  | cons hstep _ ih => exact ih (next ha hstep)

theorem relation {R : α → α → Prop} (refl : ∀ a, R a a)
    (trans : ∀ {a b c}, R a b → R b c → R a c)
    (next : ∀ {a label b}, Step a label b → R a b) (h : Path Step a labels b) :
    R a b := by
  induction h with
  | nil => exact refl _
  | cons hstep _ ih => exact trans (next hstep) ih

theorem balance {f : α → Nat} (gain loss : Label → Nat)
    (next : ∀ {a label b}, Step a label b → f b + loss label = f a + gain label)
    (h : Path Step a labels b) :
    f b + (labels.map loss).sum = f a + (labels.map gain).sum := by
  induction h with
  | nil => rfl
  | cons hstep _ ih =>
      have hfirst := next hstep
      simp only [List.map_cons, List.sum_cons]
      omega

theorem split {label : Label} (h : Path Step a (labels ++ label :: more) c) :
    ∃ before after, Path Step a labels before ∧ Step before label after ∧
      Path Step after more c := by
  induction labels generalizing a with
  | nil =>
      cases h with
      | cons hstep hrest => exact ⟨a, _, .nil, hstep, hrest⟩
  | cons first labels ih =>
      cases h with
      | cons hstep hrest =>
          rcases ih hrest with ⟨before, after, hbefore, hmid, hafter⟩
          exact ⟨before, after, .cons hstep hbefore, hmid, hafter⟩

end Path

variable {σ ι ο ε : Type} {step : σ → ι → Except ε (σ × ο)}

/-- Every run of the step function is matched by a path of the abstract system. -/
theorem run_simulated {Step : α → Label → α → Prop} {I : σ → Prop}
    {R : σ → α → Prop} (labels : Record σ ι ο → List Label) {s : σ} {a : α}
    (start : I s) (related : R s a)
    (next : ∀ e : Record σ ι ο, I e.pre → IsStep step e → I e.post)
    (matched : ∀ (e : Record σ ι ο) {a}, I e.pre → R e.pre a → IsStep step e →
      ∃ b, Path Step a (labels e) b ∧ R e.post b) (inputs : List ι) :
    ∃ b, Path Step a ((run step s inputs).log.flatMap labels) b ∧
      R (run step s inputs).state b := by
  refine (run_induction (P := fun t : Trace σ ι ο => I t.state ∧
    ∃ b, Path Step a (t.log.flatMap labels) b ∧ R t.state b)
    ⟨start, a, .nil, related⟩ ?_ inputs).2
  rintro log e ⟨hinv, b, hpath, hrelated⟩ hstep
  obtain ⟨c, hmore, hpost⟩ := matched e hinv hrelated hstep
  refine ⟨next e hinv hstep, c, ?_, hpost⟩
  rw [List.flatMap_append, List.flatMap_singleton]
  exact hpath.append hmore

end

end SolBtcBridge.Foundation
