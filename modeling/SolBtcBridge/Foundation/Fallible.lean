import Mathlib.Logic.Basic

/-!
# Reasoning about fallible computations

A computation in `Except` succeeds exactly when each of its steps does.  The
equivalences of the first part turn a successful `do` block into the list of
facts it checked.  The second part compares two computations step by step.
-/

namespace SolBtcBridge.Foundation

variable {ε α β γ δ : Type}

def require (p : Prop) [Decidable p] (failure : ε) : Except ε Unit :=
  if p then .ok () else .error failure

def orFail (failure : ε) : Option α → Except ε α
  | some a => .ok a
  | none => .error failure

theorem bind_eq_ok {x : Except ε α} {f : α → Except ε β} {b : β} :
    (x >>= f) = .ok b ↔ ∃ a, x = .ok a ∧ f a = .ok b := by
  cases x with
  | error failure => simp [bind, Except.bind]
  | ok a => simp [bind, Except.bind]

theorem bind_congr_ok {x : Except ε α} {f g : α → Except ε β}
    (h : ∀ a, x = .ok a → f a = g a) : x >>= f = x >>= g := by
  cases x with
  | error failure => rfl
  | ok a => exact h a rfl

theorem pure_eq_ok {a b : α} : (pure a : Except ε α) = .ok b ↔ a = b := by
  simp [pure, Except.pure]

theorem require_eq_ok {p : Prop} [Decidable p] {failure : ε} {u : Unit} :
    require p failure = .ok u ↔ p := by
  by_cases hp : p <;> simp [require, hp]

theorem orFail_eq_ok {x : Option α} {failure : ε} {a : α} :
    orFail failure x = .ok a ↔ x = some a := by
  cases x <;> simp [orFail]

theorem isOk_eq_true {x : Except ε α} : x.isOk = true ↔ ∃ a, x = .ok a := by
  cases x with
  | error failure => simp [Except.isOk, Except.toBool]
  | ok a => simp [Except.isOk, Except.toBool]

/-- Both fail with the same error, or both succeed with related results. -/
inductive Related (R : α → β → Prop) : Except ε α → Except ε β → Prop
  | ok {a : α} {b : β} : R a b → Related R (.ok a) (.ok b)
  | error (failure : ε) : Related R (.error failure) (.error failure)

namespace Related

variable {R : α → β → Prop} {Q : γ → δ → Prop} {x : Except ε α} {y : Except ε β}

theorem pure {a : α} {b : β} (h : R a b) :
    Related R (Pure.pure a : Except ε α) (Pure.pure b) := .ok h

theorem bind {f : α → Except ε γ} {g : β → Except ε δ} (h : Related R x y)
    (next : ∀ a b, R a b → Related Q (f a) (g b)) :
    Related Q (x >>= f) (y >>= g) := by
  cases h with
  | ok hab => exact next _ _ hab
  | error failure => exact .error failure

theorem step {f : α → Except ε γ} {g : α → Except ε δ}
    (next : ∀ a, x = .ok a → Related Q (f a) (g a)) :
    Related Q (x >>= f) (x >>= g) := by
  cases x with
  | ok a => exact next a rfl
  | error failure => exact .error failure

theorem imp {R' : α → β → Prop} (h : Related R x y)
    (himp : ∀ a b, x = .ok a → y = .ok b → R a b → R' a b) : Related R' x y := by
  cases h with
  | ok hab => exact .ok (himp _ _ rfl rfl hab)
  | error failure => exact .error failure

theorem of_ok {a : α} (h : Related R x y) (hx : x = .ok a) :
    ∃ b, y = .ok b ∧ R a b := by
  cases h with
  | ok hab =>
      cases hx
      exact ⟨_, rfl, hab⟩
  | error failure => cases hx

theorem isOk_eq (h : Related R x y) : x.isOk = y.isOk := by
  cases h with
  | ok => rfl
  | error => rfl

end Related

end SolBtcBridge.Foundation
