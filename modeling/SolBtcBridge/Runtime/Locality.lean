import SolBtcBridge.Runtime.Token
import Mathlib.Data.Set.Function

/-!
# What an operation can observe

An operation reads and writes only the accounts it names.  On two ledgers that
agree on a set of addresses, an operation inside the set fails or succeeds
alike, and the ledgers still agree afterwards.
-/

namespace SolBtcBridge.Runtime

open SolBtcBridge.Foundation

namespace Ledger

variable {S : Set Address} {L L' : Ledger} {a : Address}

/-- Results that agree on the set, with the same value beside the ledger. -/
def Alike {α : Type} (S : Set Address) (x y : Ledger × α) : Prop :=
  Set.EqOn x.1 y.1 S ∧ x.2 = y.2

theorem eqOn_set (h : Set.EqOn L L' S) (account : Account) :
    Set.EqOn (L.set a account) (L'.set a account) S := by
  intro b hb
  by_cases hba : b = a
  · rw [hba, set_self, set_self]
  · rw [set_of_ne L _ hba, set_of_ne L' _ hba, h hb]

theorem eqOn_setBody (h : Set.EqOn L L' S) (ha : a ∈ S) (body : AccountBody) :
    Set.EqOn (L.setBody a body) (L'.setBody a body) S := by
  rw [setBody, setBody, h ha]
  exact eqOn_set h _

section

variable {T : Type} [AnchorAccount T]

theorem load_local (h : Set.EqOn L L' S) (ha : a ∈ S) :
    L'.load T a = L.load T a := by
  rw [load, load, h ha]

theorem init_local (h : Set.EqOn L L' S) (ha : a ∈ S) (space : Nat) :
    Related (Alike S) (L.init T a space) (L'.init T a space) := by
  rw [init, init, h ha]
  refine .step fun account _ => .step fun t _ => .ok ?_
  exact ⟨eqOn_set h account, rfl⟩

theorem initIfNeeded_local (h : Set.EqOn L L' S) (ha : a ∈ S) (space : Nat) :
    Related (Alike S) (L.initIfNeeded T a space)
      (L'.initIfNeeded T a space) := by
  have hinit := init_local (T := T) h ha space
  rw [initIfNeeded, initIfNeeded, h ha]
  cases (L' a).body with
  | system => exact hinit
  | bridge data => exact .step fun t _ => .step fun _ _ => .ok ⟨h, rfl⟩
  | mint m => exact .error _
  | token account => exact .error _

theorem exit_local (h : Set.EqOn L L' S) (ha : a ∈ S) (t : T) :
    Related (Set.EqOn · · S) (L.exit a t) (L'.exit a t) := by
  rw [exit, exit, h ha]
  cases (L' a).body with
  | bridge data => exact .step fun written _ => .ok (eqOn_setBody h ha _)
  | system => exact .error _
  | mint m => exact .error _
  | token account => exact .error _

end

variable {b : Address}

theorem initTokenAccount_local (h : Set.EqOn L L' S) (ha : a ∈ S) (hb : b ∈ S)
    (owner : Address) :
    Related (Set.EqOn · · S) (L.initTokenAccount a b owner)
      (L'.initTokenAccount a b owner) := by
  rw [initTokenAccount, initTokenAccount, h ha, h hb]
  cases (L' b).body with
  | mint m =>
      cases (L' a).body with
      | system => exact .ok (eqOn_set h _)
      | _ => exact .error _
  | _ => exact .error _

theorem mintTo_local (h : Set.EqOn L L' S) (ha : a ∈ S) (hb : b ∈ S)
    (authority : Address) (amount : U64) :
    Related (Set.EqOn · · S) (L.mintTo a b authority amount)
      (L'.mintTo a b authority amount) := by
  rw [mintTo, mintTo, h ha, h hb]
  cases (L' a).body with
  | mint m =>
      cases (L' b).body with
      | token account =>
          refine .step fun _ _ => .step fun supply _ => .step fun balance _ => ?_
          exact .ok (eqOn_setBody (eqOn_setBody h ha _) hb _)
      | _ => exact .error _
  | _ => exact .error _

theorem transfer_local (h : Set.EqOn L L' S) (ha : a ∈ S) (hb : b ∈ S)
    (authority : Address) (amount : U64) :
    Related (Set.EqOn · · S) (L.transfer a b authority amount)
      (L'.transfer a b authority amount) := by
  rw [transfer, transfer, h ha, h hb]
  cases (L' a).body with
  | token sender =>
      cases (L' b).body with
      | token receiver =>
          refine .step fun _ _ => .step fun debited _ => ?_
          by_cases hsame : a = b
          · rw [if_pos hsame, if_pos hsame]
            exact .ok h
          · rw [if_neg hsame, if_neg hsame]
            refine .step fun credited _ => ?_
            exact .ok (eqOn_setBody (eqOn_setBody h ha _) hb _)
      | _ => exact .error _
  | _ => exact .error _

theorem burn_local (h : Set.EqOn L L' S) (ha : a ∈ S) (hb : b ∈ S)
    (authority : Address) (amount : U64) :
    Related (Set.EqOn · · S) (L.burn a b authority amount)
      (L'.burn a b authority amount) := by
  rw [burn, burn, h ha, h hb]
  cases (L' a).body with
  | mint m =>
      cases (L' b).body with
      | token account =>
          refine .step fun _ _ => .step fun balance _ => .step fun supply _ => ?_
          exact .ok (eqOn_setBody (eqOn_setBody h ha _) hb _)
      | _ => exact .error _
  | _ => exact .error _

end Ledger

end SolBtcBridge.Runtime
