import SolBtcBridge.Properties.Acceptance

/-!
# Accounts are paid for

The batch loops take an address without lamports for one without an account.
They are right: whatever the program or the token program creates holds its
rent from then on, and no instruction takes lamports out of it.
-/

namespace SolBtcBridge.Properties

open SolBtcBridge.Foundation
open SolBtcBridge.Runtime
open SolBtcBridge.Program
open SolBtcBridge.Effects

private theorem rentExempt_empty (a : Address) :
    (Ledger.empty a).RentExempt := by
  intro space hspace
  cases hspace

theorem execute_rentExempt (host : Host) (inputs : List Input) (a : Address) :
    ((execute host inputs).state a).RentExempt :=
  run_invariant (I := fun L : Ledger => ∀ a, (L a).RentExempt)
    rentExempt_empty
    (fun _ h hstep a => ((step_moves hstep).funds a).rent (h a)) inputs a

theorem execute_funds (host : Host) (inputs later : List Input) :
    (execute host inputs).state.Funds (execute host (inputs ++ later)).state := by
  rw [execute, execute, run_append]
  exact run_invariant
    (I := (run (step host) Ledger.empty inputs).state.Funds) (.refl _)
    (fun _ h hstep => h.trans (step_moves hstep).funds) later

end SolBtcBridge.Properties
