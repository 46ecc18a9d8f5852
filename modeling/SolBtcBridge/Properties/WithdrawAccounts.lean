import SolBtcBridge.Effects.Lookup

/-!
# Account lookup of a withdrawal

A withdrawal names its four accounts in any order, with anything else between
them.  The lookup tests the user's token account before the fee recipient's,
so it never finds the second when both are the same account.
-/

namespace SolBtcBridge.Properties

open SolBtcBridge.Foundation
open SolBtcBridge.Runtime
open SolBtcBridge.Program
open SolBtcBridge.Effects

section

variable (accounts : List Address) (user feeRecipient : Pubkey) (chainId : U8)

def withdrawTargets : Address × Address × Address × Address :=
  (getAssociatedTokenAddress user (Pda.sbtcMint chainId).address,
    .wallet feeRecipient,
    getAssociatedTokenAddress feeRecipient (Pda.sbtcMint chainId).address,
    (Pda.sbtcMint chainId).address)

def Listed : Prop :=
  (withdrawTargets user feeRecipient chainId).1 ∈ accounts ∧
    (withdrawTargets user feeRecipient chainId).2.1 ∈ accounts ∧
    (withdrawTargets user feeRecipient chainId).2.2.1 ∈ accounts ∧
    (withdrawTargets user feeRecipient chainId).2.2.2 ∈ accounts

instance : Decidable (Listed accounts user feeRecipient chainId) :=
  inferInstanceAs (Decidable (_ ∧ _ ∧ _ ∧ _))

/-- The lookup succeeds exactly on the lists that hold all four accounts. -/
def LookupComplete : Prop :=
  ((∃ found, WithdrawBtc.getAccounts accounts user feeRecipient chainId =
      .ok found) ↔ Listed accounts user feeRecipient chainId) ∧
    ∀ found, WithdrawBtc.getAccounts accounts user feeRecipient chainId =
      .ok found → found = withdrawTargets user feeRecipient chainId

variable {accounts user feeRecipient chainId}

private theorem getAccounts_eq_ok
    {found : Address × Address × Address × Address} :
    WithdrawBtc.getAccounts accounts user feeRecipient chainId = .ok found ↔
      user ≠ feeRecipient ∧ Listed accounts user feeRecipient chainId ∧
        found = withdrawTargets user feeRecipient chainId := by
  rw [withdrawGetAccounts_eq_ok]
  constructor
  · rintro ⟨hata, hfee, hne, hfeeAta, hmint, rfl⟩
    exact ⟨hne, ⟨hata, hfee, hfeeAta, hmint⟩, rfl⟩
  · rintro ⟨hne, ⟨hata, hfee, hfeeAta, hmint⟩, rfl⟩
    exact ⟨hata, hfee, hne, hfeeAta, hmint, rfl⟩

/--
The lookup is complete for every list, except that a user who is the fee
recipient is turned away from a list that holds all four accounts.
-/
theorem lookup_complete_iff :
    LookupComplete accounts user feeRecipient chainId ↔
      user ≠ feeRecipient ∨ ¬ Listed accounts user feeRecipient chainId := by
  simp only [LookupComplete, getAccounts_eq_ok, exists_and_left, exists_eq,
    and_true]
  constructor
  · rintro ⟨hlisted, -⟩
    by_cases hne : user = feeRecipient
    · exact .inr fun h => (hlisted.mpr h).1 hne
    · exact .inl hne
  · intro h
    refine ⟨⟨fun hfound => hfound.2, fun hlisted => ⟨?_, hlisted⟩⟩,
      fun _ hfound => hfound.2.2⟩
    exact h.resolve_right (not_not_intro hlisted)

end

theorem lookup_fails_for_fee_recipient :
    ¬ LookupComplete
      [.ata (.wallet 5) (Pda.sbtcMint 1).address, .wallet 5,
        (Pda.sbtcMint 1).address] 5 5 1 := by
  rintro ⟨hlisted, -⟩
  rcases hlisted.mpr (by decide) with ⟨found, h⟩
  exact (withdrawGetAccounts_eq_ok.mp h).2.2.1 rfl

end SolBtcBridge.Properties
