import SolBtcBridge.Foundation.Bank
import SolBtcBridge.Runtime.Placement

/-!
# The tokens of a ledger as a bank

Forgetting lamports and records leaves the mints and the token accounts.  Each
operation of the token program is one step of that bank, and whatever writes
records leaves it as it was.
-/

namespace SolBtcBridge.Runtime

open SolBtcBridge.Foundation

def AccountBody.toBank : AccountBody → Option (BankAccount Address)
  | .mint m => some (.mint m.mintAuthority m.supply.toNat)
  | .token account =>
      some (.holding account.mint account.owner account.amount.toNat)
  | _ => none

namespace Ledger

def bank (L : Ledger) : Bank Address := fun a => (L a).body.toBank

theorem bank_supply (L : Ledger) (a : Address) : L.bank.supply a = L.supply a := by
  simp only [Bank.supply, bank, supply]
  cases (L a).body <;> rfl

theorem bank_amount (L : Ledger) (a : Address) :
    L.bank.amount a = L.balance a := by
  simp only [Bank.amount, bank, balance]
  cases (L a).body <;> rfl

theorem bank_congr {L L' : Ledger}
    (h : ∀ a, (L' a).body.toBank = (L a).body.toBank) : L'.bank = L.bank :=
  funext h

theorem bank_set {L : Ledger} {a : Address} {account : Account}
    {x : BankAccount Address} (h : account.body.toBank = some x) :
    (L.set a account).bank = L.bank.set a x := by
  funext b
  by_cases hb : b = a
  · rw [bank, hb, set_self, Bank.set_self, h]
  · rw [bank, set_of_ne L _ hb, Bank.set_of_ne _ _ hb, bank]

theorem bank_setBody {L : Ledger} {a : Address} {body : AccountBody}
    {x : BankAccount Address} (h : body.toBank = some x) :
    (L.setBody a body).bank = L.bank.set a x := bank_set h

theorem bank_of_ne {L L' : Ledger} {a : Address}
    (hbefore : (L a).body.toBank = none) (hafter : (L' a).body.toBank = none)
    (hother : ∀ b, b ≠ a → L' b = L b) : L'.bank = L.bank := by
  apply bank_congr
  intro b
  by_cases hb : b = a
  · rw [hb, hbefore, hafter]
  · rw [hother b hb]

section

variable {T : Type} [AnchorAccount T] {L L' : Ledger} {a : Address}

theorem exit_bank {t : T} (h : L.exit a t = .ok L') : L'.bank = L.bank := by
  have hother : ∀ b, b ≠ a → L' b = L b := fun b hb => exit_of_ne h hb
  rcases exit_eq_ok.mp h with ⟨data, hdata, -, rfl⟩
  refine bank_of_ne ?_ ?_ hother
  · rw [hdata]
    rfl
  · rw [setBody_self]
    rfl

theorem initIfNeeded_bank {t : T}
    (h : L.initIfNeeded T a (AnchorAccount.len T) = .ok (L', t)) :
    L'.bank = L.bank := by
  have hother : ∀ b, b ≠ a → L' b = L b := fun b hb => initIfNeeded_of_ne h hb
  rcases initIfNeeded_cases h with ⟨-, rfl⟩ | ⟨hvacant, -, rfl⟩
  · rfl
  · refine bank_of_ne ?_ ?_ hother
    · rw [hvacant]
      rfl
    · rw [set_self]
      rfl

theorem Upserts.bank {update : T → T} (h : L.Upserts a update L') :
    L'.bank = L.bank := by
  rcases h with ⟨L₁, record, hinit, hexit⟩
  rw [exit_bank hexit, initIfNeeded_bank hinit]

end

theorem placeAll_bank {L : Ledger} {ps : List Placement} (h : L.Placeable ps) :
    (L.placeAll ps).bank = L.bank := by
  apply bank_congr
  intro a
  rcases placeAll_cases h a with heq | ⟨p, -, -, hvacant, -, haccount⟩
  · rw [heq]
  · rw [haccount, hvacant]
    rfl

/-! ## Token operations -/

section

variable {L L' : Ledger} {mint a authority : Address}

theorem initMint_bank (h : L.initMint mint authority = .ok L') :
    Bank.Step L.bank (.createMint mint authority) L'.bank := by
  rcases initMint_eq_ok.mp h with ⟨hvacant, rfl⟩
  rw [bank_set (x := .mint authority 0) rfl]
  apply Bank.Step.createMint
  rw [bank, hvacant]
  rfl

theorem initTokenAccount_bank {owner : Address}
    (h : L.initTokenAccount a mint owner = .ok L') :
    Bank.Step L.bank (.openAccount a mint owner) L'.bank := by
  rcases initTokenAccount_eq_ok.mp h with ⟨⟨m, hmint⟩, hvacant, rfl⟩
  rw [bank_set (x := .holding mint owner 0) rfl]
  apply Bank.Step.openAccount
  · rw [bank, hmint]
    rfl
  · rw [bank, hvacant]
    rfl

theorem mintTo_bank {amount : U64}
    (h : L.mintTo mint a authority amount = .ok L') :
    Bank.Step L.bank (.issue mint a authority amount.toNat) L'.bank := by
  unfold mintTo at h
  split at h
  · rename_i m account hmint haccount
    simp only [bind_eq_ok, require_eq_ok, orFail_eq_ok, pure_eq_ok,
      checkedAdd_eq_some, exists_and_left, exists_const] at h
    rcases h with ⟨⟨hsame, hauthority⟩, supply, hsupply, balance, hbalance, rfl⟩
    rw [bank_setBody (x := .holding mint account.owner
        (account.amount.toNat + amount.toNat)) (by simp [AccountBody.toBank, *]),
      bank_setBody (x := .mint authority (m.supply.toNat + amount.toNat))
        (by simp [AccountBody.toBank, *])]
    apply Bank.Step.issue
    · rw [bank, hmint, AccountBody.toBank, hauthority]
    · rw [bank, haccount, AccountBody.toBank, hsame]
  · contradiction

theorem transfer_bank {destination : Address} {amount : U64}
    (h : L.transfer a destination authority amount = .ok L') :
    Bank.Step L.bank (.transfer a destination authority amount.toNat)
      L'.bank := by
  unfold transfer at h
  split at h
  · rename_i sender receiver hsender hreceiver
    simp only [bind_eq_ok, require_eq_ok, orFail_eq_ok, checkedSub_eq_some,
      exists_and_left, exists_const] at h
    rcases h with ⟨⟨hsame, howner⟩, debited, hdebited, h⟩
    have hsource : L.bank a = some (.holding sender.mint authority
        (debited.toNat + amount.toNat)) := by
      rw [bank, hsender, AccountBody.toBank, howner, hdebited]
    split at h
    · rename_i hself
      rw [pure_eq_ok] at h
      rw [← h, ← hself]
      exact .transferSelf hsource
    · rename_i hne
      simp only [bind_eq_ok, orFail_eq_ok, pure_eq_ok, checkedAdd_eq_some] at h
      rcases h with ⟨credited, hcredited, rfl⟩
      rw [bank_setBody (x := .holding sender.mint receiver.owner
          (receiver.amount.toNat + amount.toNat))
          (by simp [AccountBody.toBank, *]),
        bank_setBody (x := .holding sender.mint authority debited.toNat)
          (by simp [AccountBody.toBank, *])]
      refine .transfer hsource ?_ hne
      rw [bank, hreceiver, AccountBody.toBank, hsame]
  · contradiction

theorem burn_bank {amount : U64} (h : L.burn mint a authority amount = .ok L') :
    Bank.Step L.bank (.burn mint a authority amount.toNat) L'.bank := by
  unfold burn at h
  split at h
  · rename_i m account hmint haccount
    simp only [bind_eq_ok, require_eq_ok, orFail_eq_ok, pure_eq_ok,
      checkedSub_eq_some, exists_and_left, exists_const] at h
    rcases h with ⟨⟨hsame, howner⟩, balance, hbalance, supply, hsupply, rfl⟩
    rw [bank_setBody (x := .holding mint authority balance.toNat)
        (by simp [AccountBody.toBank, *]),
      bank_setBody (x := .mint m.mintAuthority supply.toNat)
        (by simp [AccountBody.toBank, *])]
    apply Bank.Step.burn
    · rw [bank, hmint, AccountBody.toBank, hsupply]
    · rw [bank, haccount, AccountBody.toBank, hsame, howner, hbalance]
  · contradiction

end

end Ledger

end SolBtcBridge.Runtime
