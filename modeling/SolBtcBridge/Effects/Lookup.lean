import SolBtcBridge.Effects.Accounts
import SolBtcBridge.Foundation.Scan

/-!
# What the account lookups return

Both lookups sort the remaining accounts into named slots and stop when every
slot is filled.  Their result, the error included, depends only on which of the
wanted accounts occur in the list.
-/

namespace SolBtcBridge.Effects

open SolBtcBridge.Foundation
open SolBtcBridge.Runtime
open SolBtcBridge.Program

private theorem orFail_slot {α : Type} {x : Option Address} {a : Address}
    {p : Prop} [Decidable p] (hsound : ∀ b ∈ x, b = a) (hfilled : x.isSome ↔ p)
    (failure : Failure) (next : Address → Result α) :
    (orFail failure x >>= next) = if ¬ p then .error failure else next a := by
  cases x with
  | none => rw [if_pos (mt hfilled.mpr (by simp))]; rfl
  | some b =>
      rw [if_neg (not_not_intro (hfilled.mp rfl)), ← hsound b rfl]
      rfl

inductive MintSlot where
  | userSbtcAta
  | sbtcMint
  | userAccount
  deriving DecidableEq

section

variable (user userAta sbtcMint : Address)

def mintSlot (account : Address) : Option MintSlot :=
  if account = userAta then some .userSbtcAta
  else if account = sbtcMint then some .sbtcMint
  else if account = user then some .userAccount
  else none

def MintSlot.account : MintSlot → Address
  | .userSbtcAta => userAta
  | .sbtcMint => sbtcMint
  | .userAccount => user

def mintFilled (found : MintSbtc.Found) : MintSlot → Prop
  | .userSbtcAta => found.userSbtcAta.isSome
  | .sbtcMint => found.sbtcMint.isSome
  | .userAccount => found.userAccount.isSome

private theorem mint_fills : Fills (MintSbtc.Found.visit user userAta sbtcMint)
    MintSbtc.Found.isComplete (mintSlot user userAta sbtcMint) mintFilled where
  visit_iff found account slot := by
    unfold MintSbtc.Found.visit mintSlot
    cases slot <;> split_ifs <;> simp [mintFilled]
  complete_iff found := by
    simp only [MintSbtc.Found.isComplete, Bool.and_eq_true]
    constructor
    · rintro ⟨⟨hata, hmint⟩, huser⟩ slot
      cases slot with
      | userSbtcAta => exact hata
      | sbtcMint => exact hmint
      | userAccount => exact huser
    · intro h
      exact ⟨⟨h .userSbtcAta, h .sbtcMint⟩, h .userAccount⟩

private theorem mintScan_eq (accounts : List Address) (found : MintSbtc.Found) :
    MintSbtc.scan user userAta sbtcMint accounts found =
      scanUntil (MintSbtc.Found.visit user userAta sbtcMint)
        MintSbtc.Found.isComplete accounts found := by
  induction accounts generalizing found with
  | nil => rfl
  | cons account accounts ih =>
      simp only [MintSbtc.scan, scanUntil, ih]

variable {user userAta sbtcMint}

private theorem mintSlot_eq_some {account : Address} {slot : MintSlot}
    (hata : user ≠ userAta) (hmint : user ≠ sbtcMint)
    (hne : userAta ≠ sbtcMint) :
    mintSlot user userAta sbtcMint account = some slot ↔
      account = slot.account user userAta sbtcMint := by
  unfold mintSlot
  cases slot <;> split_ifs <;>
    simp_all [MintSlot.account, hata.symm, hmint.symm, hne.symm]

private theorem mintScan_filled {accounts : List Address}
    (hata : user ≠ userAta) (hmint : user ≠ sbtcMint) (hne : userAta ≠ sbtcMint)
    (slot : MintSlot) :
    mintFilled (MintSbtc.scan user userAta sbtcMint accounts
      ⟨none, none, none⟩) slot ↔
        slot.account user userAta sbtcMint ∈ accounts := by
  rw [mintScan_eq, (mint_fills user userAta sbtcMint).scanUntil_iff]
  simp only [mintSlot_eq_some hata hmint hne, exists_eq_right]
  cases slot <;> simp [mintFilled]

end

theorem mintGetAccounts_eq {accounts : List Address} {user : Pubkey}
    {chainId : U8} :
    MintSbtc.getAccounts accounts user chainId =
      if .wallet user ∉ accounts then .error (.program .userNotFound)
      else if getAssociatedTokenAddress user (Pda.sbtcMint chainId).address ∉
          accounts then .error (.program .userSbtcAtaNotFound)
      else if (Pda.sbtcMint chainId).address ∉ accounts then
        .error (.program .sbtcMintAccountNotFound)
      else .ok (.wallet user,
        getAssociatedTokenAddress user (Pda.sbtcMint chainId).address,
        (Pda.sbtcMint chainId).address) := by
  simp only [MintSbtc.getAccounts]
  have hata : Address.wallet user ≠
      getAssociatedTokenAddress user (Pda.sbtcMint chainId).address := by
    simp [getAssociatedTokenAddress]
  have hmint : Address.wallet user ≠ (Pda.sbtcMint chainId).address := by
    simp [Pda.address]
  generalize hmintEq : (Pda.sbtcMint chainId).address = sbtcMint at hata hmint ⊢
  have hne : getAssociatedTokenAddress user sbtcMint ≠ sbtcMint := by
    rw [← hmintEq]
    simp
  generalize getAssociatedTokenAddress user sbtcMint = userAta at hata hne ⊢
  have hfilled : ∀ slot : MintSlot,
      mintFilled (MintSbtc.scan (.wallet user) userAta sbtcMint accounts
        ⟨none, none, none⟩) slot ↔
      slot.account (.wallet user) userAta sbtcMint ∈ accounts :=
    mintScan_filled hata hmint hne
  have hsound : MintFoundSound (.wallet user) userAta sbtcMint
      (MintSbtc.scan (.wallet user) userAta sbtcMint accounts
        ⟨none, none, none⟩) := mintScan_sound (by simp [MintFoundSound])
  generalize MintSbtc.scan (.wallet user) userAta sbtcMint accounts
    ⟨none, none, none⟩ = found at hfilled hsound
  rcases hsound with ⟨huserSound, hataSound, hmintSound⟩
  rw [orFail_slot huserSound (hfilled .userAccount),
    orFail_slot hataSound (hfilled .userSbtcAta),
    orFail_slot hmintSound (hfilled .sbtcMint)]
  rfl

theorem mintGetAccounts_eq_ok {accounts : List Address} {user : Pubkey}
    {chainId : U8} {found : Address × Address × Address} :
    MintSbtc.getAccounts accounts user chainId = .ok found ↔
      .wallet user ∈ accounts ∧
      getAssociatedTokenAddress user (Pda.sbtcMint chainId).address ∈ accounts ∧
      (Pda.sbtcMint chainId).address ∈ accounts ∧
      (.wallet user,
        getAssociatedTokenAddress user (Pda.sbtcMint chainId).address,
        (Pda.sbtcMint chainId).address) = found := by
  rw [mintGetAccounts_eq]
  split_ifs <;> simp_all

/-! ## Withdrawing -/

inductive WithdrawSlot where
  | userSbtcAta
  | feeRecipient
  | feeRecipientSbtcAta
  | sbtcMint
  deriving DecidableEq

section

variable (userAta feeRecipient feeRecipientAta sbtcMint : Address)

def withdrawSlot (account : Address) : Option WithdrawSlot :=
  if account = userAta then some .userSbtcAta
  else if account = feeRecipient then some .feeRecipient
  else if account = feeRecipientAta then some .feeRecipientSbtcAta
  else if account = sbtcMint then some .sbtcMint
  else none

def withdrawFilled (found : WithdrawBtc.Found) : WithdrawSlot → Prop
  | .userSbtcAta => found.userSbtcAta.isSome
  | .feeRecipient => found.feeRecipient.isSome
  | .feeRecipientSbtcAta => found.feeRecipientSbtcAta.isSome
  | .sbtcMint => found.sbtcMint.isSome

private theorem withdraw_fills : Fills
    (WithdrawBtc.Found.visit userAta feeRecipient feeRecipientAta sbtcMint)
    WithdrawBtc.Found.isComplete
    (withdrawSlot userAta feeRecipient feeRecipientAta sbtcMint)
    withdrawFilled where
  visit_iff found account slot := by
    unfold WithdrawBtc.Found.visit withdrawSlot
    cases slot <;> split_ifs <;> simp [withdrawFilled]
  complete_iff found := by
    simp only [WithdrawBtc.Found.isComplete, Bool.and_eq_true]
    constructor
    · rintro ⟨⟨⟨hata, hfee⟩, hfeeAta⟩, hmint⟩ slot
      cases slot with
      | userSbtcAta => exact hata
      | feeRecipient => exact hfee
      | feeRecipientSbtcAta => exact hfeeAta
      | sbtcMint => exact hmint
    · intro h
      exact ⟨⟨⟨h .userSbtcAta, h .feeRecipient⟩, h .feeRecipientSbtcAta⟩,
        h .sbtcMint⟩

private theorem withdrawScan_eq (accounts : List Address)
    (found : WithdrawBtc.Found) :
    WithdrawBtc.scan userAta feeRecipient feeRecipientAta sbtcMint accounts
      found = scanUntil
        (WithdrawBtc.Found.visit userAta feeRecipient feeRecipientAta sbtcMint)
        WithdrawBtc.Found.isComplete accounts found := by
  induction accounts generalizing found with
  | nil => rfl
  | cons account accounts ih =>
      simp only [WithdrawBtc.scan, scanUntil, ih]

private theorem withdrawScan_filled (accounts : List Address)
    (slot : WithdrawSlot) :
    withdrawFilled (WithdrawBtc.scan userAta feeRecipient feeRecipientAta
      sbtcMint accounts ⟨none, none, none, none⟩) slot ↔
        ∃ account ∈ accounts, withdrawSlot userAta feeRecipient feeRecipientAta
          sbtcMint account = some slot := by
  rw [withdrawScan_eq, (withdraw_fills userAta feeRecipient feeRecipientAta
    sbtcMint).scanUntil_iff]
  cases slot <;> simp [withdrawFilled]

end

section

variable {wallet userAta feeAta sbtcMint : Address} {accounts : List Address}

private theorem withdrawSlot_listed (hmint : wallet ≠ sbtcMint)
    (hata : wallet ≠ userAta) (hfeeAta : wallet ≠ feeAta)
    (hataMint : userAta ≠ sbtcMint) (hfeeAtaMint : feeAta ≠ sbtcMint)
    (slot : WithdrawSlot) :
    (∃ account ∈ accounts, withdrawSlot userAta wallet feeAta sbtcMint account =
      some slot) ↔
    match slot with
    | .userSbtcAta => userAta ∈ accounts
    | .feeRecipient => wallet ∈ accounts
    | .feeRecipientSbtcAta => userAta ≠ feeAta ∧ feeAta ∈ accounts
    | .sbtcMint => sbtcMint ∈ accounts := by
  have hslot : ∀ account, withdrawSlot userAta wallet feeAta sbtcMint account =
      some slot ↔
    match slot with
    | .userSbtcAta => account = userAta
    | .feeRecipient => account = wallet
    | .feeRecipientSbtcAta => userAta ≠ feeAta ∧ account = feeAta
    | .sbtcMint => account = sbtcMint := by
    intro account
    unfold withdrawSlot
    by_cases hsame : userAta = feeAta
    · cases slot <;> split_ifs <;>
        simp_all [hfeeAta.symm, hfeeAtaMint.symm]
    · cases slot <;> split_ifs <;>
        simp_all [hata.symm, hfeeAta.symm, hmint.symm, hataMint.symm,
          hfeeAtaMint.symm, Ne.symm hsame]
  simp only [hslot]
  cases slot with
  | feeRecipientSbtcAta =>
      constructor
      · rintro ⟨_, hmem, hne, rfl⟩
        exact ⟨hne, hmem⟩
      · rintro ⟨hne, hmem⟩
        exact ⟨feeAta, hmem, hne, rfl⟩
  | _ => exact exists_eq_right

end

theorem withdrawGetAccounts_eq {accounts : List Address}
    {user feeRecipient : Pubkey} {chainId : U8} :
    WithdrawBtc.getAccounts accounts user feeRecipient chainId =
      if getAssociatedTokenAddress user (Pda.sbtcMint chainId).address ∉
          accounts then .error (.program .userSbtcAtaNotFound)
      else if .wallet feeRecipient ∉ accounts then
        .error (.program .feeRecipientNotFound)
      else if ¬ (user ≠ feeRecipient ∧ getAssociatedTokenAddress feeRecipient
          (Pda.sbtcMint chainId).address ∈ accounts) then
        .error (.program .feeRecipientSbtcAtaNotFound)
      else if (Pda.sbtcMint chainId).address ∉ accounts then
        .error (.program .sbtcMintAccountNotFound)
      else .ok (getAssociatedTokenAddress user (Pda.sbtcMint chainId).address,
        .wallet feeRecipient,
        getAssociatedTokenAddress feeRecipient (Pda.sbtcMint chainId).address,
        (Pda.sbtcMint chainId).address) := by
  simp only [WithdrawBtc.getAccounts]
  have hmint : Address.wallet feeRecipient ≠ (Pda.sbtcMint chainId).address := by
    simp [Pda.address]
  have hata : ∀ owner, Address.wallet feeRecipient ≠
      getAssociatedTokenAddress owner (Pda.sbtcMint chainId).address := by
    simp [getAssociatedTokenAddress]
  have hataMint : ∀ owner,
      getAssociatedTokenAddress owner (Pda.sbtcMint chainId).address ≠
        (Pda.sbtcMint chainId).address := by
    simp
  generalize (Pda.sbtcMint chainId).address = sbtcMint at hmint hata hataMint ⊢
  have hfilled := fun slot => (withdrawScan_filled
    (getAssociatedTokenAddress user sbtcMint) (.wallet feeRecipient)
    (getAssociatedTokenAddress feeRecipient sbtcMint) sbtcMint accounts
    slot).trans (withdrawSlot_listed hmint (hata user) (hata feeRecipient)
      (hataMint user) (hataMint feeRecipient) slot)
  have hsound : WithdrawFoundSound (getAssociatedTokenAddress user sbtcMint)
      (.wallet feeRecipient) (getAssociatedTokenAddress feeRecipient sbtcMint)
      sbtcMint (WithdrawBtc.scan (getAssociatedTokenAddress user sbtcMint)
        (.wallet feeRecipient) (getAssociatedTokenAddress feeRecipient sbtcMint)
        sbtcMint accounts ⟨none, none, none, none⟩) :=
    withdrawScan_sound (by simp [WithdrawFoundSound])
  generalize WithdrawBtc.scan (getAssociatedTokenAddress user sbtcMint)
    (.wallet feeRecipient) (getAssociatedTokenAddress feeRecipient sbtcMint)
    sbtcMint accounts ⟨none, none, none, none⟩ = found at hfilled hsound
  rcases hsound with ⟨hataSound, hfeeSound, hfeeAtaSound, hmintSound⟩
  have hne : getAssociatedTokenAddress user sbtcMint ≠
      getAssociatedTokenAddress feeRecipient sbtcMint ↔ user ≠ feeRecipient := by
    simp [getAssociatedTokenAddress]
  have hfeeAtaKey : ∀ a ∈ found.feeRecipientSbtcAta,
      a = getAssociatedTokenAddress feeRecipient sbtcMint :=
    fun a ha => (hfeeAtaSound a ha).1
  rw [orFail_slot hataSound (hfilled .userSbtcAta),
    orFail_slot hfeeSound (hfilled .feeRecipient),
    orFail_slot hfeeAtaKey
      ((hfilled .feeRecipientSbtcAta).trans (and_congr_left' hne)),
    orFail_slot hmintSound (hfilled .sbtcMint)]
  rfl

theorem withdrawGetAccounts_eq_ok {accounts : List Address}
    {user feeRecipient : Pubkey} {chainId : U8}
    {found : Address × Address × Address × Address} :
    WithdrawBtc.getAccounts accounts user feeRecipient chainId = .ok found ↔
      getAssociatedTokenAddress user (Pda.sbtcMint chainId).address ∈ accounts ∧
      .wallet feeRecipient ∈ accounts ∧ user ≠ feeRecipient ∧
      getAssociatedTokenAddress feeRecipient (Pda.sbtcMint chainId).address ∈
        accounts ∧
      (Pda.sbtcMint chainId).address ∈ accounts ∧
      (getAssociatedTokenAddress user (Pda.sbtcMint chainId).address,
        .wallet feeRecipient,
        getAssociatedTokenAddress feeRecipient (Pda.sbtcMint chainId).address,
        (Pda.sbtcMint chainId).address) = found := by
  rw [withdrawGetAccounts_eq]
  split_ifs <;> simp_all

end SolBtcBridge.Effects
