import SolBtcBridge.Program.EchoBridge
import SolBtcBridge.Effects.Verify

/-!
# The accounts a mint or a withdrawal finds

Both handlers scan the remaining accounts for fixed keys.  Whatever the scan
returns carries exactly the key it was looked up by.
-/

namespace SolBtcBridge.Effects

open SolBtcBridge.Foundation
open SolBtcBridge.Runtime
open SolBtcBridge.Program

def MintFoundSound (user userAta sbtcMint : Address)
    (found : MintSbtc.Found) : Prop :=
  (∀ a ∈ found.userAccount, a = user) ∧ (∀ a ∈ found.userSbtcAta, a = userAta) ∧
    ∀ a ∈ found.sbtcMint, a = sbtcMint

private theorem mintVisit_sound {user userAta sbtcMint account : Address}
    {found : MintSbtc.Found} (h : MintFoundSound user userAta sbtcMint found) :
    MintFoundSound user userAta sbtcMint
      (found.visit user userAta sbtcMint account) := by
  obtain ⟨huser, hata, hmint⟩ := h
  unfold MintSbtc.Found.visit
  split_ifs with h₁ h₂ h₃
  · exact ⟨huser, by simpa using h₁, hmint⟩
  · exact ⟨huser, hata, by simpa using h₂⟩
  · exact ⟨by simpa using h₃, hata, hmint⟩
  · exact ⟨huser, hata, hmint⟩

theorem mintScan_sound {user userAta sbtcMint : Address}
    {accounts : List Address} {found : MintSbtc.Found}
    (h : MintFoundSound user userAta sbtcMint found) :
    MintFoundSound user userAta sbtcMint
      (MintSbtc.scan user userAta sbtcMint accounts found) := by
  induction accounts generalizing found with
  | nil => exact h
  | cons account accounts ih =>
      simp only [MintSbtc.scan]
      split
      · exact mintVisit_sound h
      · apply ih
        exact mintVisit_sound h

theorem mintGetAccounts_ok {accounts : List Address} {user : Pubkey}
    {chainId : U8} {u ata mint : Address}
    (h : MintSbtc.getAccounts accounts user chainId = .ok (u, ata, mint)) :
    u = .wallet user ∧
      ata = getAssociatedTokenAddress user (Pda.sbtcMint chainId).address ∧
      mint = (Pda.sbtcMint chainId).address := by
  simp only [MintSbtc.getAccounts, bind_eq_ok, orFail_eq_ok, pure_eq_ok,
    Prod.mk.injEq] at h
  obtain ⟨_, huser, _, hata, _, hmint, rfl, rfl, rfl⟩ := h
  have hstart : MintFoundSound (.wallet user)
      (getAssociatedTokenAddress user (Pda.sbtcMint chainId).address)
      (Pda.sbtcMint chainId).address ⟨none, none, none⟩ := by
    simp [MintFoundSound]
  obtain ⟨hu, ha, hm⟩ := mintScan_sound hstart
  exact ⟨hu _ huser, ha _ hata, hm _ hmint⟩

def WithdrawFoundSound (userAta feeRecipient feeRecipientAta sbtcMint : Address)
    (found : WithdrawBtc.Found) : Prop :=
  (∀ a ∈ found.userSbtcAta, a = userAta) ∧
    (∀ a ∈ found.feeRecipient, a = feeRecipient) ∧
    (∀ a ∈ found.feeRecipientSbtcAta, a = feeRecipientAta ∧ a ≠ userAta) ∧
    ∀ a ∈ found.sbtcMint, a = sbtcMint

private theorem withdrawVisit_sound
    {userAta feeRecipient feeRecipientAta sbtcMint account : Address}
    {found : WithdrawBtc.Found}
    (h : WithdrawFoundSound userAta feeRecipient feeRecipientAta sbtcMint found) :
    WithdrawFoundSound userAta feeRecipient feeRecipientAta sbtcMint
      (found.visit userAta feeRecipient feeRecipientAta sbtcMint account) := by
  obtain ⟨hata, hfee, hfeeAta, hmint⟩ := h
  unfold WithdrawBtc.Found.visit
  split_ifs with h₁ h₂ h₃ h₄
  · exact ⟨by simpa using h₁, hfee, hfeeAta, hmint⟩
  · exact ⟨hata, by simpa using h₂, hfeeAta, hmint⟩
  · exact ⟨hata, hfee, by simpa using ⟨h₃, h₁⟩, hmint⟩
  · exact ⟨hata, hfee, hfeeAta, by simpa using h₄⟩
  · exact ⟨hata, hfee, hfeeAta, hmint⟩

theorem withdrawScan_sound
    {userAta feeRecipient feeRecipientAta sbtcMint : Address}
    {accounts : List Address} {found : WithdrawBtc.Found}
    (h : WithdrawFoundSound userAta feeRecipient feeRecipientAta sbtcMint found) :
    WithdrawFoundSound userAta feeRecipient feeRecipientAta sbtcMint
      (WithdrawBtc.scan userAta feeRecipient feeRecipientAta sbtcMint accounts
        found) := by
  induction accounts generalizing found with
  | nil => exact h
  | cons account accounts ih =>
      simp only [WithdrawBtc.scan]
      split
      · exact withdrawVisit_sound h
      · apply ih
        exact withdrawVisit_sound h

/--
The user's own account is matched first, so a user who is the fee recipient
never gets past the lookup.
-/
theorem withdrawGetAccounts_ok {accounts : List Address}
    {user feeRecipient : Pubkey} {chainId : U8} {ata fee feeAta mint : Address}
    (h : WithdrawBtc.getAccounts accounts user feeRecipient chainId =
      .ok (ata, fee, feeAta, mint)) :
    ata = getAssociatedTokenAddress user (Pda.sbtcMint chainId).address ∧
      fee = .wallet feeRecipient ∧
      feeAta = getAssociatedTokenAddress feeRecipient
        (Pda.sbtcMint chainId).address ∧
      mint = (Pda.sbtcMint chainId).address ∧ user ≠ feeRecipient := by
  simp only [WithdrawBtc.getAccounts, bind_eq_ok, orFail_eq_ok, pure_eq_ok,
    Prod.mk.injEq] at h
  obtain ⟨_, hata, _, hfee, _, hfeeAta, _, hmint, rfl, rfl, rfl, rfl⟩ := h
  have hstart : WithdrawFoundSound
      (getAssociatedTokenAddress user (Pda.sbtcMint chainId).address)
      (.wallet feeRecipient)
      (getAssociatedTokenAddress feeRecipient (Pda.sbtcMint chainId).address)
      (Pda.sbtcMint chainId).address ⟨none, none, none, none⟩ := by
    simp [WithdrawFoundSound]
  obtain ⟨ha, hf, hfa, hm⟩ := withdrawScan_sound hstart
  obtain ⟨hfeeEq, hfeeNe⟩ := hfa _ hfeeAta
  refine ⟨ha _ hata, hf _ hfee, hfeeEq, hm _ hmint, ?_⟩
  rintro rfl
  exact hfeeNe hfeeEq

theorem createAssociatedTokenAccountIfnInit_spec {L L' : Ledger}
    {owner mint a : Address}
    (h : createAssociatedTokenAccountIfnInit L owner mint a = .ok L') :
    Ledger.SameTokens L L' ∧ ∀ b, b ≠ a → L' b = L b := by
  unfold createAssociatedTokenAccountIfnInit at h
  split at h
  · simp only [bind_eq_ok, require_eq_ok, exists_and_left, exists_const] at h
    exact (Ledger.initTokenAccount_spec h.2).2
  · cases h
    exact ⟨⟨fun _ => rfl, fun _ => rfl⟩, fun _ _ => rfl⟩

end SolBtcBridge.Effects
