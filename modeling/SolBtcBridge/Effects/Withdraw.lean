import SolBtcBridge.Effects.Mint

/-!
# What a successful withdrawal does
-/

namespace SolBtcBridge.Effects

open SolBtcBridge.Foundation
open SolBtcBridge.Runtime
open SolBtcBridge.Program

def userSbtcAta (msg : WithdrawBtcMessage) : Address :=
  getAssociatedTokenAddress msg.fromAddress (Pda.sbtcMint msg.chainId).address

def feeRecipientSbtcAta (bridgeConfig : BridgeConfig) (msg : WithdrawBtcMessage) :
    Address :=
  getAssociatedTokenAddress bridgeConfig.feeRecipient
    (Pda.sbtcMint msg.chainId).address

structure WithdrawEffect (L : Ledger) (user : Pubkey) (msg : WithdrawBtcMessage)
    (L' : Ledger) (events : List Event) where
  bridgeConfig : BridgeConfig
  supportedChainConfig : SupportedChainConfig
  tokenConfig : TokenConfig
  nonceConfig : Nonces
  nonce : U64
  amount : U64
  chainMintTotal : U128
  tokenMintTotal : U128
  fromUser : msg.fromAddress = user
  bridgeStored : L.Stores (Pda.bridgeConfig msg.chainId).address bridgeConfig
  bridgeOpen : bridgeConfig.withdrawPaused = false
  otherChain : msg.chainId ≠ msg.toChainId
  chainStored : L.Stores (Pda.supportedChain msg.toChainId).address
    supportedChainConfig
  supported : supportedChainConfig.supported = true
  tokenStored : L.Stores (Pda.tokenConfig msg.toChainId msg.toTokenId).address
    tokenConfig
  notPaused : tokenConfig.withdrawPaused = false
  minimum : tokenConfig.tokenMinAmount.toNat ≤ msg.amount.toNat
  nonceProvided : L.Provides (Pda.operationNonce .tokenTransfer).address
    nonceConfig
  notRecipient : msg.fromAddress ≠ bridgeConfig.feeRecipient
  split : msg.amount.toNat = amount.toNat +
    (withdrawFee msg.amount tokenConfig.tokenFeePercentage).toNat
  nextNonce : nonce.toNat = nonceConfig.nonce.toNat + 1
  chainTotal : supportedChainConfig.mintTotal.toNat =
    chainMintTotal.toNat + msg.amount.toNat
  tokenTotal : tokenConfig.mintTotal.toNat =
    tokenMintTotal.toNat + msg.amount.toNat
  events_eq : events = [.withdrawBtc
    { nonce, toChainId := msg.toChainId, toTokenId := msg.toTokenId,
      toAddress := msg.toAddress, chainId := msg.chainId,
      fromAddress := msg.fromAddress, amount, originalAmount := msg.amount,
      chainMintTotal, tokenMintTotal }]
  nonceStored' : L'.Stores (Pda.operationNonce .tokenTransfer).address
    { nonceConfig with nonce }
  isMint : ∃ m, (L (Pda.sbtcMint msg.chainId).address).body = .mint m
  isMint' : ∃ m, (L' (Pda.sbtcMint msg.chainId).address).body = .mint m
  supply : L.supply (Pda.sbtcMint msg.chainId).address =
    L'.supply (Pda.sbtcMint msg.chainId).address + amount.toNat
  userBalance : L.balance (userSbtcAta msg) =
    L'.balance (userSbtcAta msg) + msg.amount.toNat
  feeBalance : L'.balance (feeRecipientSbtcAta bridgeConfig msg) =
    L.balance (feeRecipientSbtcAta bridgeConfig msg) +
      (withdrawFee msg.amount tokenConfig.tokenFeePercentage).toNat
  otherSupply : ∀ b, b ≠ (Pda.sbtcMint msg.chainId).address →
    L'.supply b = L.supply b
  otherBalance : ∀ a, a ≠ userSbtcAta msg →
    a ≠ feeRecipientSbtcAta bridgeConfig msg → L'.balance a = L.balance a
  frame : ∀ p : Pda, p ∉ [.operationNonce .tokenTransfer,
    .sbtcMint msg.chainId] → L' p.address = L p.address

theorem withdrawEffect_of_ok {L L' : Ledger} {ctx : Context} {user : Pubkey}
    {msg : WithdrawBtcMessage} {events : List Event} (hwf : WellFormed L)
    (h : withdrawBtc L ctx user msg = .ok (L', events)) :
    Nonempty (WithdrawEffect L user msg L' events) := by
  simp only [withdrawBtc, bind_eq_ok, require_eq_ok, pure_eq_ok,
    addOrPanic_eq_ok, subOrPanic_eq_ok, exists_and_left, exists_const,
    Prod.exists, Prod.mk.injEq, toNat_setWidth_amount] at h
  obtain ⟨bridge, hbridge, chain, hchain, token, htoken, L₁, nonceConfig, hinit,
    hfrom, -, hopen, hother, -, hsupported, -, -, hpaused, hminimum, -, -, nonce,
    hnonce, ata, feeRecipient, feeAta, mint, haccounts, L₂, hata, amount,
    hamount, L₃, htransfer, L₄, hburn, withdrawn, hwithdrawn, chainTotal,
    hchainTotal, tokenTotal, htokenTotal, L₅, hexit, rfl, rfl⟩ := h
  obtain ⟨rfl, rfl, rfl, rfl, hne⟩ := withdrawGetAccounts_ok haccounts
  obtain ⟨hprovided, hsized, hinitFrame⟩ :=
    Ledger.Keeps.initIfNeeded (hwf (.operationNonce .tokenTransfer)) hinit
  have hata' := createAssociatedTokenAccountIfnInit_spec hata
  obtain ⟨-, hmoved, -, htransferSupply, htransferFrame⟩ :=
    Ledger.transfer_spec htransfer
  obtain ⟨hburnSupply, hburnBalance, hburnSupplies, hburnBalances, hburnFrame⟩ :=
    Ledger.burn_spec hburn
  have hatas : userSbtcAta msg ≠ feeRecipientSbtcAta bridge msg := by
    simpa [userSbtcAta, feeRecipientSbtcAta, getAssociatedTokenAddress] using hne
  obtain ⟨hdebit, hcredit⟩ := hmoved hatas
  have hstart : Ledger.SameTokens L L₂ :=
    (Ledger.initIfNeeded_sameTokens hinit).trans hata'.1
  have hend := Ledger.exit_sameTokens hexit
  have hsplit : msg.amount.toNat = amount.toNat +
      (withdrawFee msg.amount token.tokenFeePercentage).toNat := hamount
  have htotal : withdrawn.toNat = msg.amount.toNat := by
    rw [hwithdrawn, hsplit]
  have hframe : ∀ p : Pda, p ≠ .sbtcMint msg.chainId →
      L₄ p.address = L₁ p.address := by
    intro p hp
    rw [hburnFrame _ (by simpa using hp) (by simp), htransferFrame _ (by simp)
      (by simp), hata'.2 _ (by simp)]
  have hmint₂ : L₃ (Pda.sbtcMint msg.chainId).address =
      L (Pda.sbtcMint msg.chainId).address := by
    rw [htransferFrame _ (by simp) (by simp), hata'.2 _ (by simp),
      hinitFrame _ (by simp)]
  have hmint₅ : L₅ (Pda.sbtcMint msg.chainId).address =
      L₄ (Pda.sbtcMint msg.chainId).address :=
    Ledger.exit_of_ne hexit (by simp)
  obtain ⟨hmintBefore, hmintAfter, -⟩ := Ledger.burn_bodies hburn
  exact ⟨{
    bridgeConfig := bridge
    supportedChainConfig := chain
    tokenConfig := token
    nonceConfig := nonceConfig
    nonce := nonce
    amount := amount
    chainMintTotal := chainTotal
    tokenMintTotal := tokenTotal
    fromUser := hfrom
    bridgeStored := (Ledger.Keeps.load (hwf (.bridgeConfig _)) hbridge).1
    bridgeOpen := by simpa using hopen
    otherChain := hother
    chainStored := (Ledger.Keeps.load (hwf (.supportedChain _)) hchain).1
    supported := hsupported
    tokenStored := (Ledger.Keeps.load (hwf (.tokenConfig _ _)) htoken).1
    notPaused := by simpa using hpaused
    minimum := hminimum
    nonceProvided := hprovided
    notRecipient := hne
    split := hsplit
    nextNonce := hnonce
    chainTotal := by rw [hchainTotal, htotal]
    tokenTotal := by rw [htokenTotal, htotal]
    events_eq := rfl
    nonceStored' := (hsized.congr (hframe _ (by simp))).exit hexit
    isMint := by rwa [← hmint₂]
    isMint' := by rwa [hmint₅]
    supply := by
      rw [hend.supply, ← hburnSupply, htransferSupply, hstart.supply]
    userBalance := by
      have hburned : L₃.balance (userSbtcAta msg) =
          L₄.balance (userSbtcAta msg) + amount.toNat := hburnBalance
      have hsent : L₂.balance (userSbtcAta msg) = L₃.balance (userSbtcAta msg) +
          (withdrawFee msg.amount token.tokenFeePercentage).toNat := hdebit
      rw [hend.balance, ← hstart.balance, hsent, hburned, hsplit]
      omega
    feeBalance := by
      rw [hend.balance, ← hstart.balance, hburnBalances _ hatas.symm]
      exact hcredit
    otherSupply := fun b hb => by
      rw [hend.supply, hburnSupplies b hb, htransferSupply, hstart.supply]
    otherBalance := fun a huser hfee => by
      rw [hend.balance, hburnBalances a huser,
        Ledger.balance_congr (by rw [htransferFrame a huser hfee]),
        hstart.balance]
    frame := fun p hp => by
      simp only [List.mem_cons, List.not_mem_nil, or_false, not_or] at hp
      rw [Ledger.exit_of_ne hexit (by simpa using hp.1), hframe p hp.2,
        hinitFrame _ (by simpa using hp.1)] }⟩

end SolBtcBridge.Effects
