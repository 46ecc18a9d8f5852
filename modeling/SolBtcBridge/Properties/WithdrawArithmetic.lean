import SolBtcBridge.Properties.MintTotals

/-!
# Arithmetic of a withdrawal

Every stored fee is below the denominator, so the fee never exceeds the
withdrawn amount; the two guards on the mint totals cover it.  None of the
checked operations of the handler can then fail.
-/

namespace SolBtcBridge.Properties

open SolBtcBridge.Foundation
open SolBtcBridge.Runtime
open SolBtcBridge.Program
open SolBtcBridge.Effects

/-- The accounts of `WithdrawBtc` load and meet its constraints. -/
structure WithdrawConstraints (L : Ledger) (user : Pubkey)
    (msg : WithdrawBtcMessage) (bridgeConfig : BridgeConfig)
    (supportedChainConfig : SupportedChainConfig) (tokenConfig : TokenConfig)
    (nonceConfig : Nonces) : Prop where
  bridge : L.load BridgeConfig (Pda.bridgeConfig msg.chainId).address =
    .ok bridgeConfig
  chain : L.load SupportedChainConfig (Pda.supportedChain msg.toChainId).address =
    .ok supportedChainConfig
  token : L.load TokenConfig (Pda.tokenConfig msg.toChainId msg.toTokenId).address =
    .ok tokenConfig
  nonce : ∃ L', L.initIfNeeded Nonces
    (Pda.operationNonce .tokenTransfer).address (AnchorAccount.len Nonces) =
      .ok (L', nonceConfig)
  fromUser : msg.fromAddress = user
  bridgeInitialized : bridgeConfig.isInitialized = true
  bridgeOpen : bridgeConfig.withdrawPaused = false
  otherChain : msg.chainId ≠ msg.toChainId
  chainInitialized : supportedChainConfig.isInitialized = true
  supported : supportedChainConfig.supported = true
  chainCovers : msg.amount.toNat ≤ supportedChainConfig.mintTotal.toNat
  tokenInitialized : tokenConfig.isInitialized = true
  notPaused : tokenConfig.withdrawPaused = false
  minimum : tokenConfig.tokenMinAmount.toNat ≤ msg.amount.toNat
  tokenCovers : msg.amount.toNat ≤ tokenConfig.mintTotal.toNat

private theorem withdrawConstraints_of_ok {L L' : Ledger} {ctx : Context}
    {user : Pubkey} {msg : WithdrawBtcMessage} {events : List Event}
    (h : withdrawBtc L ctx user msg = .ok (L', events)) :
    ∃ bridgeConfig supportedChainConfig tokenConfig nonceConfig,
      WithdrawConstraints L user msg bridgeConfig supportedChainConfig
        tokenConfig nonceConfig := by
  simp only [withdrawBtc, bind_eq_ok, require_eq_ok, exists_and_left,
    exists_const, Prod.exists] at h
  rcases h with ⟨bridge, hbridge, chain, hchain, token, htoken, L₁, nonce, hnonce,
    hfrom, hinitialized, hopen, hother, hchainInitialized, hsupported, hcovers,
    htokenInitialized, hpaused, hminimum, htokenCovers, -⟩
  exact ⟨bridge, chain, token, nonce,
    { bridge := hbridge
      chain := hchain
      token := htoken
      nonce := ⟨L₁, hnonce⟩
      fromUser := hfrom
      bridgeInitialized := hinitialized
      bridgeOpen := by simpa using hopen
      otherChain := hother
      chainInitialized := hchainInitialized
      supported := hsupported
      chainCovers := hcovers
      tokenInitialized := htokenInitialized
      notPaused := by simpa using hpaused
      minimum := hminimum
      tokenCovers := htokenCovers }⟩

section

variable (amount tokenFeePercentage : U64)

def feeProduct : U128 :=
  amount.setWidth 128 * tokenFeePercentage.setWidth 128

def feeQuotient : U128 :=
  feeProduct amount tokenFeePercentage / BitVec.ofNat 128 Constants.feeDenominator

def exactFee : Nat :=
  amount.toNat * tokenFeePercentage.toNat / Constants.feeDenominator

variable {tokenFeePercentage}

private theorem feeProduct_toNat :
    (feeProduct amount tokenFeePercentage).toNat =
      amount.toNat * tokenFeePercentage.toNat := by
  have hfits : amount.toNat * tokenFeePercentage.toNat < 2 ^ 64 * 2 ^ 64 :=
    Nat.mul_lt_mul'' amount.isLt tokenFeePercentage.isLt
  rw [feeProduct, BitVec.toNat_mul, toNat_setWidth_amount, toNat_setWidth_amount]
  exact Nat.mod_eq_of_lt hfits

private theorem feeQuotient_toNat :
    (feeQuotient amount tokenFeePercentage).toNat =
      exactFee amount tokenFeePercentage := by
  rw [feeQuotient, BitVec.toNat_udiv, feeProduct_toNat]
  rfl

variable (hfee : tokenFeePercentage.toNat < Constants.feeDenominator)

include hfee

theorem exactFee_le : exactFee amount tokenFeePercentage ≤ amount.toNat := by
  have hpositive : 0 < Constants.feeDenominator := Nat.zero_lt_of_lt hfee
  have hproduct : amount.toNat * tokenFeePercentage.toNat ≤
      amount.toNat * Constants.feeDenominator :=
    Nat.mul_le_mul_left _ (Nat.le_of_lt hfee)
  calc exactFee amount tokenFeePercentage
      ≤ amount.toNat * Constants.feeDenominator / Constants.feeDenominator :=
        Nat.div_le_div_right hproduct
    _ = amount.toNat := Nat.mul_div_cancel _ hpositive

private theorem exactFee_lt (hamount : 0 < amount.toNat) :
    exactFee amount tokenFeePercentage < amount.toNat := by
  have hpositive : 0 < Constants.feeDenominator := Nat.zero_lt_of_lt hfee
  rw [exactFee, Nat.div_lt_iff_lt_mul hpositive]
  exact Nat.mul_lt_mul_of_pos_left hfee hamount

theorem withdrawFee_toNat :
    (withdrawFee amount tokenFeePercentage).toNat =
      exactFee amount tokenFeePercentage := by
  have hfits : exactFee amount tokenFeePercentage < 2 ^ 64 :=
    lt_of_le_of_lt (exactFee_le amount hfee) amount.isLt
  change ((feeQuotient amount tokenFeePercentage).setWidth 64).toNat = _
  rw [BitVec.toNat_setWidth, feeQuotient_toNat, Nat.mod_eq_of_lt hfits]

end

/-! ## What the handler computes -/

/-- Every intermediate value of the handler is the exact integer. -/
structure ExactArithmetic (msg : WithdrawBtcMessage)
    (supportedChainConfig : SupportedChainConfig) (tokenConfig : TokenConfig) :
    Prop where
  product : (feeProduct msg.amount tokenConfig.tokenFeePercentage).toNat =
    msg.amount.toNat * tokenConfig.tokenFeePercentage.toNat
  cast : (withdrawFee msg.amount tokenConfig.tokenFeePercentage).toNat =
    (feeQuotient msg.amount tokenConfig.tokenFeePercentage).toNat
  fee : (withdrawFee msg.amount tokenConfig.tokenFeePercentage).toNat =
    exactFee msg.amount tokenConfig.tokenFeePercentage
  fee_le : (withdrawFee msg.amount tokenConfig.tokenFeePercentage).toNat ≤
    msg.amount.toNat
  fee_lt : 0 < msg.amount.toNat →
    (withdrawFee msg.amount tokenConfig.tokenFeePercentage).toNat <
      msg.amount.toNat
  split : ∃ amount,
    subOrPanic msg.amount
        (withdrawFee msg.amount tokenConfig.tokenFeePercentage) = .ok amount ∧
      addOrPanic amount
        (withdrawFee msg.amount tokenConfig.tokenFeePercentage) = .ok msg.amount
  chainTotal : ∃ total,
    subOrPanic supportedChainConfig.mintTotal (msg.amount.setWidth 128) =
      .ok total
  tokenTotal : ∃ total,
    subOrPanic tokenConfig.mintTotal (msg.amount.setWidth 128) = .ok total

/-- Who pays, who receives and what is burned. -/
structure ExactOutcome (L : Ledger) (msg : WithdrawBtcMessage)
    (bridgeConfig : BridgeConfig) (tokenConfig : TokenConfig) (L' : Ledger)
    (events : List Event) : Prop where
  userPays : L.balance (userSbtcAta msg) =
    L'.balance (userSbtcAta msg) + msg.amount.toNat
  recipientGains : L'.balance (feeRecipientSbtcAta bridgeConfig msg) =
    L.balance (feeRecipientSbtcAta bridgeConfig msg) +
      exactFee msg.amount tokenConfig.tokenFeePercentage
  burned : L.supply (Pda.sbtcMint msg.chainId).address =
    L'.supply (Pda.sbtcMint msg.chainId).address +
      (msg.amount.toNat - exactFee msg.amount tokenConfig.tokenFeePercentage)
  otherBalance : ∀ a, a ≠ userSbtcAta msg →
    a ≠ feeRecipientSbtcAta bridgeConfig msg → L'.balance a = L.balance a
  otherSupply : ∀ a, a ≠ (Pda.sbtcMint msg.chainId).address →
    L'.supply a = L.supply a
  reported : ∃ event, events = [.withdrawBtc event] ∧
    event.amount.toNat =
      msg.amount.toNat - exactFee msg.amount tokenConfig.tokenFeePercentage ∧
    event.originalAmount = msg.amount

theorem exactArithmetic_of_constraints {L : Ledger} {user : Pubkey}
    {msg : WithdrawBtcMessage} {bridgeConfig : BridgeConfig}
    {supportedChainConfig : SupportedChainConfig} {tokenConfig : TokenConfig}
    {nonceConfig : Nonces} (hwf : WellFormed L)
    (h : WithdrawConstraints L user msg bridgeConfig supportedChainConfig
      tokenConfig nonceConfig) :
    ExactArithmetic msg supportedChainConfig tokenConfig := by
  have hpercentage : tokenConfig.tokenFeePercentage.toNat <
      Constants.feeDenominator :=
    (Ledger.Keeps.load (hwf (.tokenConfig _ _)) h.token).2.2.2.2
  have hfee := withdrawFee_toNat msg.amount hpercentage
  have hle := exactFee_le msg.amount hpercentage
  rw [← hfee] at hle
  have hsplit : (msg.amount -
      withdrawFee msg.amount tokenConfig.tokenFeePercentage).toNat =
      msg.amount.toNat -
        (withdrawFee msg.amount tokenConfig.tokenFeePercentage).toNat :=
    BitVec.toNat_sub_of_le (BitVec.le_def.mpr hle)
  have hcovered : ∀ total : U128, msg.amount.toNat ≤ total.toNat →
      ∃ rest, subOrPanic total (msg.amount.setWidth 128) = .ok rest := by
    intro total hcovers
    have hsub : (msg.amount.setWidth 128).toNat ≤ total.toNat := by
      rwa [toNat_setWidth_amount]
    refine ⟨total - msg.amount.setWidth 128, subOrPanic_eq_ok.mpr ?_⟩
    rw [BitVec.toNat_sub_of_le (BitVec.le_def.mpr hsub)]
    omega
  exact {
    product := feeProduct_toNat msg.amount
    cast := by rw [hfee, feeQuotient_toNat]
    fee := hfee
    fee_le := hle
    fee_lt := fun hamount => by
      rw [hfee]
      exact exactFee_lt msg.amount hpercentage hamount
    split := by
      refine ⟨msg.amount - withdrawFee msg.amount tokenConfig.tokenFeePercentage,
        subOrPanic_eq_ok.mpr ?_, addOrPanic_eq_ok.mpr ?_⟩
      · rw [hsplit]
        omega
      · rw [hsplit]
        omega
    chainTotal := hcovered _ h.chainCovers
    tokenTotal := hcovered _ h.tokenCovers }

private theorem exactOutcome_of_ok {L L' : Ledger} {ctx : Context}
    {user : Pubkey} {msg : WithdrawBtcMessage} {events : List Event}
    {bridgeConfig : BridgeConfig} {supportedChainConfig : SupportedChainConfig}
    {tokenConfig : TokenConfig} {nonceConfig : Nonces} (hwf : WellFormed L)
    (hconstraints : WithdrawConstraints L user msg bridgeConfig
      supportedChainConfig tokenConfig nonceConfig)
    (h : withdrawBtc L ctx user msg = .ok (L', events)) :
    ExactOutcome L msg bridgeConfig tokenConfig L' events := by
  rcases withdrawEffect_of_ok hwf h with ⟨effect⟩
  have hbridge : effect.bridgeConfig = bridgeConfig :=
    effect.bridgeStored.unique
      (Ledger.Keeps.load (hwf (.bridgeConfig _)) hconstraints.bridge).1
  have htoken : effect.tokenConfig = tokenConfig :=
    effect.tokenStored.unique
      (Ledger.Keeps.load (hwf (.tokenConfig _ _)) hconstraints.token).1
  have hfee := (exactArithmetic_of_constraints hwf hconstraints).fee
  have hsplit := effect.split
  have hgain := effect.feeBalance
  rw [htoken, hfee] at hsplit
  rw [hbridge, htoken, hfee] at hgain
  have hburned : effect.amount.toNat =
      msg.amount.toNat - exactFee msg.amount tokenConfig.tokenFeePercentage := by
    omega
  exact {
    userPays := effect.userBalance
    recipientGains := hgain
    burned := by rw [← hburned, effect.supply]
    otherBalance := by
      rw [← hbridge]
      exact effect.otherBalance
    otherSupply := effect.otherSupply
    reported := ⟨_, effect.events_eq, hburned, rfl⟩ }

/--
In every reachable state, a withdrawal that passes the account constraints is
computed without any loss, and a successful one moves exactly these amounts.
-/
theorem withdrawal_exact (host : Host) (inputs : List Input) (user : Pubkey)
    (msg : WithdrawBtcMessage) (bridgeConfig : BridgeConfig)
    (supportedChainConfig : SupportedChainConfig) (tokenConfig : TokenConfig)
    (nonceConfig : Nonces)
    (h : WithdrawConstraints (execute host inputs).state user msg bridgeConfig
      supportedChainConfig tokenConfig nonceConfig) :
    ExactArithmetic msg supportedChainConfig tokenConfig ∧
      ∀ ctx L' events,
        withdrawBtc (execute host inputs).state ctx user msg =
          .ok (L', events) →
        ExactOutcome (execute host inputs).state msg bridgeConfig tokenConfig L'
          events := by
  have hwf := execute_wellFormed host inputs
  constructor
  · exact exactArithmetic_of_constraints hwf h
  · intro ctx L' events hok
    exact exactOutcome_of_ok hwf h hok

def sampleDeposits : List Input :=
  [sampleBridge, sampleCommittee, sampleLimiter, sampleMint]

def sampleWithdrawMessage : WithdrawBtcMessage :=
  ⟨2, 0, [], 1, sampleUser, 400⟩

def sampleWithdrawContext : Context :=
  sampleContext
    [getAssociatedTokenAddress sampleUser (Pda.sbtcMint 1).address,
      .wallet sampleFeeRecipient,
      getAssociatedTokenAddress sampleFeeRecipient (Pda.sbtcMint 1).address,
      (Pda.sbtcMint 1).address] [] 0

theorem withdrawal_exact_sample :
    ∃ bridgeConfig supportedChainConfig tokenConfig L' events,
      ExactArithmetic sampleWithdrawMessage supportedChainConfig tokenConfig ∧
      ExactOutcome (execute sampleHost sampleDeposits).state
        sampleWithdrawMessage bridgeConfig tokenConfig L' events := by
  have hok : (withdrawBtc (execute sampleHost sampleDeposits).state
      sampleWithdrawContext sampleUser sampleWithdrawMessage).isOk = true := by
    decide +kernel
  rcases isOk_eq_true.mp hok with ⟨⟨L', events⟩, h⟩
  rcases withdrawConstraints_of_ok h with ⟨bridge, chain, token, nonce, hall⟩
  have hexact := withdrawal_exact sampleHost sampleDeposits sampleUser
    sampleWithdrawMessage bridge chain token nonce hall
  exact ⟨bridge, chain, token, L', events, hexact.1,
    hexact.2 sampleWithdrawContext L' events h⟩

end SolBtcBridge.Properties
