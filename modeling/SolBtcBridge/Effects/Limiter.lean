import SolBtcBridge.Effects.Records
import SolBtcBridge.Effects.Verify
import SolBtcBridge.Runtime.Token

/-!
# What a successful limiter update does
-/

namespace SolBtcBridge.Effects

open SolBtcBridge.Foundation
open SolBtcBridge.Runtime
open SolBtcBridge.Program

structure LimitEffect (L : Ledger) (ctx : Context) (submitter : Pubkey)
    (numberOfSignatures : U8) (msg : UpdateLimiterMsg) (L' : Ledger)
    (events : List Event) where
  submitterAccount : Submitter
  bridgeConfig : BridgeConfig
  supportedChainConfig : SupportedChainConfig
  tokenConfig : TokenConfig
  nonceConfig : Nonces
  nonce : U64
  limiter : ChainTokenLimiter
  submitterStored : L.Stores (Pda.submitter submitter).address submitterAccount
  isSubmitter : submitterAccount.isSubmitter = true
  bridgeStored : L.Stores (Pda.bridgeConfig msg.chainId).address bridgeConfig
  chainStored : L.Stores (Pda.supportedChain msg.targetChainId).address
    supportedChainConfig
  supported : supportedChainConfig.supported = true
  tokenStored : L.Stores (Pda.tokenConfig msg.targetChainId msg.tokenId).address
    tokenConfig
  notPaused : tokenConfig.withdrawPaused = false
  nonceProvided : L.Provides (Pda.operationNonce .updateBridgeLimit).address
    nonceConfig
  limiterProvided : L.Provides
    (Pda.limiter msg.targetChainId msg.tokenId).address limiter
  verified : verify ctx.remainingAccounts L ctx.instructions numberOfSignatures
    msg .updateBridgeLimit nonceConfig = .ok { nonceConfig with nonce }
  sameNonce : nonceConfig.nonce = msg.nonce
  nextNonce : nonce.toNat = nonceConfig.nonce.toNat + 1
  events_eq : events = [.limitUpdated
    { chainId := (updateLimiter limiter ctx.unixTimestamp msg).chainId,
      tokenId := (updateLimiter limiter ctx.unixTimestamp msg).tokenId,
      totalLimit := msg.totalLimit, nonce }]
  nonceStored' : L'.Stores (Pda.operationNonce .updateBridgeLimit).address
    { nonceConfig with nonce }
  limiterStored' : L'.Stores
    (Pda.limiter msg.targetChainId msg.tokenId).address
    (updateLimiter limiter ctx.unixTimestamp msg)
  tokens : Ledger.SameTokens L L'
  frame : ∀ a, a ≠ (Pda.operationNonce .updateBridgeLimit).address →
    a ≠ (Pda.limiter msg.targetChainId msg.tokenId).address → L' a = L a

theorem incrementNonce_eq_ok {record record' : Nonces} :
    incrementNonce record = .ok record' ↔ ∃ nonce : U64,
      nonce.toNat = record.nonce.toNat + 1 ∧
        record' = { record with nonce } := by
  simp only [incrementNonce, bind_eq_ok, addOrPanic_eq_ok, pure_eq_ok]
  constructor
  · rintro ⟨nonce, hnonce, rfl⟩
    exact ⟨nonce, hnonce, rfl⟩
  · rintro ⟨nonce, hnonce, rfl⟩
    exact ⟨nonce, hnonce, rfl⟩

theorem limitEffect_of_ok {L L' : Ledger} {ctx : Context} {submitter : Pubkey}
    {numberOfSignatures : U8} {msg : UpdateLimiterMsg} {events : List Event}
    (hwf : WellFormed L)
    (h : addOrUpdateLimiterWithSignatures L ctx submitter numberOfSignatures msg =
      .ok (L', events)) :
    Nonempty (LimitEffect L ctx submitter numberOfSignatures msg L' events) := by
  simp only [addOrUpdateLimiterWithSignatures, bind_eq_ok, require_eq_ok,
    pure_eq_ok, exists_and_left, exists_const, Prod.exists, Prod.mk.injEq] at h
  obtain ⟨submitterAccount, hsubmitter, bridge, hbridge, chain, hchain, token,
    htoken, L₁, nonceConfig, hinitNonce, L₂, limiter, hinitLimiter, hisSubmitter,
    -, hsupported, -, hpaused, nonceConfig', hverify, L₃, hexitChain, L₄,
    hexitToken, L₅, hexitNonce, L₆, hexitLimiter, rfl, rfl⟩ := h
  have hchainKept := Ledger.Keeps.load (hwf (.supportedChain _)) hchain
  have htokenKept := Ledger.Keeps.load (hwf (.tokenConfig _ _)) htoken
  obtain ⟨hnonceProvided, hnonceSized, hframe₁⟩ :=
    Ledger.Keeps.initIfNeeded (hwf (.operationNonce .updateBridgeLimit)) hinitNonce
  have hwf₁ : Admits L₁ (.limiter msg.targetChainId msg.tokenId) :=
    admits_congr (by rw [hframe₁ _ (by simp)]) (hwf _)
  obtain ⟨hlimiterProvided₁, hlimiterSized, hframe₂⟩ :=
    Ledger.Keeps.initIfNeeded hwf₁ hinitLimiter
  have hchain₂ : L₂.Stores (Pda.supportedChain msg.targetChainId).address chain :=
    hchainKept.1.congr (by rw [hframe₂ _ (by simp), hframe₁ _ (by simp)])
  have heq₃ : L₃ = L₂ := Ledger.exit_fetched hchain₂.fetch hexitChain
  have htoken₂ : L₂.Stores
      (Pda.tokenConfig msg.targetChainId msg.tokenId).address token :=
    htokenKept.1.congr (by rw [hframe₂ _ (by simp), hframe₁ _ (by simp)])
  have heq₄ : L₄ = L₂ := by
    subst heq₃
    exact Ledger.exit_fetched htoken₂.fetch hexitToken
  subst heq₄
  have hverify' := hverify
  rw [verify_congr (L := L) fun key _ => by
    rw [hframe₂ _ (by simp), hframe₁ _ (by simp)]] at hverify'
  obtain ⟨⟨hone, -⟩, hincrement, approvals, happrovals, -⟩ :=
    verify_eq_ok.mp hverify'
  obtain ⟨nonce, hnonce, rfl⟩ := incrementNonce_eq_ok.mp hincrement
  have hsame : nonceConfig.nonce = msg.nonce := by
    obtain ⟨count, hcount⟩ := Nat.exists_eq_add_of_le hone
    rw [hcount, Nat.add_comm, List.range'_succ] at happrovals
    cases happrovals with
    | cons hfirst _ => exact of_decide_eq_true hfirst.nonce
  have hlimiterProvided : L.Provides
      (Pda.limiter msg.targetChainId msg.tokenId).address limiter := by
    have heq : L₁ (Pda.limiter msg.targetChainId msg.tokenId).address =
        L (Pda.limiter msg.targetChainId msg.tokenId).address :=
      hframe₁ _ (by simp)
    simpa only [Ledger.Provides, Ledger.Stores, Ledger.Vacant, heq]
      using hlimiterProvided₁
  exact ⟨{
    submitterAccount := submitterAccount
    bridgeConfig := bridge
    supportedChainConfig := chain
    tokenConfig := token
    nonceConfig := nonceConfig
    nonce := nonce
    limiter := limiter
    submitterStored := (Ledger.Keeps.load (hwf (.submitter _)) hsubmitter).1
    isSubmitter := hisSubmitter
    bridgeStored := (Ledger.Keeps.load (hwf (.bridgeConfig _)) hbridge).1
    chainStored := hchainKept.1
    supported := hsupported
    tokenStored := htokenKept.1
    notPaused := by simpa using hpaused
    nonceProvided := hnonceProvided
    limiterProvided := hlimiterProvided
    verified := hverify'
    sameNonce := hsame
    nextNonce := hnonce
    events_eq := rfl
    nonceStored' := ((hnonceSized.congr (hframe₂ _ (by simp))).exit
      hexitNonce).congr (Ledger.exit_of_ne hexitLimiter (by simp))
    limiterStored' := (hlimiterSized.congr
      (Ledger.exit_of_ne hexitNonce (by simp))).exit hexitLimiter
    tokens := (((Ledger.initIfNeeded_sameTokens hinitNonce).trans
      (Ledger.initIfNeeded_sameTokens hinitLimiter)).trans
      (Ledger.exit_sameTokens hexitNonce)).trans
      (Ledger.exit_sameTokens hexitLimiter)
    frame := fun a hnonceNe hlimiterNe => by
      rw [Ledger.exit_of_ne hexitLimiter hlimiterNe,
        Ledger.exit_of_ne hexitNonce hnonceNe, hframe₂ a hlimiterNe,
        hframe₁ a hnonceNe] }⟩

end SolBtcBridge.Effects
