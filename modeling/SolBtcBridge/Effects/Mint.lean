import SolBtcBridge.Effects.Accounts
import SolBtcBridge.Effects.Records

/-!
# What a successful mint does
-/

namespace SolBtcBridge.Effects

open SolBtcBridge.Foundation
open SolBtcBridge.Runtime
open SolBtcBridge.Program

structure MintEffect (L : Ledger) (ctx : Context) (submitter : Pubkey)
    (numberOfSignatures : U8) (msg : MintSbtcMessage) (L' : Ledger)
    (events : List Event) where
  submitterAccount : Submitter
  bridgeConfig : BridgeConfig
  supportedChainConfig : SupportedChainConfig
  tokenConfig : TokenConfig
  limiter : ChainTokenLimiter
  limiter' : ChainTokenLimiter
  chainMintTotal : U128
  tokenMintTotal : U128
  limitEvent : LimitEvent
  submitterStored : L.Stores (Pda.submitter submitter).address submitterAccount
  isSubmitter : submitterAccount.isSubmitter = true
  bridgeStored : L.Stores (Pda.bridgeConfig msg.toChainId).address bridgeConfig
  bridgeOpen : bridgeConfig.withdrawPaused = false
  otherChain : msg.sourceChainId ≠ msg.toChainId
  chainStored : L.Stores (Pda.supportedChain msg.sourceChainId).address
    supportedChainConfig
  supported : supportedChainConfig.supported = true
  tokenStored : L.Stores
    (Pda.tokenConfig msg.sourceChainId msg.sourceTokenId).address tokenConfig
  notPaused : tokenConfig.withdrawPaused = false
  minimum : tokenConfig.tokenMinAmount.toNat ≤ msg.amount.toNat
  limiterStored : L.Stores
    (Pda.limiter msg.sourceChainId msg.sourceTokenId).address limiter
  nonceVacant : L.Vacant (Pda.mintNonce msg.sourceChainId msg.nonce).address
  verified : verify ctx.remainingAccounts L ctx.instructions numberOfSignatures
    msg .tokenTransfer (⟨⟩ : NoncesDummy) = .ok ⟨⟩
  transfer : checkTransfer limiter ctx.unixTimestamp msg.amount =
    .ok (limiter', limitEvent)
  chainTotal : chainMintTotal.toNat =
    supportedChainConfig.mintTotal.toNat + msg.amount.toNat
  tokenTotal : tokenMintTotal.toNat =
    tokenConfig.mintTotal.toNat + msg.amount.toNat
  events_eq : events = [.limit limitEvent, .mintSbtc
    { messageType := msg.messageType, version := msg.version,
      nonce := msg.nonce, sourceChainId := msg.sourceChainId,
      sourceTokenId := msg.sourceTokenId, fromAddress := msg.fromAddress,
      toChainId := msg.toChainId, toAddress := msg.toAddress,
      amount := msg.amount, chainMintTotal, tokenMintTotal }]
  bridgeStored' : L'.Stores (Pda.bridgeConfig msg.toChainId).address bridgeConfig
  chainStored' : L'.Stores (Pda.supportedChain msg.sourceChainId).address
    { supportedChainConfig with mintTotal := chainMintTotal }
  tokenStored' : L'.Stores
    (Pda.tokenConfig msg.sourceChainId msg.sourceTokenId).address
    { tokenConfig with mintTotal := tokenMintTotal }
  limiterStored' : L'.Stores
    (Pda.limiter msg.sourceChainId msg.sourceTokenId).address limiter'
  nonceTaken : ∃ data,
    (L' (Pda.mintNonce msg.sourceChainId msg.nonce).address).body = .bridge data
  isMint : ∃ m, (L (Pda.sbtcMint msg.toChainId).address).body = .mint m
  isMint' : ∃ m, (L' (Pda.sbtcMint msg.toChainId).address).body = .mint m
  supply : L'.supply (Pda.sbtcMint msg.toChainId).address =
    L.supply (Pda.sbtcMint msg.toChainId).address + msg.amount.toNat
  balance : L'.balance (getAssociatedTokenAddress msg.toAddress
      (Pda.sbtcMint msg.toChainId).address) =
    L.balance (getAssociatedTokenAddress msg.toAddress
      (Pda.sbtcMint msg.toChainId).address) + msg.amount.toNat
  otherSupply : ∀ b, b ≠ (Pda.sbtcMint msg.toChainId).address →
    L'.supply b = L.supply b
  otherBalance : ∀ a, a ≠ getAssociatedTokenAddress msg.toAddress
    (Pda.sbtcMint msg.toChainId).address → L'.balance a = L.balance a
  frame : ∀ p : Pda, p ∉ [.bridgeConfig msg.toChainId,
      .supportedChain msg.sourceChainId,
      .tokenConfig msg.sourceChainId msg.sourceTokenId,
      .mintNonce msg.sourceChainId msg.nonce,
      .limiter msg.sourceChainId msg.sourceTokenId,
      .sbtcMint msg.toChainId] → L' p.address = L p.address

theorem toNat_setWidth_amount (amount : U64) :
    (amount.setWidth 128).toNat = amount.toNat := by
  have hlt := amount.isLt
  simp only [BitVec.toNat_setWidth]
  omega

/-- The five write-backs at the end of a mint. -/
structure MintWrites (L : Ledger) (msg : MintSbtcMessage) (bridge : BridgeConfig)
    (chain : SupportedChainConfig) (token : TokenConfig)
    (limiter : ChainTokenLimiter) (L' : Ledger) : Prop where
  bridge : L'.Stores (Pda.bridgeConfig msg.toChainId).address bridge
  chain : L'.Stores (Pda.supportedChain msg.sourceChainId).address chain
  token : L'.Stores
    (Pda.tokenConfig msg.sourceChainId msg.sourceTokenId).address token
  limiter : L'.Stores
    (Pda.limiter msg.sourceChainId msg.sourceTokenId).address limiter
  nonce : ∃ data,
    (L' (Pda.mintNonce msg.sourceChainId msg.nonce).address).body = .bridge data
  tokens : Ledger.SameTokens L L'
  frame : ∀ p : Pda, p ∉ [.bridgeConfig msg.toChainId,
      .supportedChain msg.sourceChainId,
      .tokenConfig msg.sourceChainId msg.sourceTokenId,
      .mintNonce msg.sourceChainId msg.nonce,
      .limiter msg.sourceChainId msg.sourceTokenId] → L' p.address = L p.address

private theorem mintWrites_of_exits {L L₁ L₂ L₃ L₄ L' : Ledger}
    {msg : MintSbtcMessage}
    {bridge : BridgeConfig} {chain : SupportedChainConfig} {token : TokenConfig}
    {nonce : NoncesDummy} {limiter : ChainTokenLimiter}
    (hbridge : L.Sized BridgeConfig (Pda.bridgeConfig msg.toChainId).address)
    (hchain : L.Sized SupportedChainConfig
      (Pda.supportedChain msg.sourceChainId).address)
    (htoken : L.Sized TokenConfig
      (Pda.tokenConfig msg.sourceChainId msg.sourceTokenId).address)
    (hlimiter : L.Sized ChainTokenLimiter
      (Pda.limiter msg.sourceChainId msg.sourceTokenId).address)
    (h₁ : L.exit (Pda.bridgeConfig msg.toChainId).address bridge = .ok L₁)
    (h₂ : L₁.exit (Pda.supportedChain msg.sourceChainId).address chain = .ok L₂)
    (h₃ : L₂.exit (Pda.tokenConfig msg.sourceChainId msg.sourceTokenId).address
      token = .ok L₃)
    (h₄ : L₃.exit (Pda.mintNonce msg.sourceChainId msg.nonce).address nonce =
      .ok L₄)
    (h₅ : L₄.exit (Pda.limiter msg.sourceChainId msg.sourceTokenId).address
      limiter = .ok L') :
    MintWrites L msg bridge chain token limiter L' where
  bridge := ((((hbridge.exit h₁).exit_of_ne h₂ (by simp)).exit_of_ne h₃
    (by simp)).exit_of_ne h₄ (by simp)).exit_of_ne h₅ (by simp)
  chain := ((((hchain.exit_of_ne h₁ (by simp)).exit h₂).exit_of_ne h₃
    (by simp)).exit_of_ne h₄ (by simp)).exit_of_ne h₅ (by simp)
  token := ((((htoken.exit_of_ne h₁ (by simp)).exit_of_ne h₂ (by simp)).exit
    h₃).exit_of_ne h₄ (by simp)).exit_of_ne h₅ (by simp)
  limiter := ((((hlimiter.exit_of_ne h₁ (by simp)).exit_of_ne h₂
    (by simp)).exit_of_ne h₃ (by simp)).exit_of_ne h₄ (by simp)).exit h₅
  nonce := by
    rcases Ledger.exit_eq_ok.mp h₄ with ⟨data, -, -, rfl⟩
    rw [Ledger.exit_of_ne h₅ (by simp), Ledger.setBody_self]
    exact ⟨_, rfl⟩
  tokens := ((((Ledger.exit_sameTokens h₁).trans (Ledger.exit_sameTokens h₂)).trans
    (Ledger.exit_sameTokens h₃)).trans (Ledger.exit_sameTokens h₄)).trans
    (Ledger.exit_sameTokens h₅)
  frame := by
    intro p hp
    simp only [List.mem_cons, List.not_mem_nil, or_false, not_or] at hp
    rcases hp with ⟨hbridge, hchain, htoken, hnonce, hlimiter⟩
    rw [Ledger.exit_of_ne h₅ (by simpa using hlimiter),
      Ledger.exit_of_ne h₄ (by simpa using hnonce),
      Ledger.exit_of_ne h₃ (by simpa using htoken),
      Ledger.exit_of_ne h₂ (by simpa using hchain),
      Ledger.exit_of_ne h₁ (by simpa using hbridge)]

theorem mintEffect_of_ok {L L' : Ledger} {ctx : Context} {submitter : Pubkey}
    {numberOfSignatures : U8} {msg : MintSbtcMessage} {events : List Event}
    (hwf : WellFormed L)
    (h : mintSbtcWithSignatures L ctx submitter numberOfSignatures msg =
      .ok (L', events)) :
    Nonempty (MintEffect L ctx submitter numberOfSignatures msg L' events) := by
  simp only [mintSbtcWithSignatures, bind_eq_ok, require_eq_ok, pure_eq_ok,
    addOrPanic_eq_ok, exists_and_left, exists_const, Prod.exists,
    Prod.mk.injEq, toNat_setWidth_amount] at h
  obtain ⟨submitterAccount, hsubmitter, bridge, hbridge, chain, hchain, token,
    htoken, limiter, hlimiter, L₁, nonce, hinit, hisSubmitter, -, hopen, hother,
    -, hsupported, -, hpaused, hminimum, nonce', hverify, user, ata, mint,
    haccounts, L₂, hata, L₃, hmintTo, chainTotal, hchainTotal, tokenTotal,
    htokenTotal, limiter', limitEvent, htransfer, L₄, hexitBridge, L₅,
    hexitChain, L₆, hexitToken, L₇, hexitNonce, L₈, hexitLimiter, rfl, rfl⟩ := h
  obtain ⟨rfl, rfl, rfl⟩ := mintGetAccounts_ok haccounts
  have hnonceVacant := ((Ledger.init_eq_ok (by decide)).mp hinit).1
  have hata' := createAssociatedTokenAccountIfnInit_spec hata
  have hmintSpec := Ledger.mintTo_spec hmintTo
  have hbefore : ∀ p : Pda, p ≠ .mintNonce msg.sourceChainId msg.nonce →
      p ≠ .sbtcMint msg.toChainId → L₃ p.address = L p.address := by
    intro p hnonce hmint
    rw [hmintSpec.2.2.2.2 _ (by simpa using hmint) (by simp),
      hata'.2 _ (by simp), Ledger.init_of_ne hinit (by simpa using hnonce)]
  have htokens : Ledger.SameTokens L L₂ :=
    (Ledger.init_sameTokens (by decide) hinit).trans hata'.1
  have hbridgeKept := Ledger.Keeps.load (hwf (.bridgeConfig _)) hbridge
  have hchainKept := Ledger.Keeps.load (hwf (.supportedChain _)) hchain
  have htokenKept := Ledger.Keeps.load (hwf (.tokenConfig _ _)) htoken
  have hlimiterKept := Ledger.Keeps.load (hwf (.limiter _ _)) hlimiter
  have hsubmitterKept := Ledger.Keeps.load (hwf (.submitter _)) hsubmitter
  have hwrites := mintWrites_of_exits
    (hbridgeKept.1.sized.congr (hbefore _ (by simp) (by simp)))
    (hchainKept.1.sized.congr (hbefore _ (by simp) (by simp)))
    (htokenKept.1.sized.congr (hbefore _ (by simp) (by simp)))
    (hlimiterKept.1.sized.congr (hbefore _ (by simp) (by simp)))
    hexitBridge hexitChain hexitToken hexitNonce hexitLimiter
  have hverify' := hverify
  rw [verify_congr (L := L) fun key _ => by
    rw [Ledger.init_of_ne hinit (by simp)]] at hverify'
  obtain ⟨hmintBefore, hmintAfter, -⟩ := Ledger.mintTo_bodies hmintTo
  have hmint₂ : L₂ (Pda.sbtcMint msg.toChainId).address =
      L (Pda.sbtcMint msg.toChainId).address := by
    rw [hata'.2 _ (by simp), Ledger.init_of_ne hinit (by simp)]
  exact ⟨{
    submitterAccount := submitterAccount
    bridgeConfig := bridge
    supportedChainConfig := chain
    tokenConfig := token
    limiter := limiter
    limiter' := limiter'
    chainMintTotal := chainTotal
    tokenMintTotal := tokenTotal
    limitEvent := limitEvent
    submitterStored := hsubmitterKept.1
    isSubmitter := hisSubmitter
    bridgeStored := hbridgeKept.1
    bridgeOpen := by simpa using hopen
    otherChain := hother
    chainStored := hchainKept.1
    supported := hsupported
    tokenStored := htokenKept.1
    notPaused := by simpa using hpaused
    minimum := hminimum
    limiterStored := hlimiterKept.1
    nonceVacant := hnonceVacant
    verified := hverify'
    transfer := htransfer
    chainTotal := hchainTotal
    tokenTotal := htokenTotal
    events_eq := rfl
    bridgeStored' := hwrites.bridge
    chainStored' := hwrites.chain
    tokenStored' := hwrites.token
    limiterStored' := hwrites.limiter
    nonceTaken := hwrites.nonce
    isMint := by rwa [← hmint₂]
    isMint' := by rwa [hwrites.frame _ (by simp)]
    supply := by rw [hwrites.tokens.supply, hmintSpec.1, htokens.supply]
    balance := by rw [hwrites.tokens.balance, hmintSpec.2.1, htokens.balance]
    otherSupply := fun b hb => by
      rw [hwrites.tokens.supply, hmintSpec.2.2.1 b hb, htokens.supply]
    otherBalance := fun a ha => by
      rw [hwrites.tokens.balance, hmintSpec.2.2.2.1 a ha, htokens.balance]
    frame := fun p hp => by
      simp only [List.mem_cons, List.not_mem_nil, or_false, not_or] at hp
      rcases hp with ⟨h₁, h₂, h₃, h₄, h₅, h₆⟩
      rw [hwrites.frame p (by simp [h₁, h₂, h₃, h₄, h₅]), hbefore p h₄ h₆] }⟩

end SolBtcBridge.Effects
