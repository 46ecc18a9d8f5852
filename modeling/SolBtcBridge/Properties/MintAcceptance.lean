import SolBtcBridge.Properties.Acceptance

/-!
# When a mint is accepted

The handler makes some thirty checks, and so do the programs it calls.  In a
reachable state most of them cannot fail; a mint is accepted exactly if the
conditions of `MintAdmissible` hold, and then no addition overflows, no account
is missing and no write-back is refused.
-/

namespace SolBtcBridge.Properties

open SolBtcBridge.Foundation
open SolBtcBridge.Runtime
open SolBtcBridge.Program
open SolBtcBridge.Effects

/-- The state lets the message through, whoever signs it. -/
structure MintOpen (L : Ledger) (unixTimestamp : Int) (submitter : Pubkey)
    (msg : MintSbtcMessage) : Prop where
  submitter : ∃ r : Submitter, L.Stores (Pda.submitter submitter).address r ∧
    r.isSubmitter = true
  bridge : ¬ L.Vacant (Pda.bridgeConfig msg.toChainId).address
  otherChain : msg.sourceChainId ≠ msg.toChainId
  chain : ∃ r : SupportedChainConfig,
    L.Stores (Pda.supportedChain msg.sourceChainId).address r ∧
      r.supported = true
  token : ∃ r : TokenConfig,
    L.Stores (Pda.tokenConfig msg.sourceChainId msg.sourceTokenId).address r ∧
      r.withdrawPaused = false ∧ r.tokenMinAmount.toNat ≤ msg.amount.toNat
  limit : ∃ r : ChainTokenLimiter,
    L.Stores (Pda.limiter msg.sourceChainId msg.sourceTokenId).address r ∧
      totalVolume (clearExpired r (currentHour unixTimestamp)) +
        msg.amount.toNat ≤ r.totalLimit.toNat
  nonce : L.Vacant (Pda.mintNonce msg.sourceChainId msg.nonce).address
  room : L.supply (Pda.sbtcMint msg.toChainId).address + msg.amount.toNat <
    2 ^ 64

structure MintAdmissible (L : Ledger) (ctx : Context) (submitter : Pubkey)
    (numberOfSignatures : U8) (msg : MintSbtcMessage) : Prop extends
    MintOpen L ctx.unixTimestamp submitter msg where
  approved : Approved ctx.remainingAccounts L ctx.instructions
    numberOfSignatures msg .tokenTransfer NoncesDummy.mk
  user : .wallet msg.toAddress ∈ ctx.remainingAccounts
  userSbtcAta : getAssociatedTokenAddress msg.toAddress
    (Pda.sbtcMint msg.toChainId).address ∈ ctx.remainingAccounts
  sbtcMint : (Pda.sbtcMint msg.toChainId).address ∈ ctx.remainingAccounts

section

variable {host : Host} {L : Ledger} {ctx : Context} {submitter : Pubkey}
  {numberOfSignatures : U8} {msg : MintSbtcMessage}

private theorem mint_exits {bridge : BridgeConfig}
    {chain chain' : SupportedChainConfig}
    {token token' : TokenConfig} {limiter limiter' : ChainTokenLimiter}
    {nonce : NoncesDummy} {data : List U8}
    (hbridge : L.Stores (Pda.bridgeConfig msg.toChainId).address bridge)
    (hchain : L.Stores (Pda.supportedChain msg.sourceChainId).address chain)
    (htoken : L.Stores
      (Pda.tokenConfig msg.sourceChainId msg.sourceTokenId).address token)
    (hnonce : (L (Pda.mintNonce msg.sourceChainId msg.nonce).address).body =
      .bridge data)
    (hroom : AnchorAccount.len NoncesDummy ≤ data.length)
    (hlimiter : L.Stores
      (Pda.limiter msg.sourceChainId msg.sourceTokenId).address limiter) :
    ∃ L₁, L.exit (Pda.bridgeConfig msg.toChainId).address bridge = .ok L₁ ∧
    ∃ L₂, L₁.exit (Pda.supportedChain msg.sourceChainId).address chain' =
      .ok L₂ ∧
    ∃ L₃, L₂.exit (Pda.tokenConfig msg.sourceChainId msg.sourceTokenId).address
      token' = .ok L₃ ∧
    ∃ L₄, L₃.exit (Pda.mintNonce msg.sourceChainId msg.nonce).address nonce =
      .ok L₄ ∧
    ∃ L₅, L₄.exit (Pda.limiter msg.sourceChainId msg.sourceTokenId).address
      limiter' = .ok L₅ := by
  rcases hbridge.sized.exit_isOk bridge with ⟨L₁, h₁⟩
  have hchain₁ := hchain.sized.exit_of_ne h₁ (by simp)
  rcases hchain₁.exit_isOk chain' with ⟨L₂, h₂⟩
  have htoken₂ := (htoken.sized.exit_of_ne h₁ (by simp)).exit_of_ne h₂ (by simp)
  rcases htoken₂.exit_isOk token' with ⟨L₃, h₃⟩
  have hnonce₃ : (L₃ (Pda.mintNonce msg.sourceChainId msg.nonce).address).body =
      .bridge data := by
    rw [Ledger.exit_of_ne h₃ (by simp), Ledger.exit_of_ne h₂ (by simp),
      Ledger.exit_of_ne h₁ (by simp), hnonce]
  rcases Ledger.exit_isOk nonce hnonce₃ hroom with ⟨L₄, h₄⟩
  have hlimiter₄ := (((hlimiter.sized.exit_of_ne h₁ (by simp)).exit_of_ne h₂
    (by simp)).exit_of_ne h₃ (by simp)).exit_of_ne h₄ (by simp)
  rcases hlimiter₄.exit_isOk limiter' with ⟨L₅, h₅⟩
  exact ⟨L₁, h₁, L₂, h₂, L₃, h₃, L₄, h₄, L₅, h₅⟩

private theorem mint_tokens {owner : Pubkey} {mint : Address} {m : Mint}
    {amount : U64} (hmint : (L mint).body = .mint m)
    (hauthority : m.mintAuthority = mint) (hata : AtaReady L owner mint)
    (hshare : L.balance (getAssociatedTokenAddress owner mint) ≤ L.supply mint)
    (hne : getAssociatedTokenAddress owner mint ≠ mint)
    (hroom : L.supply mint + amount.toNat < 2 ^ 64) :
    ∃ L₁, createAssociatedTokenAccountIfnInit L (.wallet owner) mint
        (getAssociatedTokenAddress owner mint) = .ok L₁ ∧
      ∃ L₂, L₁.mintTo mint (getAssociatedTokenAddress owner mint) mint amount =
        .ok L₂ := by
  rcases hata.opens hmint with ⟨L₁, balance, hopen, hbody, hbalance⟩
  have hsame := (createAssociatedTokenAccountIfnInit_spec hopen).2 mint hne.symm
  have hsupply : m.supply.toNat = L.supply mint := by rw [Ledger.supply, hmint]
  refine ⟨L₁, hopen, Ledger.mintTo_isOk (m := m) (by rw [hsame, hmint]) hbody rfl
    hauthority ?_ ?_⟩
  · rw [hsupply]
    exact hroom
  · simp only [hbalance]
    omega

private theorem mint_opens {m : Mint} (hcon : Consistent host L)
    (h : MintAdmissible L ctx submitter numberOfSignatures msg)
    (hmint : (L (Pda.sbtcMint msg.toChainId).address).body = .mint m) :
    ∃ L₁, L.init NoncesDummy (Pda.mintNonce msg.sourceChainId msg.nonce).address
        (AnchorAccount.len Nonces) = .ok (L₁, NoncesDummy.mk) ∧
      verify ctx.remainingAccounts L₁ ctx.instructions numberOfSignatures msg
        .tokenTransfer NoncesDummy.mk = .ok NoncesDummy.mk ∧
    ∃ L₂, createAssociatedTokenAccountIfnInit L₁ (.wallet msg.toAddress)
        (Pda.sbtcMint msg.toChainId).address
        (getAssociatedTokenAddress msg.toAddress
          (Pda.sbtcMint msg.toChainId).address) = .ok L₂ ∧
    ∃ L₃, L₂.mintTo (Pda.sbtcMint msg.toChainId).address
        (getAssociatedTokenAddress msg.toAddress
          (Pda.sbtcMint msg.toChainId).address)
        (Pda.sbtcMint msg.toChainId).address msg.amount = .ok L₃ ∧
      (L₃ (Pda.mintNonce msg.sourceChainId msg.nonce).address).body =
        .bridge (List.replicate (AnchorAccount.len Nonces) 0) ∧
      ∀ p : Pda, p ≠ .sbtcMint msg.toChainId →
        p ≠ .mintNonce msg.sourceChainId msg.nonce →
          L₃ p.address = L p.address := by
  have hspace : AnchorAccount.len NoncesDummy ≤ AnchorAccount.len Nonces := by
    decide
  rcases hinit : L.init NoncesDummy
    (Pda.mintNonce msg.sourceChainId msg.nonce).address
    (AnchorAccount.len Nonces) with failure | ⟨L₁, nonce⟩
  · have hok := (Ledger.init_eq_ok hspace).mpr ⟨h.nonce, rfl, rfl⟩
    rw [hinit] at hok
    cases hok
  · have hkept : ∀ a, a ≠ (Pda.mintNonce msg.sourceChainId msg.nonce).address →
        L₁ a = L a := fun a ha => Ledger.init_of_ne hinit ha
    have hnonce : (L₁ (Pda.mintNonce msg.sourceChainId msg.nonce).address).body =
        .bridge (List.replicate (AnchorAccount.len Nonces) 0) := by
      rw [((Ledger.init_eq_ok hspace).mp hinit).2.2, Ledger.set_self]
    have hverify : verify ctx.remainingAccounts L₁ ctx.instructions
        numberOfSignatures msg .tokenTransfer nonce = .ok NoncesDummy.mk := by
      rw [verify_congr (L := L) fun key _ => by rw [hkept _ (by simp)]]
      exact (verify_eq_ok_iff_approved (by decide)).mpr ⟨rfl, h.approved⟩
    have hsupply : L₁.supply (Pda.sbtcMint msg.toChainId).address =
        L.supply (Pda.sbtcMint msg.toChainId).address :=
      Ledger.supply_congr (by rw [hkept _ (by simp)])
    have hshare := hcon.ata_le msg.toAddress (Pda.sbtcMint msg.toChainId).address
    have hbalance : L₁.balance (getAssociatedTokenAddress msg.toAddress
        (Pda.sbtcMint msg.toChainId).address) =
        L.balance (getAssociatedTokenAddress msg.toAddress
          (Pda.sbtcMint msg.toChainId).address) :=
      Ledger.balance_congr (by rw [hkept _ (by simp)])
    rw [← hsupply, ← hbalance] at hshare
    have hata := hcon.ataReady msg.toAddress (Pda.sbtcMint msg.toChainId).address
    rcases mint_tokens (by rw [hkept _ (by simp), hmint])
      (hcon.orderly.mint hmint).2 (hata.congr (hkept _ (by simp))) hshare
      (by simp) (by rw [hsupply]; exact h.room) with ⟨L₂, hopen, L₃, hmintTo⟩
    have hkept₃ : ∀ p : Pda, p ≠ .sbtcMint msg.toChainId →
        L₃ p.address = L₁ p.address := by
      intro p hp
      rw [(Ledger.mintTo_spec hmintTo).2.2.2.2 _ (by simpa using hp) (by simp),
        (createAssociatedTokenAccountIfnInit_spec hopen).2 _ (by simp)]
    refine ⟨L₁, rfl, hverify, L₂, hopen, L₃, hmintTo, ?_, ?_⟩
    · rw [hkept₃ _ (by simp), hnonce]
    · intro p hp hne
      rw [hkept₃ p hp, hkept _ (by simpa using hne)]

theorem mint_isOk_of_admissible (hcon : Consistent host L)
    (h : MintAdmissible L ctx submitter numberOfSignatures msg) :
    ∃ out, mintSbtcWithSignatures L ctx submitter numberOfSignatures msg =
      .ok out := by
  rcases h.submitter with ⟨submitterAccount, hsubmitter, hflag⟩
  rcases hcon.bridge h.bridge with ⟨admin, fee, m, hbridge, hmint, -⟩
  rcases h.chain with ⟨chain, hchain, hsupported⟩
  rcases h.token with ⟨token, htoken, hpaused, hminimum⟩
  rcases h.limit with ⟨limiter, hlimiter, hlimit⟩
  have hchainInit := (Ledger.Keeps.of_stores
    (hcon.wellFormed (.supportedChain _)) hchain).1
  have htokenInit := (Ledger.Keeps.of_stores
    (hcon.wellFormed (.tokenConfig _ _)) htoken).1
  rcases mint_opens hcon h hmint with ⟨L₁, hinit, hverify, L₂, hopen, L₃, hmintTo,
    hnonce, hkept⟩
  rcases addOrPanic_of_le msg.amount (hcon.chain_room hchain) with
    ⟨chainTotal, hchainTotal⟩
  rcases addOrPanic_of_le msg.amount (hcon.token_room htoken) with
    ⟨tokenTotal, htokenTotal⟩
  have htransfer := checkTransfer_eq_ok.mpr ⟨hlimit, rfl, rfl⟩
  have haccounts := mintGetAccounts_eq_ok.mpr
    ⟨h.user, h.userSbtcAta, h.sbtcMint, rfl⟩
  rcases mint_exits
    (hbridge.congr (hkept _ (by simp) (by simp)))
    (hchain.congr (hkept _ (by simp) (by simp)))
    (htoken.congr (hkept _ (by simp) (by simp))) hnonce (by decide)
    (hlimiter.congr (hkept _ (by simp) (by simp))) with
    ⟨L₄, h₄, L₅, h₅, L₆, h₆, L₇, h₇, L₈, h₈⟩
  simp only [mintSbtcWithSignatures, bind_eq_ok, require_eq_ok, pure_eq_ok]
  exact ⟨_, submitterAccount, hsubmitter.load, _, hbridge.load, chain,
    hchain.load, token, htoken.load, limiter, hlimiter.load, (L₁, _), hinit, (),
    hflag, (), rfl, (), Bool.false_ne_true, (), h.otherChain, (), hchainInit, (),
    hsupported, (), htokenInit, (), by simp [hpaused], (), hminimum, _, hverify,
    _, haccounts, L₂, hopen, L₃, hmintTo, chainTotal, hchainTotal, tokenTotal,
    htokenTotal, _, htransfer, L₄, h₄, L₅, h₅, L₆, h₆, L₇, h₇, L₈, h₈, rfl⟩

/-! ## Nothing less will do -/

private theorem mint_listed {out : Ledger × List Event}
    (h : mintSbtcWithSignatures L ctx submitter numberOfSignatures msg =
      .ok out) :
    .wallet msg.toAddress ∈ ctx.remainingAccounts ∧
      getAssociatedTokenAddress msg.toAddress
        (Pda.sbtcMint msg.toChainId).address ∈ ctx.remainingAccounts ∧
      (Pda.sbtcMint msg.toChainId).address ∈ ctx.remainingAccounts := by
  simp only [mintSbtcWithSignatures, bind_eq_ok, require_eq_ok] at h
  obtain ⟨_, -, _, -, _, -, _, -, _, -, _, -, -, -, -, -, -, -, -, -, -, -, -, -,
    -, -, -, -, -, -, _, -, _, haccounts, -⟩ := h
  rcases mintGetAccounts_eq_ok.mp haccounts with ⟨huser, hata, hmint, -⟩
  exact ⟨huser, hata, hmint⟩

theorem admissible_of_mint_ok (hwf : WellFormed L) {L' : Ledger}
    {events : List Event}
    (h : mintSbtcWithSignatures L ctx submitter numberOfSignatures msg =
      .ok (L', events)) :
    MintAdmissible L ctx submitter numberOfSignatures msg := by
  rcases mint_listed h with ⟨huser, hata, hmint⟩
  obtain ⟨effect⟩ := mintEffect_of_ok hwf h
  exact
    { submitter := ⟨_, effect.submitterStored, effect.isSubmitter⟩
      bridge := effect.bridgeStored.not_vacant
      otherChain := effect.otherChain
      chain := ⟨_, effect.chainStored, effect.supported⟩
      token := ⟨_, effect.tokenStored, effect.notPaused, effect.minimum⟩
      limit := ⟨_, effect.limiterStored,
        (checkTransfer_eq_ok.mp effect.transfer).1⟩
      nonce := effect.nonceVacant
      approved :=
        ((verify_eq_ok_iff_approved (by decide)).mp effect.verified).2
      user := huser
      userSbtcAta := hata
      sbtcMint := hmint
      room := by
        rw [← effect.supply]
        exact Ledger.supply_lt _ _ }

end

end SolBtcBridge.Properties
