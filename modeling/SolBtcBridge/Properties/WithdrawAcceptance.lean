import SolBtcBridge.Properties.Acceptance
import SolBtcBridge.Properties.WithdrawArithmetic

/-!
# When a withdrawal is accepted

The user needs the amount on the associated account, the token a mint total
that covers it, and the transaction the accounts of the lookup.  The chain's
total, the fee arithmetic, the credit of the fee recipient and the supply take
care of themselves.
-/

namespace SolBtcBridge.Properties

open SolBtcBridge.Foundation
open SolBtcBridge.Runtime
open SolBtcBridge.Program
open SolBtcBridge.Effects

/-- The state lets the user withdraw and pay a recipient. -/
structure WithdrawOpen (L : Ledger) (user : Pubkey) (msg : WithdrawBtcMessage)
    (feeRecipient : Pubkey) : Prop where
  fromUser : msg.fromAddress = user
  otherChain : msg.chainId ≠ msg.toChainId
  chain : ∃ r : SupportedChainConfig,
    L.Stores (Pda.supportedChain msg.toChainId).address r ∧ r.supported = true
  token : ∃ r : TokenConfig,
    L.Stores (Pda.tokenConfig msg.toChainId msg.toTokenId).address r ∧
      r.withdrawPaused = false ∧ r.tokenMinAmount.toNat ≤ msg.amount.toNat ∧
      msg.amount.toNat ≤ r.mintTotal.toNat
  toAddress : msg.toAddress.length ≤ Constants.maxStringLength
  nonce : counter .tokenTransfer L + 1 < 2 ^ 64
  bridge : ∃ r : BridgeConfig,
    L.Stores (Pda.bridgeConfig msg.chainId).address r ∧
      r.feeRecipient = feeRecipient
  notRecipient : msg.fromAddress ≠ feeRecipient
  funds : ∃ account, (L (Effects.userSbtcAta msg)).body = .token account ∧
    msg.amount.toNat ≤ account.amount.toNat

structure WithdrawAdmissible (L : Ledger) (ctx : Context) (user : Pubkey)
    (msg : WithdrawBtcMessage) (feeRecipient : Pubkey) : Prop extends
    WithdrawOpen L user msg feeRecipient where
  userSbtcAta : userSbtcAta msg ∈ ctx.remainingAccounts
  recipient : .wallet feeRecipient ∈ ctx.remainingAccounts
  recipientSbtcAta : getAssociatedTokenAddress feeRecipient
    (Pda.sbtcMint msg.chainId).address ∈ ctx.remainingAccounts
  sbtcMint : (Pda.sbtcMint msg.chainId).address ∈ ctx.remainingAccounts

section

variable {L : Ledger} {user recipient : Pubkey} {mint : Address} {m : Mint}
  {held amount fee net : U64}

private theorem withdraw_tokens (hmint : (L mint).body = .mint m)
    (hne : user ≠ recipient)
    (hmintNe : ∀ owner, getAssociatedTokenAddress owner mint ≠ mint)
    (huser : (L (getAssociatedTokenAddress user mint)).body =
      .token ⟨mint, .wallet user, held⟩)
    (hata : AtaReady L recipient mint)
    (hsplit : amount.toNat = net.toNat + fee.toNat)
    (hfunds : amount.toNat ≤ held.toNat)
    (hshares : held.toNat +
      L.balance (getAssociatedTokenAddress recipient mint) ≤ L.supply mint) :
    ∃ L₁, createAssociatedTokenAccountIfnInit L (.wallet recipient) mint
        (getAssociatedTokenAddress recipient mint) = .ok L₁ ∧
    ∃ L₂, L₁.transfer (getAssociatedTokenAddress user mint)
        (getAssociatedTokenAddress recipient mint) (.wallet user) fee =
          .ok L₂ ∧
    ∃ L₃, L₂.burn mint (getAssociatedTokenAddress user mint) (.wallet user)
        net = .ok L₃ := by
  have hatas : getAssociatedTokenAddress user mint ≠
      getAssociatedTokenAddress recipient mint := by
    simpa [getAssociatedTokenAddress] using hne
  have hsupply : m.supply.toNat = L.supply mint := by rw [Ledger.supply, hmint]
  have hlt := m.supply.isLt
  rcases hata.opens hmint with ⟨L₁, balance, hopen, hbody, hbalance⟩
  have hkept := (createAssociatedTokenAccountIfnInit_spec hopen).2
  have huser₁ : (L₁ (getAssociatedTokenAddress user mint)).body =
      .token ⟨mint, .wallet user, held⟩ := by rw [hkept _ hatas, huser]
  have hfee : fee.toNat ≤ held.toNat := by omega
  rcases Ledger.transfer_isOk huser₁ hbody hatas rfl rfl hfee
    (by simp only [hbalance]; omega) with
    ⟨debited, credited, hdebited, -, htransfer⟩
  simp only at hdebited
  have hnet : net.toNat ≤
      (TokenAccount.mk mint (.wallet user) debited).amount.toNat := by
    simp only
    omega
  refine ⟨L₁, hopen, _, htransfer, ?_⟩
  refine Ledger.burn_isOk (m := m) ?_ ?_ rfl rfl hnet (by omega)
  · rw [Ledger.setBody_of_ne _ _ (hmintNe recipient).symm,
      Ledger.setBody_of_ne _ _ (hmintNe user).symm,
      hkept _ (hmintNe recipient).symm, hmint]
  · rw [Ledger.setBody_of_ne _ _ hatas, Ledger.setBody_self]

end

section

variable {host : Host} {L : Ledger} {ctx : Context} {user : Pubkey}
  {msg : WithdrawBtcMessage} {recipient : Pubkey}

private theorem withdraw_opens {L₁ : Ledger} {m : Mint} {fee net : U64}
    (hcon : Consistent host L) (h : WithdrawOpen L user msg recipient)
    (hmint : (L (Pda.sbtcMint msg.chainId).address).body = .mint m)
    (hkept : ∀ a, a ≠ (Pda.operationNonce .tokenTransfer).address → L₁ a = L a)
    (hsplit : msg.amount.toNat = net.toNat + fee.toNat) :
    ∃ L₂, createAssociatedTokenAccountIfnInit L₁ (.wallet recipient)
        (Pda.sbtcMint msg.chainId).address (getAssociatedTokenAddress recipient
          (Pda.sbtcMint msg.chainId).address) = .ok L₂ ∧
    ∃ L₃, L₂.transfer (userSbtcAta msg) (getAssociatedTokenAddress recipient
        (Pda.sbtcMint msg.chainId).address) (.wallet user) fee = .ok L₃ ∧
    ∃ L₄, L₃.burn (Pda.sbtcMint msg.chainId).address (userSbtcAta msg)
        (.wallet user) net = .ok L₄ ∧
      L₄ (Pda.operationNonce .tokenTransfer).address =
        L₁ (Pda.operationNonce .tokenTransfer).address := by
  obtain rfl := h.fromUser
  rcases h.funds with ⟨account, haccount, hfunds⟩
  rcases hcon.ataReady msg.fromAddress (Pda.sbtcMint msg.chainId).address with
    hvacant | ⟨held, hheld⟩
  · rw [userSbtcAta, hvacant] at haccount
    cases haccount
  · have haccountEq := hheld.symm.trans haccount
    cases haccountEq
    have hshares := hcon.atas_le (Pda.sbtcMint msg.chainId).address h.notRecipient
    have hbalance : L₁.balance (getAssociatedTokenAddress recipient
        (Pda.sbtcMint msg.chainId).address) =
        L.balance (getAssociatedTokenAddress recipient
          (Pda.sbtcMint msg.chainId).address) :=
      Ledger.balance_congr (by rw [hkept _ (by simp)])
    have hsupply : L₁.supply (Pda.sbtcMint msg.chainId).address =
        L.supply (Pda.sbtcMint msg.chainId).address :=
      Ledger.supply_congr (by rw [hkept _ (by simp)])
    rw [Ledger.balance, hheld, ← hbalance, ← hsupply] at hshares
    rcases withdraw_tokens (by rw [hkept _ (by simp), hmint]) h.notRecipient
      (by simp)
      (by rw [hkept _ (by simp), hheld])
      ((hcon.ataReady recipient _).congr (hkept _ (by simp))) hsplit hfunds hshares
      with ⟨L₂, hopen, L₃, htransfer, L₄, hburn⟩
    refine ⟨L₂, hopen, L₃, htransfer, L₄, hburn, ?_⟩
    rw [(Ledger.burn_spec hburn).2.2.2.2 _ (by simp) (by simp),
      (Ledger.transfer_spec htransfer).2.2.2.2 _ (by simp) (by simp),
      (createAssociatedTokenAccountIfnInit_spec hopen).2 _ (by simp)]

theorem withdraw_isOk_of_admissible (hcon : Consistent host L)
    (h : WithdrawAdmissible L ctx user msg recipient) :
    ∃ out, withdrawBtc L ctx user msg = .ok out := by
  rcases h.chain with ⟨chain, hchain, hsupported⟩
  rcases h.token with ⟨token, htoken, hpaused, hminimum, hcovers⟩
  rcases h.bridge with ⟨bridge, hbridge, rfl⟩
  rcases hcon.bridge hbridge.not_vacant with ⟨admin, fee, m, hcreated, hmint, -⟩
  obtain rfl := hbridge.unique hcreated
  have hchainInit := (Ledger.Keeps.of_stores
    (hcon.wellFormed (.supportedChain _)) hchain).1
  have htokenInit := (Ledger.Keeps.of_stores
    (hcon.wellFormed (.tokenConfig _ _)) htoken).1
  have hcoversChain := hcovers.trans (hcon.token_le_chain hchain htoken)
  rcases Ledger.Keeps.initIfNeeded_isOk
    (hcon.wellFormed (.operationNonce .tokenTransfer)) with
    ⟨L₁, nonceConfig, hinit, hprovides, hsized, hkept⟩
  have hconstraints : WithdrawConstraints L user msg _ chain token nonceConfig :=
    { bridge := hbridge.load
      chain := hchain.load
      token := htoken.load
      nonce := ⟨L₁, hinit⟩
      fromUser := h.fromUser
      bridgeInitialized := rfl
      bridgeOpen := rfl
      otherChain := h.otherChain
      chainInitialized := hchainInit
      supported := hsupported
      chainCovers := hcoversChain
      tokenInitialized := htokenInit
      notPaused := hpaused
      minimum := hminimum
      tokenCovers := hcovers }
  have harithmetic := exactArithmetic_of_constraints hcon.wellFormed hconstraints
  rcases harithmetic.split with ⟨net, hnet, hwithdrawn⟩
  rcases harithmetic.chainTotal with ⟨chainTotal, hchainTotal⟩
  rcases harithmetic.tokenTotal with ⟨tokenTotal, htokenTotal⟩
  have hnonce : ∃ nonce, addOrPanic nonceConfig.nonce 1 = .ok nonce := by
    have hfits := h.nonce
    rw [counter_of_provides hprovides] at hfits
    exact ⟨_, addOrPanic_eq_ok.mpr (BitVec.toNat_add_of_lt hfits)⟩
  rcases hnonce with ⟨nonce, hnonce⟩
  have haccounts := withdrawGetAccounts_eq_ok.mpr
    ⟨h.userSbtcAta, h.recipient, h.notRecipient, h.recipientSbtcAta, h.sbtcMint,
      rfl⟩
  rcases withdraw_opens hcon h.toWithdrawOpen hmint hkept
    (subOrPanic_eq_ok.mp hnet) with
    ⟨L₂, hopen, L₃, htransfer, L₄, hburn, hsame⟩
  rcases (hsized.congr hsame).exit_isOk { nonceConfig with nonce } with ⟨L₅, hexit⟩
  simp only [withdrawBtc, bind_eq_ok, require_eq_ok, pure_eq_ok]
  exact ⟨_, _, hbridge.load, chain, hchain.load, token, htoken.load,
    (L₁, nonceConfig), hinit, (), h.fromUser, (), rfl, (), Bool.false_ne_true, (),
    h.otherChain, (), hchainInit, (), hsupported, (), hcoversChain, (),
    htokenInit, (), by simp [hpaused], (), hminimum, (), hcovers, (), h.toAddress,
    nonce, hnonce, _, haccounts, L₂, hopen, net, hnet, L₃, htransfer, L₄, hburn,
    _, hwithdrawn, chainTotal, hchainTotal, tokenTotal, htokenTotal, L₅, hexit,
    rfl⟩

/-! ## Nothing less will do -/

private theorem withdraw_lookup {out : Ledger × List Event}
    (h : withdrawBtc L ctx user msg = .ok out) :
    msg.toAddress.length ≤ Constants.maxStringLength ∧
    (∃ account, (L (userSbtcAta msg)).body = .token account) ∧
    ∃ r, L.load BridgeConfig (Pda.bridgeConfig msg.chainId).address = .ok r ∧
      userSbtcAta msg ∈ ctx.remainingAccounts ∧
      .wallet r.feeRecipient ∈ ctx.remainingAccounts ∧
      feeRecipientSbtcAta r msg ∈ ctx.remainingAccounts ∧
      (Pda.sbtcMint msg.chainId).address ∈ ctx.remainingAccounts := by
  simp only [withdrawBtc, bind_eq_ok, require_eq_ok] at h
  obtain ⟨r, hbridge, _, -, _, -, _, hinit, -, -, -, -, -, -, -, -, -, -, -, -, -,
    -, -, -, -, -, -, -, -, -, -, hlength, _, -, _, haccounts, L₂, hopen, _, -,
    _, htransfer, -⟩ := h
  rcases withdrawGetAccounts_eq_ok.mp haccounts with
    ⟨hata, hfee, hne, hfeeAta, hmint, rfl⟩
  refine ⟨hlength, ?_, r, hbridge, hata, hfee, hfeeAta, hmint⟩
  have hatas : userSbtcAta msg ≠ feeRecipientSbtcAta r msg := by
    simpa [userSbtcAta, feeRecipientSbtcAta, getAssociatedTokenAddress] using hne
  have hkept : L₂ (userSbtcAta msg) = L (userSbtcAta msg) := by
    rw [(createAssociatedTokenAccountIfnInit_spec hopen).2 _ hatas,
      Ledger.initIfNeeded_of_ne hinit (by simp [userSbtcAta])]
  rcases (Ledger.transfer_bodies htransfer).1 with ⟨account, haccount⟩
  exact ⟨account, by rw [← hkept]; exact haccount⟩

theorem admissible_of_withdraw_ok (hcon : Consistent host L) {L' : Ledger}
    {events : List Event} (h : withdrawBtc L ctx user msg = .ok (L', events)) :
    ∃ feeRecipient, WithdrawAdmissible L ctx user msg feeRecipient := by
  rcases withdraw_lookup h with
    ⟨hlength, ⟨account, haccount⟩, r, hload, hata, hfee, hfeeAta, hmint⟩
  obtain ⟨effect⟩ := withdrawEffect_of_ok hcon.wellFormed h
  have hbridge := effect.bridgeStored.load
  rw [hload] at hbridge
  obtain rfl := Except.ok.inj hbridge
  have htotal := effect.tokenTotal
  have hpaid := effect.userBalance
  rw [Ledger.balance, haccount] at hpaid
  refine ⟨effect.bridgeConfig.feeRecipient, ?_⟩
  exact
    { fromUser := effect.fromUser
      otherChain := effect.otherChain
      chain := ⟨_, effect.chainStored, effect.supported⟩
      token := ⟨_, effect.tokenStored, effect.notPaused, effect.minimum, by omega⟩
      toAddress := hlength
      nonce := by
        rw [counter_of_provides effect.nonceProvided, ← effect.nextNonce]
        exact effect.nonce.isLt
      bridge := ⟨_, effect.bridgeStored, rfl⟩
      notRecipient := effect.notRecipient
      funds := ⟨account, haccount, by simp only at hpaid; omega⟩
      userSbtcAta := hata
      recipient := hfee
      recipientSbtcAta := hfeeAta
      sbtcMint := hmint }

end

/-- In a reachable state a withdrawal succeeds exactly if it is admissible. -/
theorem withdraw_accepted_iff (host : Host) (inputs : List Input)
    (ctx : Context) (user : Pubkey) (msg : WithdrawBtcMessage) :
    (∃ out, withdrawBtc (execute host inputs).state ctx user msg = .ok out) ↔
      ∃ feeRecipient, WithdrawAdmissible (execute host inputs).state ctx user msg
        feeRecipient := by
  constructor
  · rintro ⟨⟨L', events⟩, h⟩
    exact admissible_of_withdraw_ok (execute_consistent host inputs) h
  · rintro ⟨feeRecipient, h⟩
    exact withdraw_isOk_of_admissible (execute_consistent host inputs) h

end SolBtcBridge.Properties
