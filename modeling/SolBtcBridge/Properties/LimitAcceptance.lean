import SolBtcBridge.Properties.Acceptance

/-!
# When a limiter update is accepted

The committee signs for the next value of one counter.  Besides the signatures
and that counter only the submitter, the bridge, the chain and the token are
looked at; the old limit and the volume it has seen play no part.
-/

namespace SolBtcBridge.Properties

open SolBtcBridge.Foundation
open SolBtcBridge.Runtime
open SolBtcBridge.Program
open SolBtcBridge.Effects

/-- The state lets the message through, whoever signs it. -/
structure LimitOpen (L : Ledger) (submitter : Pubkey) (msg : UpdateLimiterMsg) :
    Prop where
  submitter : ∃ r : Submitter, L.Stores (Pda.submitter submitter).address r ∧
    r.isSubmitter = true
  bridge : ¬ L.Vacant (Pda.bridgeConfig msg.chainId).address
  chain : ∃ r : SupportedChainConfig,
    L.Stores (Pda.supportedChain msg.targetChainId).address r ∧
      r.supported = true
  token : ∃ r : TokenConfig,
    L.Stores (Pda.tokenConfig msg.targetChainId msg.tokenId).address r ∧
      r.withdrawPaused = false
  nonce : counter .updateBridgeLimit L + 1 < 2 ^ 64

structure LimitAdmissible (L : Ledger) (ctx : Context) (submitter : Pubkey)
    (numberOfSignatures : U8) (msg : UpdateLimiterMsg) : Prop extends
    LimitOpen L submitter msg where
  /-- The nonce of the message is compared once for each signature. -/
  approved : ∃ r : Nonces,
    L.Provides (Pda.operationNonce .updateBridgeLimit).address r ∧
      Approved ctx.remainingAccounts L ctx.instructions numberOfSignatures msg
        .updateBridgeLimit r

private theorem provides_unique {T : Type} [AnchorAccount T] {L : Ledger}
    {a : Address} {s t : T} (hs : L.Provides a s) (ht : L.Provides a t) :
    s = t := by
  rcases hs with hs | ⟨hvacant, rfl⟩
  · rcases ht with ht | ⟨hvacant, -⟩
    · exact hs.unique ht
    · exact absurd hvacant hs.not_vacant
  · rcases ht with ht | ⟨-, rfl⟩
    · exact absurd hvacant ht.not_vacant
    · rfl

section

variable {L : Ledger} {ctx : Context} {submitter : Pubkey}
  {numberOfSignatures : U8} {msg : UpdateLimiterMsg}

theorem limit_isOk_of_admissible (hwf : WellFormed L)
    (h : LimitAdmissible L ctx submitter numberOfSignatures msg) :
    ∃ out, addOrUpdateLimiterWithSignatures L ctx submitter numberOfSignatures
      msg = .ok out := by
  rcases h.submitter with ⟨submitterAccount, hsubmitter, hflag⟩
  rcases h.chain with ⟨chain, hchain, hsupported⟩
  rcases h.token with ⟨token, htoken, hpaused⟩
  rcases h.approved with ⟨record, hrecord, happroved⟩
  rcases hwf (.bridgeConfig msg.chainId) with hvacant | ⟨bridge, hbridge, -⟩
  · exact absurd hvacant h.bridge
  have hchainInit := (Ledger.Keeps.of_stores (hwf (.supportedChain _)) hchain).1
  have htokenInit := (Ledger.Keeps.of_stores (hwf (.tokenConfig _ _)) htoken).1
  rcases Ledger.Keeps.initIfNeeded_isOk
    (hwf (.operationNonce .updateBridgeLimit)) with
    ⟨L₁, nonceConfig, hinitNonce, hprovides, hsizedNonce, hkept₁⟩
  obtain rfl := provides_unique hrecord hprovides
  have hlimiter₁ : Admits L₁ (.limiter msg.targetChainId msg.tokenId) :=
    admits_congr (by rw [hkept₁ _ (by simp)]) (hwf _)
  rcases Ledger.Keeps.initIfNeeded_isOk hlimiter₁ with
    ⟨L₂, limiter, hinitLimiter, -, hsizedLimiter, hkept₂⟩
  have hkept : ∀ a, a ≠ (Pda.operationNonce .updateBridgeLimit).address →
      a ≠ (Pda.limiter msg.targetChainId msg.tokenId).address → L₂ a = L a :=
    fun a hnonce hlimiter => by rw [hkept₂ a hlimiter, hkept₁ a hnonce]
  have hnonce : record.nonce.toNat + 1 < 2 ^ 64 := by
    rw [← counter_of_provides hrecord]
    exact h.nonce
  have hnext : incrementNonce record =
      .ok { record with nonce := record.nonce + 1 } :=
    incrementNonce_eq_ok.mpr ⟨_, BitVec.toNat_add_of_lt hnonce, rfl⟩
  have hverify : verify ctx.remainingAccounts L₂ ctx.instructions
      numberOfSignatures msg .updateBridgeLimit record =
        .ok { record with nonce := record.nonce + 1 } := by
    rw [verify_congr (L := L) fun key _ => by
      rw [hkept _ (by simp) (by simp)]]
    exact (verify_eq_ok_iff_approved (by decide)).mpr ⟨hnext, happroved⟩
  have hchain₂ := hchain.congr (hkept _ (by simp) (by simp))
  rcases hchain₂.sized.exit_isOk chain with ⟨L₃, h₃⟩
  have htoken₃ := (htoken.congr (hkept _ (by simp) (by simp))).exit_of_ne h₃
    (by simp)
  rcases htoken₃.sized.exit_isOk token with ⟨L₄, h₄⟩
  have hnonce₄ := ((hsizedNonce.congr (hkept₂ _ (by simp))).exit_of_ne h₃
    (by simp)).exit_of_ne h₄ (by simp)
  rcases hnonce₄.exit_isOk { record with nonce := record.nonce + 1 } with ⟨L₅, h₅⟩
  have hlimiter₅ := ((hsizedLimiter.exit_of_ne h₃ (by simp)).exit_of_ne h₄
    (by simp)).exit_of_ne h₅ (by simp)
  rcases hlimiter₅.exit_isOk (updateLimiter limiter ctx.unixTimestamp msg) with
    ⟨L₆, h₆⟩
  simp only [addOrUpdateLimiterWithSignatures, bind_eq_ok, require_eq_ok,
    pure_eq_ok]
  exact ⟨_, submitterAccount, hsubmitter.load, bridge, hbridge.load, chain,
    hchain.load, token, htoken.load, (L₁, record), hinitNonce, (L₂, limiter),
    hinitLimiter, (), hflag, (), hchainInit, (), hsupported, (), htokenInit, (),
    by simp [hpaused], _, hverify, L₃, h₃, L₄, h₄, L₅, h₅, L₆, h₆, rfl⟩

theorem admissible_of_limit_ok (hwf : WellFormed L) {L' : Ledger}
    {events : List Event}
    (h : addOrUpdateLimiterWithSignatures L ctx submitter numberOfSignatures msg =
      .ok (L', events)) :
    LimitAdmissible L ctx submitter numberOfSignatures msg := by
  obtain ⟨effect⟩ := limitEffect_of_ok hwf h
  have hverified := (verify_eq_ok_iff_approved (by decide)).mp effect.verified
  exact
    { submitter := ⟨_, effect.submitterStored, effect.isSubmitter⟩
      bridge := effect.bridgeStored.not_vacant
      chain := ⟨_, effect.chainStored, effect.supported⟩
      token := ⟨_, effect.tokenStored, effect.notPaused⟩
      nonce := by
        rw [counter_of_provides effect.nonceProvided, ← effect.nextNonce]
        exact effect.nonce.isLt
      approved := ⟨_, effect.nonceProvided, hverified.2⟩ }

end

/-- In a reachable state a limiter update succeeds exactly if it is admissible. -/
theorem limit_accepted_iff (host : Host) (inputs : List Input) (ctx : Context)
    (submitter : Pubkey) (numberOfSignatures : U8) (msg : UpdateLimiterMsg) :
    (∃ out, addOrUpdateLimiterWithSignatures (execute host inputs).state ctx
        submitter numberOfSignatures msg = .ok out) ↔
      LimitAdmissible (execute host inputs).state ctx submitter
        numberOfSignatures msg := by
  constructor
  · rintro ⟨⟨L', events⟩, h⟩
    exact admissible_of_limit_ok (execute_wellFormed host inputs) h
  · exact limit_isOk_of_admissible (execute_wellFormed host inputs)

end SolBtcBridge.Properties
