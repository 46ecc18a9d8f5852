import SolBtcBridge.Properties.MintTotals

/-!
# Restrictions

A blocklisted member, an unsupported chain and a paused token stay restricted
until the administrator lifts the restriction.  Batch creation does not lift
it, because it writes only to vacant addresses.
-/

namespace SolBtcBridge.Properties

open SolBtcBridge.Foundation
open SolBtcBridge.Runtime
open SolBtcBridge.Program
open SolBtcBridge.Effects

def setsMember (k : Pubkey) (flag : Bool) : Input → Bool
  | .addOrUpdateCommittee _ _ committee _ isBlocklisted =>
      committee = k && isBlocklisted = flag
  | _ => false

def setsChain (c : U8) (flag : Bool) : Input → Bool
  | .addOrUpdateChain _ _ supportedChainId supported =>
      supportedChainId = c && supported = flag
  | _ => false

def setsToken (c t : U8) (flag : Bool) : Input → Bool
  | .addOrUpdateChainToken _ _ supportedChainId tokenId _ _ withdrawPaused =>
      supportedChainId = c && tokenId = t && withdrawPaused = flag
  | _ => false

/-- A mint from the chain, a withdrawal to it or a limiter update for it. -/
def concernsChain (c : U8) : Input → Bool
  | .mintSbtcWithSignatures _ _ _ msg => msg.sourceChainId = c
  | .withdrawBtc _ _ msg => msg.toChainId = c
  | .addOrUpdateLimiterWithSignatures _ _ _ msg => msg.targetChainId = c
  | _ => false

def concernsToken (c t : U8) : Input → Bool
  | .mintSbtcWithSignatures _ _ _ msg =>
      msg.sourceChainId = c && msg.sourceTokenId = t
  | .withdrawBtc _ _ msg => msg.toChainId = c && msg.toTokenId = t
  | .addOrUpdateLimiterWithSignatures _ _ _ msg =>
      msg.targetChainId = c && msg.tokenId = t
  | _ => false

def SignedBy (k : Pubkey) : Input → Prop
  | .mintSbtcWithSignatures ctx _ numberOfSignatures msg =>
      ∃ i ∈ List.range' 1 numberOfSignatures.toNat,
        resolveEd25519WithIndex ctx.instructions i msg = .ok k
  | .addOrUpdateLimiterWithSignatures ctx _ numberOfSignatures msg =>
      ∃ i ∈ List.range' 1 numberOfSignatures.toNat,
        resolveEd25519WithIndex ctx.instructions i msg = .ok k
  | _ => False

def Rejected (host : Host) (L : Ledger) (i : Input) : Prop :=
  ∀ result, step host L i ≠ .ok result

/-- No verification that resolves the key as a signer succeeds. -/
def MemberBarred (k : Pubkey) (L : Ledger) : Prop :=
  ∀ (T : Type) [DecidableEq T] [HasMessageType T] [HasPayload T]
    [DeserializeMessage T] (F : Type) [NoncesTrait F] (accounts : List Address)
    (instructions : List SolanaInstruction) (numberOfSignatures : U8) (msg : T)
    (op : Operation) (nonceConfig nonceConfig' : F),
    verify accounts L instructions numberOfSignatures msg op nonceConfig =
      .ok nonceConfig' →
    ∀ i ∈ List.range' 1 numberOfSignatures.toNat,
      resolveEd25519WithIndex instructions i msg ≠ .ok k

def memberFlag (k : Pubkey) (L : Ledger) : Option Bool :=
  (L.fetch Committee (Pda.committee k).address).map fun r => r.isBlocklisted

def chainFlag (c : U8) (L : Ledger) : Option Bool :=
  (L.fetch SupportedChainConfig (Pda.supportedChain c).address).map
    fun r => r.supported

def tokenFlag (c t : U8) (L : Ledger) : Option Bool :=
  (L.fetch TokenConfig (Pda.tokenConfig c t).address).map
    fun r => r.withdrawPaused

private theorem memberFlag_of_stores {k : Pubkey} {L : Ledger}
    {record : Committee} (h : L.Stores (Pda.committee k).address record) :
    memberFlag k L = some record.isBlocklisted := by
  simp [memberFlag, h.fetch]

private theorem chainFlag_of_stores {c : U8} {L : Ledger}
    {record : SupportedChainConfig}
    (h : L.Stores (Pda.supportedChain c).address record) :
    chainFlag c L = some record.supported := by
  simp [chainFlag, h.fetch]

private theorem tokenFlag_of_stores {c t : U8} {L : Ledger}
    {record : TokenConfig} (h : L.Stores (Pda.tokenConfig c t).address record) :
    tokenFlag c t L = some record.withdrawPaused := by
  simp [tokenFlag, h.fetch]

theorem memberFlag_set {host : Host} {e : BridgeRecord} {k : Pubkey} {flag : Bool}
    (hstep : IsStep (step host) e) (h : setsMember k flag e.input = true) :
    memberFlag k e.post = some flag := by
  rcases e with ⟨L, input, events, L'⟩
  cases input with
  | addOrUpdateCommittee payer chainId committee stake isBlocklisted =>
      simp only [setsMember, Bool.and_eq_true, decide_eq_true_eq] at h
      rcases h with ⟨rfl, rfl⟩
      rcases addOrUpdateCommittee_eq_ok.mp hstep with ⟨-, hupserts, -⟩
      exact hupserts.map_fetch fun record => by
        unfold Committee.addOrUpdate
        split <;> rfl
  | _ => simp [setsMember] at h

theorem chainFlag_set {host : Host} {e : BridgeRecord} {c : U8} {flag : Bool}
    (hstep : IsStep (step host) e) (h : setsChain c flag e.input = true) :
    chainFlag c e.post = some flag := by
  rcases e with ⟨L, input, events, L'⟩
  cases input with
  | addOrUpdateChain payer chainId supportedChainId supported =>
      simp only [setsChain, Bool.and_eq_true, decide_eq_true_eq] at h
      rcases h with ⟨rfl, rfl⟩
      rcases addOrUpdateChain_eq_ok.mp hstep with ⟨-, hupserts, -⟩
      exact hupserts.map_fetch fun record => by
        unfold SupportedChainConfig.addOrUpdate
        split <;> rfl
  | _ => simp [setsChain] at h

theorem tokenFlag_set {host : Host} {e : BridgeRecord} {c t : U8} {flag : Bool}
    (hstep : IsStep (step host) e) (h : setsToken c t flag e.input = true) :
    tokenFlag c t e.post = some flag := by
  rcases e with ⟨L, input, events, L'⟩
  cases input with
  | addOrUpdateChainToken payer chainId supportedChainId tokenId fee minimum paused =>
      simp only [setsToken, Bool.and_eq_true, decide_eq_true_eq] at h
      rcases h with ⟨⟨rfl, rfl⟩, rfl⟩
      rcases addOrUpdateChainToken_eq_ok.mp hstep with ⟨-, -, -, hupserts, -⟩
      exact hupserts.map_fetch fun record => by
        unfold TokenConfig.addOrUpdate
        split <;> rfl
  | _ => simp [setsToken] at h

private theorem memberFlag_kept {host : Host} {e : BridgeRecord} {k : Pubkey}
    (hwf : WellFormed e.pre) (hstep : IsStep (step host) e)
    (hlift : setsMember k false e.input = false)
    (h : memberFlag k e.pre = some true) : memberFlag k e.post = some true := by
  rcases e with ⟨L, input, events, L'⟩
  rcases step_evolves hwf hstep (.committee k) with heq | hchange
  · rwa [memberFlag, Ledger.fetch_congr heq]
  · cases hchange with
    | memberListed _ hvacant _ => simp [memberFlag, hvacant.fetch] at h
    | @memberSet payer chainId _ stake isBlocklisted =>
        cases isBlocklisted with
        | true => exact memberFlag_set hstep (by simp [setsMember])
        | false => simp [setsMember] at hlift

private theorem chainFlag_kept {host : Host} {e : BridgeRecord} {c : U8}
    (hwf : WellFormed e.pre) (hstep : IsStep (step host) e)
    (hlift : setsChain c true e.input = false)
    (h : chainFlag c e.pre = some false) : chainFlag c e.post = some false := by
  rcases e with ⟨L, input, events, L'⟩
  rcases step_evolves hwf hstep (.supportedChain c) with heq | hchange
  · rwa [chainFlag, Ledger.fetch_congr heq]
  · cases hchange with
    | chainListed _ hvacant _ => simp [chainFlag, hvacant.fetch] at h
    | @chainSet payer chainId _ supported =>
        cases supported with
        | true => simp [setsChain] at hlift
        | false => exact chainFlag_set hstep (by simp [setsChain])
    | chainMinted hstores _ hstores' =>
        have hpre := chainFlag_of_stores hstores
        have hpost := chainFlag_of_stores hstores'
        simp only at h hpre hpost ⊢
        rw [hpost, ← hpre, h]

private theorem tokenFlag_kept {host : Host} {e : BridgeRecord} {c t : U8}
    (hwf : WellFormed e.pre) (hstep : IsStep (step host) e)
    (hlift : setsToken c t false e.input = false)
    (h : tokenFlag c t e.pre = some true) : tokenFlag c t e.post = some true := by
  rcases e with ⟨L, input, events, L'⟩
  rcases step_evolves hwf hstep (.tokenConfig c t) with heq | hchange
  · rwa [tokenFlag, Ledger.fetch_congr heq]
  · cases hchange with
    | tokenListed _ _ hvacant _ => simp [tokenFlag, hvacant.fetch] at h
    | @tokenSet payer chainId _ _ fee minimum paused =>
        cases paused with
        | true => exact tokenFlag_set hstep (by simp [setsToken])
        | false => simp [setsToken] at hlift
    | tokenMinted hstores _ hstores' =>
        have hpre := tokenFlag_of_stores hstores
        have hpost := tokenFlag_of_stores hstores'
        simp only at h hpre hpost ⊢
        rw [hpost, ← hpre, h]

/-! ## What the flags forbid -/

theorem memberBarred_of_flag {k : Pubkey} {L : Ledger} (hwf : WellFormed L)
    (h : memberFlag k L = some true) : MemberBarred k L := by
  intro T _ _ _ _ F _ accounts instructions signatures msg op nonceConfig
    nonceConfig' hverify i hi hresolve
  rcases verify_eq_ok.mp hverify with ⟨-, -, approvals, hforall, -⟩
  have hlength := hforall.length_eq
  rcases List.mem_iff_getElem.mp hi with ⟨j, hj, rfl⟩
  have happroves := (List.forall₂_iff_get.mp hforall).2 j hj (hlength ▸ hj)
  simp only [List.get_eq_getElem] at happroves
  generalize approvals[j] = approval at happroves
  have hsigner : approval.signer = k :=
    Except.ok.inj (happroves.resolved.symm.trans hresolve)
  have hstores := (readCommittee_of_keeps (hwf (.committee approval.signer))).mp
    happroves.record
  rw [hsigner] at hstores
  rw [memberFlag_of_stores hstores, happroves.notBlocklisted] at h
  contradiction

theorem rejected_of_memberBarred {host : Host} {k : Pubkey} {L : Ledger}
    (hwf : WellFormed L) (h : MemberBarred k L) {i : Input} (hi : SignedBy k i) :
    Rejected host L i := by
  rintro ⟨L', events⟩ hstep
  cases i with
  | mintSbtcWithSignatures ctx submitter signatures msg =>
      rcases mintEffect_of_ok hwf hstep with ⟨effect⟩
      rcases hi with ⟨index, hindex, hresolve⟩
      exact h _ _ _ _ _ _ _ _ _ effect.verified index hindex hresolve
  | addOrUpdateLimiterWithSignatures ctx submitter signatures msg =>
      rcases limitEffect_of_ok hwf hstep with ⟨effect⟩
      rcases hi with ⟨index, hindex, hresolve⟩
      exact h _ _ _ _ _ _ _ _ _ effect.verified index hindex hresolve
  | _ => exact hi

theorem rejected_of_chainFlag {host : Host} {c : U8} {L : Ledger}
    (hwf : WellFormed L) (h : chainFlag c L = some false) {i : Input}
    (hi : concernsChain c i = true) : Rejected host L i := by
  rintro ⟨L', events⟩ hstep
  cases i with
  | mintSbtcWithSignatures ctx submitter signatures msg =>
      rcases mintEffect_of_ok hwf hstep with ⟨effect⟩
      obtain rfl : msg.sourceChainId = c := by simpa [concernsChain] using hi
      simp [chainFlag_of_stores effect.chainStored, effect.supported] at h
  | withdrawBtc ctx user msg =>
      rcases withdrawEffect_of_ok hwf hstep with ⟨effect⟩
      obtain rfl : msg.toChainId = c := by simpa [concernsChain] using hi
      simp [chainFlag_of_stores effect.chainStored, effect.supported] at h
  | addOrUpdateLimiterWithSignatures ctx submitter signatures msg =>
      rcases limitEffect_of_ok hwf hstep with ⟨effect⟩
      obtain rfl : msg.targetChainId = c := by simpa [concernsChain] using hi
      simp [chainFlag_of_stores effect.chainStored, effect.supported] at h
  | _ => simp [concernsChain] at hi

theorem rejected_of_tokenFlag {host : Host} {c t : U8} {L : Ledger}
    (hwf : WellFormed L) (h : tokenFlag c t L = some true) {i : Input}
    (hi : concernsToken c t i = true) : Rejected host L i := by
  rintro ⟨L', events⟩ hstep
  cases i with
  | mintSbtcWithSignatures ctx submitter signatures msg =>
      rcases mintEffect_of_ok hwf hstep with ⟨effect⟩
      simp only [concernsToken, Bool.and_eq_true, decide_eq_true_eq] at hi
      rcases hi with ⟨rfl, rfl⟩
      simp [tokenFlag_of_stores effect.tokenStored, effect.notPaused] at h
  | withdrawBtc ctx user msg =>
      rcases withdrawEffect_of_ok hwf hstep with ⟨effect⟩
      simp only [concernsToken, Bool.and_eq_true, decide_eq_true_eq] at hi
      rcases hi with ⟨rfl, rfl⟩
      simp [tokenFlag_of_stores effect.tokenStored, effect.notPaused] at h
  | addOrUpdateLimiterWithSignatures ctx submitter signatures msg =>
      rcases limitEffect_of_ok hwf hstep with ⟨effect⟩
      simp only [concernsToken, Bool.and_eq_true, decide_eq_true_eq] at hi
      rcases hi with ⟨rfl, rfl⟩
      simp [tokenFlag_of_stores effect.tokenStored, effect.notPaused] at h
  | _ => simp [concernsToken] at hi

/-! ## Runs -/

/-- A restriction of the log is observed in the state that the run has reached. -/
theorem restrictions_in_force (host : Host) (inputs : List Input) :
    (∀ k, InForce (setsMember k true) (setsMember k false)
        (execute host inputs).log →
      MemberBarred k (execute host inputs).state ∧
        ∀ i, SignedBy k i → Rejected host (execute host inputs).state i) ∧
    (∀ c, InForce (setsChain c false) (setsChain c true)
        (execute host inputs).log →
      ∀ i, concernsChain c i = true →
        Rejected host (execute host inputs).state i) ∧
    (∀ c t, InForce (setsToken c t true) (setsToken c t false)
        (execute host inputs).log →
      ∀ i, concernsToken c t i = true →
        Rejected host (execute host inputs).state i) := by
  have hwf := execute_wellFormed host inputs
  have hnext : ∀ e : BridgeRecord, WellFormed e.pre → IsStep (step host) e →
      WellFormed e.post := fun _ hpre hstep => wellFormed_step hpre hstep
  refine ⟨?_, ?_, ?_⟩
  · intro k hforce
    have hflag : memberFlag k (execute host inputs).state = some true :=
      run_inForce (Q := fun L => memberFlag k L = some true) wellFormed_empty
        hnext (fun _ => memberFlag_set) (fun _ => memberFlag_kept) hforce
    have hbarred := memberBarred_of_flag hwf hflag
    exact ⟨hbarred, fun i hi => rejected_of_memberBarred hwf hbarred hi⟩
  · intro c hforce i hi
    have hflag : chainFlag c (execute host inputs).state = some false :=
      run_inForce (Q := fun L => chainFlag c L = some false) wellFormed_empty
        hnext (fun _ => chainFlag_set) (fun _ => chainFlag_kept) hforce
    exact rejected_of_chainFlag hwf hflag hi
  · intro c t hforce i hi
    have hflag : tokenFlag c t (execute host inputs).state = some true :=
      run_inForce (Q := fun L => tokenFlag c t L = some true) wellFormed_empty
        hnext (fun _ => tokenFlag_set) (fun _ => tokenFlag_kept) hforce
    exact rejected_of_tokenFlag hwf hflag hi

def sampleRestrictedRun : List Input :=
  [sampleBridge, sampleCommittee, sampleLimiter,
    .addOrUpdateCommittee sampleAdmin 1 sampleMember 10000 true,
    .addOrUpdateChain sampleAdmin 1 2 false,
    .addOrUpdateChainToken sampleAdmin 1 2 0 1000 0 true, sampleCommittee]

theorem restrictions_in_force_sample :
    (MemberBarred sampleMember (execute sampleHost sampleRestrictedRun).state ∧
      Rejected sampleHost (execute sampleHost sampleRestrictedRun).state
        sampleMint) ∧
    Rejected sampleHost (execute sampleHost sampleRestrictedRun).state
      sampleWithdrawal ∧
    Rejected sampleHost (execute sampleHost sampleRestrictedRun).state
      sampleLimiter := by
  have h := restrictions_in_force sampleHost sampleRestrictedRun
  refine ⟨?_, ?_, ?_⟩
  · have hmember := h.1 sampleMember (inForce_of_index 3 (by decide +kernel)
      (by decide +kernel))
    exact ⟨hmember.1, hmember.2 sampleMint ⟨1, by decide, by decide +kernel⟩⟩
  · exact h.2.1 2 (inForce_of_index 4 (by decide +kernel)
      (by decide +kernel)) sampleWithdrawal rfl
  · exact h.2.2 2 0 (inForce_of_index 5 (by decide +kernel)
      (by decide +kernel)) sampleLimiter rfl

end SolBtcBridge.Properties
