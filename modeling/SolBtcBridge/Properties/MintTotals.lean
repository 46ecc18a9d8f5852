import SolBtcBridge.Properties.Stake

/-!
# Mint totals

A mint adds its amount to the totals of its source chain and token.  A
withdrawal subtracts its amount too, but only in memory: its chain and token
records are not mutable accounts.  The stored totals therefore count what was
minted and never what was withdrawn.
-/

namespace SolBtcBridge.Properties

open SolBtcBridge.Foundation
open SolBtcBridge.Runtime
open SolBtcBridge.Program
open SolBtcBridge.Effects

def chainTotal (c : U8) (L : Ledger) : Nat :=
  ((L.fetch SupportedChainConfig (Pda.supportedChain c).address).map
    fun r => r.mintTotal.toNat).getD 0

def tokenTotal (c t : U8) (L : Ledger) : Nat :=
  ((L.fetch TokenConfig (Pda.tokenConfig c t).address).map
    fun r => r.mintTotal.toNat).getD 0

theorem chainTotal_of_stores {c : U8} {L : Ledger} {record : SupportedChainConfig}
    (h : L.Stores (Pda.supportedChain c).address record) :
    chainTotal c L = record.mintTotal.toNat := by
  simp [chainTotal, h.fetch]

theorem tokenTotal_of_stores {c t : U8} {L : Ledger} {record : TokenConfig}
    (h : L.Stores (Pda.tokenConfig c t).address record) :
    tokenTotal c t L = record.mintTotal.toNat := by
  simp [tokenTotal, h.fetch]

theorem tokenTotal_of_vacant {c t : U8} {L : Ledger}
    (h : L.Vacant (Pda.tokenConfig c t).address) : tokenTotal c t L = 0 := by
  rw [tokenTotal, h.fetch]
  rfl

theorem tokenTotal_congr {c t : U8} {L L' : Ledger}
    (h : (L' (Pda.tokenConfig c t).address).body =
      (L (Pda.tokenConfig c t).address).body) :
    tokenTotal c t L' = tokenTotal c t L := by
  rw [tokenTotal, tokenTotal, Ledger.fetch_congr h]

def mintedAmount (c t : U8) (e : BridgeRecord) : Nat :=
  match mintMessage e.input with
  | some msg =>
      if msg.sourceChainId = c ∧ msg.sourceTokenId = t then msg.amount.toNat
      else 0
  | none => 0

def withdrawnAmount (c t : U8) (e : BridgeRecord) : Nat :=
  match withdrawMessage e.input with
  | some msg =>
      if msg.toChainId = c ∧ msg.toTokenId = t then msg.amount.toNat else 0
  | none => 0

def minted (c t : U8) (log : List BridgeRecord) : Nat :=
  (log.map (mintedAmount c t)).sum

def withdrawn (c t : U8) (log : List BridgeRecord) : Nat :=
  (log.map (withdrawnAmount c t)).sum

private theorem tokenTotal_neutral {host : Host} {e : BridgeRecord} (c t : U8)
    (hwf : WellFormed e.pre) (hstep : IsStep (step host) e)
    (hneutral : Neutral e) : tokenTotal c t e.post = tokenTotal c t e.pre := by
  obtain ⟨L, input, events, L'⟩ := e
  rcases step_evolves hwf hstep (.tokenConfig c t) with heq | hchange
  · exact tokenTotal_congr heq
  · cases hchange with
    | tokenListed _ _ hvacant hstores =>
        have hpre := tokenTotal_of_vacant hvacant
        have hpost := tokenTotal_of_stores hstores
        simp only at hpre hpost ⊢
        rw [hpre, hpost]
        rfl
    | tokenSet _ hprovides hstores =>
        have hpost := tokenTotal_of_stores hstores
        simp only at hpost ⊢
        rw [hpost]
        rcases hprovides with hold | ⟨hvacant, rfl⟩
        · have hinit := (Ledger.Keeps.of_stores (hwf (.tokenConfig c t)) hold).1
          simp [tokenTotal_of_stores hold, TokenConfig.addOrUpdate, hinit]
        · rw [tokenTotal_of_vacant hvacant]
          rfl
    | tokenMinted =>
        have hno := hneutral.noMint
        contradiction

theorem tokenTotal_step {host : Host} {e : BridgeRecord} (c t : U8)
    (hwf : WellFormed e.pre) (hstep : IsStep (step host) e) :
    tokenTotal c t e.post = tokenTotal c t e.pre + mintedAmount c t e := by
  cases stepEffect_of_ok hwf hstep with
  | @mint ctx submitter signatures msg hinput effect =>
      by_cases hids : msg.sourceChainId = c ∧ msg.sourceTokenId = t
      · have hamount : mintedAmount c t e = msg.amount.toNat := by
          simp [mintedAmount, mintMessage, hinput, hids]
        obtain ⟨rfl, rfl⟩ := hids
        rw [tokenTotal_of_stores effect.tokenStored,
          tokenTotal_of_stores effect.tokenStored', hamount]
        exact effect.tokenTotal
      · have hamount : mintedAmount c t e = 0 := by
          simp [mintedAmount, mintMessage, hinput, hids]
        have hother : Pda.tokenConfig c t ≠
            .tokenConfig msg.sourceChainId msg.sourceTokenId := by
          rintro ⟨⟩
          exact hids ⟨rfl, rfl⟩
        rw [hamount, tokenTotal_congr (by rw [effect.frame _ (by simp [hother])]),
          Nat.add_zero]
  | withdraw hinput effect =>
      have hamount : mintedAmount c t e = 0 := by
        simp [mintedAmount, mintMessage, hinput]
      rw [hamount, tokenTotal_congr (by rw [effect.frame _ (by simp)]),
        Nat.add_zero]
  | neutral hneutral =>
      have hamount : mintedAmount c t e = 0 := by
        simp [mintedAmount, hneutral.noMint]
      rw [hamount, tokenTotal_neutral c t hwf hstep hneutral, Nat.add_zero]

private theorem tokenTotal_eq_minted (host : Host) (inputs : List Input)
    (c t : U8) :
    tokenTotal c t (execute host inputs).state =
      minted c t (execute host inputs).log := by
  have hsum : tokenTotal c t (execute host inputs).state =
      tokenTotal c t Ledger.empty +
        ((execute host inputs).log.map (mintedAmount c t)).sum :=
    run_sum (mintedAmount c t) wellFormed_empty
      (fun _ hwf hstep => ⟨wellFormed_step hwf hstep,
        tokenTotal_step c t hwf hstep⟩) inputs
  have hstart : tokenTotal c t Ledger.empty = 0 :=
    tokenTotal_of_vacant (L := Ledger.empty) rfl
  rw [hsum, hstart, Nat.zero_add, minted]

/-- The totals an event reports are those that the ledger stores. -/
def Reports (L : Ledger) : Event → Prop
  | .mintSbtc event =>
      event.chainMintTotal.toNat = chainTotal event.sourceChainId L ∧
        event.tokenMintTotal.toNat =
          tokenTotal event.sourceChainId event.sourceTokenId L
  | .withdrawBtc event =>
      event.chainMintTotal.toNat = chainTotal event.toChainId L ∧
        event.tokenMintTotal.toNat =
          tokenTotal event.toChainId event.toTokenId L
  | _ => True

def withdrawalAmount (i : Input) : Nat :=
  ((withdrawMessage i).map fun msg => msg.amount.toNat).getD 0

private theorem reports_step {host : Host} {e : BridgeRecord}
    (hwf : WellFormed e.pre) (hstep : IsStep (step host) e)
    (hzero : withdrawalAmount e.input = 0) :
    ∀ event ∈ e.output, Reports e.post event := by
  intro event hevent
  cases stepEffect_of_ok hwf hstep with
  | mint hinput effect =>
      rw [effect.events_eq, List.mem_pair] at hevent
      rcases hevent with rfl | rfl
      · trivial
      · exact ⟨(chainTotal_of_stores effect.chainStored').symm,
          (tokenTotal_of_stores effect.tokenStored').symm⟩
  | @withdraw ctx user msg hinput effect =>
      rw [effect.events_eq, List.mem_singleton] at hevent
      subst hevent
      have hamount : msg.amount.toNat = 0 := by
        simpa [withdrawalAmount, withdrawMessage, hinput] using hzero
      have hchain := effect.chainTotal
      have htoken := effect.tokenTotal
      rw [hamount, Nat.add_zero] at hchain htoken
      have hchain' := effect.chainStored.congr
        (effect.frame (.supportedChain msg.toChainId) (by simp))
      have htoken' := effect.tokenStored.congr
        (effect.frame (.tokenConfig msg.toChainId msg.toTokenId) (by simp))
      exact ⟨by rw [chainTotal_of_stores hchain', ← hchain],
        by rw [tokenTotal_of_stores htoken', ← htoken]⟩
  | neutral hneutral =>
      obtain ⟨update, rfl⟩ := hneutral.events event hevent
      trivial

/-! ## Exactness -/

structure LedgerExact (t : BridgeTrace) : Prop where
  total : ∀ chainId tokenId, (tokenTotal chainId tokenId t.state : Int) =
    minted chainId tokenId t.log - withdrawn chainId tokenId t.log
  solvent : ∀ chainId tokenId,
    withdrawn chainId tokenId t.log ≤ minted chainId tokenId t.log
  reported : ∀ e ∈ t.log, ∀ event ∈ e.output, Reports e.post event

private theorem withdrawnAmount_eq_zero {c t : U8} {e : BridgeRecord}
    (h : withdrawalAmount e.input = 0) : withdrawnAmount c t e = 0 := by
  unfold withdrawnAmount
  cases hmsg : withdrawMessage e.input with
  | none => rfl
  | some msg =>
      have hamount : msg.amount.toNat = 0 := by
        simpa [withdrawalAmount, hmsg] using h
      simp [hamount]

private theorem withdrawn_eq_zero_iff {log : List BridgeRecord} :
    (∀ c t, withdrawn c t log = 0) ↔ ∀ e ∈ log, withdrawalAmount e.input = 0 := by
  simp only [withdrawn, List.sum_eq_zero_iff, List.forall_mem_map]
  constructor
  · intro h e he
    cases hmsg : withdrawMessage e.input with
    | none => simp [withdrawalAmount, hmsg]
    | some msg =>
        have hzero := h msg.toChainId msg.toTokenId e he
        simpa [withdrawnAmount, withdrawalAmount, hmsg] using hzero
  · intro h c t e he
    exact withdrawnAmount_eq_zero (h e he)

/-- The ledger is exact as long as no withdrawal of a positive amount succeeds. -/
theorem ledgerExact_iff (host : Host) (inputs : List Input) :
    LedgerExact (execute host inputs) ↔
      ∀ e ∈ (execute host inputs).log, withdrawalAmount e.input = 0 := by
  have htotal := tokenTotal_eq_minted host inputs
  rw [← withdrawn_eq_zero_iff]
  constructor
  · intro h c t
    have hexact := h.total c t
    rw [htotal] at hexact
    omega
  · intro h
    refine ⟨?_, ?_, ?_⟩
    · intro c t
      rw [htotal, h c t]
      omega
    · intro c t
      rw [h c t]
      exact Nat.zero_le _
    · intro e he
      exact reports_step (wellFormed_pre he) (isStep_of_mem he)
        (withdrawn_eq_zero_iff.mp h e he)

def sampleLimiter : Input :=
  .addOrUpdateLimiterWithSignatures
    (sampleContext [(Pda.committee sampleMember).address] [sampleLimitInstruction] 0)
    sampleSubmitter 1 sampleLimit

def sampleMint : Input :=
  .mintSbtcWithSignatures
    (sampleContext
      [(Pda.committee sampleMember).address,
        getAssociatedTokenAddress sampleUser (Pda.sbtcMint 1).address,
        .wallet sampleUser, (Pda.sbtcMint 1).address]
      [sampleMintInstruction] 0)
    sampleSubmitter 1 sampleMintMessage

def sampleWithdrawal : Input :=
  .withdrawBtc
    (sampleContext
      [getAssociatedTokenAddress sampleUser (Pda.sbtcMint 1).address,
        .wallet sampleFeeRecipient,
        getAssociatedTokenAddress sampleFeeRecipient (Pda.sbtcMint 1).address,
        (Pda.sbtcMint 1).address] [] 0)
    sampleUser ⟨2, 0, [], 1, sampleUser, 400⟩

/-- After minting 1000 and withdrawing 400 the stored total is still 1000. -/
theorem not_ledgerExact_sample :
    ¬ LedgerExact (execute sampleHost [sampleBridge, sampleCommittee,
      sampleLimiter, sampleMint, sampleWithdrawal]) := by
  intro h
  have hexact := h.total 2 0
  have hvalues :
      let t := execute sampleHost [sampleBridge, sampleCommittee, sampleLimiter,
        sampleMint, sampleWithdrawal]
      tokenTotal 2 0 t.state = 1000 ∧ minted 2 0 t.log = 1000 ∧
        withdrawn 2 0 t.log = 400 := by
    decide +kernel
  obtain ⟨htotal, hminted, hwithdrawn⟩ := hvalues
  omega

end SolBtcBridge.Properties
