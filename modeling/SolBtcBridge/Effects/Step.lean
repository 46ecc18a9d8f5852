import SolBtcBridge.Effects.Admin
import SolBtcBridge.Effects.Limiter
import SolBtcBridge.Effects.Slots
import SolBtcBridge.Effects.Withdraw

/-!
# Every step, on every record

A successful input changes the addresses of records only in the ways that
`RecordChange` lists, and it keeps the ledger well formed.
-/

namespace SolBtcBridge.Effects

open SolBtcBridge.Foundation
open SolBtcBridge.Runtime
open SolBtcBridge.Program

theorem MintEffect.evolves {L L' : Ledger} {ctx : Context} {submitter : Pubkey}
    {signatures : U8} {msg : MintSbtcMessage} {events : List Event}
    (effect : MintEffect L ctx submitter signatures msg L' events) (p : Pda) :
    Evolves L L' (.mintSbtcWithSignatures ctx submitter signatures msg) p := by
  by_cases hp : p ∈ [.bridgeConfig msg.toChainId,
      .supportedChain msg.sourceChainId,
      .tokenConfig msg.sourceChainId msg.sourceTokenId,
      .mintNonce msg.sourceChainId msg.nonce,
      .limiter msg.sourceChainId msg.sourceTokenId, .sbtcMint msg.toChainId]
  · simp only [List.mem_cons, List.not_mem_nil, or_false] at hp
    rcases hp with rfl | rfl | rfl | rfl | rfl | rfl
    · exact .inl (effect.bridgeStored'.trans effect.bridgeStored.symm)
    · exact .inr (.chainMinted effect.chainStored effect.chainTotal
        effect.chainStored')
    · exact .inr (.tokenMinted effect.tokenStored effect.tokenTotal
        effect.tokenStored')
    · obtain ⟨data, hdata⟩ := effect.nonceTaken
      exact .inr (.nonceMinted effect.nonceVacant hdata)
    · exact .inr (.limiterMinted effect.limiterStored effect.transfer
        effect.limiterStored')
    · obtain ⟨mint, hmint⟩ := effect.isMint
      obtain ⟨mint', hmint'⟩ := effect.isMint'
      exact .inr (.supplyMinted hmint hmint')
  · exact .inl (by rw [effect.frame p hp])

theorem WithdrawEffect.evolves {L L' : Ledger} {ctx : Context} {user : Pubkey}
    {msg : WithdrawBtcMessage} {events : List Event}
    (effect : WithdrawEffect L user msg L' events) (p : Pda) :
    Evolves L L' (.withdrawBtc ctx user msg) p := by
  by_cases hp : p ∈ [.operationNonce .tokenTransfer, .sbtcMint msg.chainId]
  · simp only [List.mem_cons, List.not_mem_nil, or_false] at hp
    rcases hp with rfl | rfl
    · exact .inr (.nonceWithdrawn effect.nonceProvided effect.nextNonce
        effect.nonceStored')
    · obtain ⟨mint, hmint⟩ := effect.isMint
      obtain ⟨mint', hmint'⟩ := effect.isMint'
      exact .inr (.supplyWithdrawn hmint hmint')
  · exact .inl (by rw [effect.frame p hp])

theorem LimitEffect.evolves {L L' : Ledger} {ctx : Context} {submitter : Pubkey}
    {signatures : U8} {msg : UpdateLimiterMsg} {events : List Event}
    (effect : LimitEffect L ctx submitter signatures msg L' events) (p : Pda) :
    Evolves L L'
      (.addOrUpdateLimiterWithSignatures ctx submitter signatures msg) p := by
  by_cases hnonce : p = .operationNonce .updateBridgeLimit
  · subst hnonce
    exact .inr (.nonceLimited effect.nonceProvided effect.sameNonce
      effect.nextNonce effect.nonceStored')
  · by_cases hlimiter : p = .limiter msg.targetChainId msg.tokenId
    · subst hlimiter
      exact .inr (.limiterSet effect.limiterProvided effect.limiterStored')
    · have heq := effect.frame p.address (by simpa using hnonce)
        (by simpa using hlimiter)
      exact .inl (by rw [heq])

theorem step_evolves {host : Host} {e : BridgeRecord} (hwf : WellFormed e.pre)
    (hstep : IsStep (step host) e) (p : Pda) :
    Evolves e.pre e.post e.input p := by
  obtain ⟨L, input, events, L'⟩ := e
  simp only [IsStep] at hwf hstep ⊢
  cases input with
  | createBridgeConfig => exact (createBridgeConfig_spec hstep).evolves p
  | addOrUpdateChain => exact (addOrUpdateChain_spec hwf hstep).evolves p
  | addOrUpdateChainToken =>
      exact (addOrUpdateChainToken_spec hwf hstep).evolves p
  | createBridgeCommittee =>
      exact (createBridgeCommittee_spec hwf hstep).evolves p
  | addOrUpdateCommittee => exact (addOrUpdateCommittee_spec hwf hstep).evolves p
  | addOrUpdateSubmitter => exact (addOrUpdateSubmitter_spec hwf hstep).evolves p
  | mintSbtcWithSignatures =>
      obtain ⟨effect⟩ := mintEffect_of_ok hwf hstep
      exact effect.evolves p
  | withdrawBtc =>
      obtain ⟨effect⟩ := withdrawEffect_of_ok hwf hstep
      exact effect.evolves p
  | addOrUpdateLimiterWithSignatures =>
      obtain ⟨effect⟩ := limitEffect_of_ok hwf hstep
      exact effect.evolves p
  | sendLamports target lamports =>
      simp only [step, Except.ok.injEq, Prod.mk.injEq] at hstep
      obtain ⟨rfl, -⟩ := hstep
      exact .inl (Ledger.set_lamports_body _ _ _ _)
  | openTokenAccount target owner mint =>
      simp only [step, bind_eq_ok, require_eq_ok, pure_eq_ok, Prod.mk.injEq,
        exists_and_left, exists_const] at hstep
      obtain ⟨htarget, L₁, hinit, rfl, -⟩ := hstep
      have hne : p.address ≠ target := by
        rintro rfl
        simp at htarget
      exact .inl (by rw [(Ledger.initTokenAccount_spec hinit).2.2 _ hne])
  | sendTokens source destination authority amount =>
      simp only [step, bind_eq_ok, pure_eq_ok, Prod.mk.injEq] at hstep
      obtain ⟨L₁, htransfer, rfl, -⟩ := hstep
      obtain ⟨⟨sender, hsender⟩, receiver, hreceiver⟩ :=
        Ledger.transfer_bodies htransfer
      have hsource : p.address ≠ source := by
        rintro rfl
        exact hwf.body_ne_token p sender hsender
      have hdestination : p.address ≠ destination := by
        rintro rfl
        exact hwf.body_ne_token p receiver hreceiver
      exact .inl (by
        rw [(Ledger.transfer_spec htransfer).2.2.2.2 _ hsource hdestination])

/-! ## Mints, withdrawals and the rest -/

def mintMessage : Input → Option MintSbtcMessage
  | .mintSbtcWithSignatures _ _ _ msg => some msg
  | _ => none

def withdrawMessage : Input → Option WithdrawBtcMessage
  | .withdrawBtc _ _ msg => some msg
  | _ => none

/-- A step that neither mints nor withdraws keeps every supply. -/
structure Neutral (e : BridgeRecord) : Prop where
  noMint : mintMessage e.input = none
  noWithdrawal : withdrawMessage e.input = none
  supply : ∀ b, e.post.supply b = e.pre.supply b
  events : ∀ event ∈ e.output, ∃ update, event = .limitUpdated update

inductive StepEffect (e : BridgeRecord) : Prop
  | mint {ctx submitter signatures msg} :
      e.input = .mintSbtcWithSignatures ctx submitter signatures msg →
      MintEffect e.pre ctx submitter signatures msg e.post e.output → StepEffect e
  | withdraw {ctx user msg} : e.input = .withdrawBtc ctx user msg →
      WithdrawEffect e.pre user msg e.post e.output → StepEffect e
  | neutral : Neutral e → StepEffect e

theorem Administers.neutral {e : BridgeRecord} {i : Input}
    (h : Administers e.pre e.post e.output i) (hmint : mintMessage e.input = none)
    (hwithdraw : withdrawMessage e.input = none) : Neutral e where
  noMint := hmint
  noWithdrawal := hwithdraw
  supply := h.tokens.supply
  events := by simp [h.silent]

theorem stepEffect_of_ok {host : Host} {e : BridgeRecord} (hwf : WellFormed e.pre)
    (hstep : IsStep (step host) e) : StepEffect e := by
  obtain ⟨L, input, events, L'⟩ := e
  simp only [IsStep] at hwf hstep
  cases input with
  | createBridgeConfig =>
      exact .neutral ((createBridgeConfig_spec hstep).neutral rfl rfl)
  | addOrUpdateChain =>
      exact .neutral ((addOrUpdateChain_spec hwf hstep).neutral rfl rfl)
  | addOrUpdateChainToken =>
      exact .neutral ((addOrUpdateChainToken_spec hwf hstep).neutral rfl rfl)
  | createBridgeCommittee =>
      exact .neutral ((createBridgeCommittee_spec hwf hstep).neutral rfl rfl)
  | addOrUpdateCommittee =>
      exact .neutral ((addOrUpdateCommittee_spec hwf hstep).neutral rfl rfl)
  | addOrUpdateSubmitter =>
      exact .neutral ((addOrUpdateSubmitter_spec hwf hstep).neutral rfl rfl)
  | mintSbtcWithSignatures =>
      obtain ⟨effect⟩ := mintEffect_of_ok hwf hstep
      exact .mint rfl effect
  | withdrawBtc =>
      obtain ⟨effect⟩ := withdrawEffect_of_ok hwf hstep
      exact .withdraw rfl effect
  | addOrUpdateLimiterWithSignatures =>
      obtain ⟨effect⟩ := limitEffect_of_ok hwf hstep
      refine .neutral ⟨rfl, rfl, effect.tokens.supply, ?_⟩
      intro event hevent
      have hevents := effect.events_eq
      simp only at hevents hevent
      rw [hevents, List.mem_singleton] at hevent
      exact ⟨_, hevent⟩
  | sendLamports target lamports =>
      simp only [step, Except.ok.injEq, Prod.mk.injEq] at hstep
      obtain ⟨rfl, rfl⟩ := hstep
      exact .neutral ⟨rfl, rfl, fun b => Ledger.supply_congr
        (Ledger.set_lamports_body _ _ _ _), by simp⟩
  | openTokenAccount target owner mint =>
      simp only [step, bind_eq_ok, require_eq_ok, pure_eq_ok, Prod.mk.injEq,
        exists_and_left, exists_const] at hstep
      obtain ⟨-, L₁, hinit, rfl, rfl⟩ := hstep
      exact .neutral ⟨rfl, rfl, (Ledger.initTokenAccount_spec hinit).2.1.supply,
        by simp⟩
  | sendTokens source destination authority amount =>
      simp only [step, bind_eq_ok, pure_eq_ok, Prod.mk.injEq] at hstep
      obtain ⟨L₁, htransfer, rfl, rfl⟩ := hstep
      exact .neutral ⟨rfl, rfl, (Ledger.transfer_spec htransfer).2.2.2.1, by simp⟩

private theorem keeps_of_stores {T : Type} [AnchorAccount T] {L : Ledger}
    {a : Address} {P : T → Prop} {t : T} (h : L.Stores a t) (hP : P t) :
    L.Keeps a P :=
  .inr ⟨t, h, hP⟩

private theorem admits_of_change {L L' : Ledger} {i : Input} {p : Pda}
    (hwf : WellFormed L) (h : RecordChange L L' i p) : Admits L' p := by
  cases h with
  | bridgeCreated _ hstores hinit hchain _ =>
      exact keeps_of_stores hstores ⟨hinit, hchain⟩
  | mintCreated _ hmint _ => exact .inr ⟨_, hmint⟩
  | chainListed _ _ hstores => exact keeps_of_stores hstores ⟨rfl, rfl⟩
  | tokenListed _ hfee _ hstores =>
      exact keeps_of_stores hstores ⟨rfl, rfl, rfl, hfee⟩
  | @chainSet _ _ chainId _ _ hprovides hstores =>
      apply keeps_of_stores hstores
      rcases Ledger.Keeps.provides (hwf (.supportedChain chainId)) hprovides with
        ⟨hinit, hchain⟩ | rfl
      · simp [SupportedChainConfig.addOrUpdate, hinit, hchain]
      · exact ⟨rfl, rfl⟩
  | @tokenSet _ _ chainId tokenId _ _ _ _ hfee hprovides hstores =>
      apply keeps_of_stores hstores
      rcases Ledger.Keeps.provides (hwf (.tokenConfig chainId tokenId)) hprovides with
        ⟨hinit, hchain, htoken, -⟩ | rfl
      · simp [TokenConfig.addOrUpdate, hinit, hchain, htoken, hfee]
      · exact ⟨rfl, rfl, rfl, hfee⟩
  | memberListed _ _ hstores => exact keeps_of_stores hstores ⟨rfl, rfl⟩
  | @submitterCreated _ _ _ submitter _ _ _ hprovides hstores =>
      apply keeps_of_stores hstores
      rcases Ledger.Keeps.provides (hwf (.submitter submitter)) hprovides with
        ⟨hinit, -⟩ | rfl
      · simp [Submitter.create, hinit]
      · exact ⟨rfl, rfl⟩
  | memberSet _ hstores =>
      apply keeps_of_stores hstores
      simp only [Committee.addOrUpdate]
      split <;> simp_all
  | @submitterSet _ _ submitter _ _ hprovides hstores =>
      apply keeps_of_stores hstores
      rcases Ledger.Keeps.provides (hwf (.submitter submitter)) hprovides with
        ⟨hinit, -⟩ | rfl
      · simp [Submitter.addOrUpdate, hinit]
      · exact ⟨rfl, rfl⟩
  | chainMinted hstores _ hstores' =>
      have hkeys := Ledger.Keeps.of_stores (hwf (.supportedChain _)) hstores
      exact keeps_of_stores hstores' hkeys
  | tokenMinted hstores _ hstores' =>
      have hkeys := Ledger.Keeps.of_stores (hwf (.tokenConfig _ _)) hstores
      exact keeps_of_stores hstores' hkeys
  | limiterMinted hstores htransfer hstores' =>
      obtain ⟨hinit, htoken⟩ :=
        Ledger.Keeps.of_stores (hwf (.limiter _ _)) hstores
      obtain ⟨hinit', -, htoken', -⟩ := checkTransfer_fields htransfer
      exact keeps_of_stores hstores'
        ⟨hinit'.trans hinit, htoken'.trans htoken⟩
  | nonceMinted _ hdata => exact .inr ⟨_, hdata⟩
  | supplyMinted _ hmint => exact .inr ⟨_, hmint⟩
  | nonceWithdrawn _ _ hstores => exact keeps_of_stores hstores trivial
  | supplyWithdrawn _ hmint => exact .inr ⟨_, hmint⟩
  | nonceLimited _ _ _ hstores => exact keeps_of_stores hstores trivial
  | @limiterSet ctx _ _ msg _ hprovides hstores =>
      apply keeps_of_stores hstores
      refine ⟨(updateLimiter_initialized _ _ _).1, ?_⟩
      rcases Ledger.Keeps.provides (hwf (.limiter msg.targetChainId msg.tokenId))
        hprovides with ⟨hinit, htoken⟩ | rfl
      · simp [updateLimiter, hinit, htoken]
      · rfl

theorem wellFormed_step {host : Host} {e : BridgeRecord} (hwf : WellFormed e.pre)
    (hstep : IsStep (step host) e) : WellFormed e.post := by
  intro p
  rcases step_evolves hwf hstep p with heq | hchange
  · exact admits_congr heq (hwf p)
  · exact admits_of_change hwf hchange

theorem execute_wellFormed (host : Host) (inputs : List Input) :
    WellFormed (execute host inputs).state :=
  run_invariant wellFormed_empty (fun _ hwf hstep => wellFormed_step hwf hstep)
    inputs

theorem wellFormed_pre {host : Host} {inputs : List Input} {e : BridgeRecord}
    (h : e ∈ (execute host inputs).log) : WellFormed e.pre :=
  run_invariant_pre wellFormed_empty
    (fun _ hwf hstep => wellFormed_step hwf hstep) h

end SolBtcBridge.Effects
