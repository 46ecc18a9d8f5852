import SolBtcBridge.Effects.Step
import SolBtcBridge.Foundation.Lists

/-!
# Replay protection and event order

A mint consumes the address of its (source chain, nonce) pair; a withdrawal
and a limiter update each advance one counter that serves the whole program.
-/

namespace SolBtcBridge.Properties

open SolBtcBridge.Foundation
open SolBtcBridge.Runtime
open SolBtcBridge.Program
open SolBtcBridge.Effects

def mintsNonce (sourceChainId : U8) (nonce : U64) (e : BridgeRecord) : Bool :=
  match e.input with
  | .mintSbtcWithSignatures _ _ _ msg =>
      msg.sourceChainId = sourceChainId && msg.nonce = nonce
  | _ => false

private theorem mintsNonce_eq_true {sourceChainId : U8} {nonce : U64}
    {e : BridgeRecord} (h : mintsNonce sourceChainId nonce e = true) :
    ∃ ctx submitter signatures msg,
      e.input = .mintSbtcWithSignatures ctx submitter signatures msg ∧
        msg.sourceChainId = sourceChainId ∧ msg.nonce = nonce := by
  unfold mintsNonce at h
  split at h
  · rename_i heq
    simp only [Bool.and_eq_true, decide_eq_true_eq] at h
    exact ⟨_, _, _, _, heq, h⟩
  · contradiction

theorem mintNonce_consumed {host : Host} {e : BridgeRecord} {c : U8} {n : U64}
    (hwf : WellFormed e.pre) (hstep : IsStep (step host) e)
    (h : mintsNonce c n e = true) :
    e.pre.Vacant (Pda.mintNonce c n).address ∧
      ¬ e.post.Vacant (Pda.mintNonce c n).address := by
  obtain ⟨ctx, submitter, signatures, msg, hinput, rfl, rfl⟩ :=
    mintsNonce_eq_true h
  rw [IsStep, hinput] at hstep
  obtain ⟨effect⟩ := mintEffect_of_ok hwf hstep
  obtain ⟨data, hdata⟩ := effect.nonceTaken
  refine ⟨effect.nonceVacant, fun hvacant => ?_⟩
  rw [Ledger.Vacant, hdata] at hvacant
  contradiction

theorem mintNonce_kept {host : Host} {e : BridgeRecord} {c : U8} {n : U64}
    (hwf : WellFormed e.pre) (hstep : IsStep (step host) e)
    (h : mintsNonce c n e = false) :
    (e.post (Pda.mintNonce c n).address).body =
      (e.pre (Pda.mintNonce c n).address).body := by
  obtain ⟨L, input, events, L'⟩ := e
  rcases step_evolves hwf hstep (.mintNonce c n) with heq | hchange
  · exact heq
  · cases hchange with
    | nonceMinted => simp [mintsNonce] at h

theorem mint_at_most_once (host : Host) (inputs : List Input)
    (sourceChainId : U8) (nonce : U64) :
    ((execute host inputs).log.filter
        (mintsNonce sourceChainId nonce)).length ≤ 1 ∧
      ∀ e ∈ (execute host inputs).log,
        mintsNonce sourceChainId nonce e = false →
        (e.post (Pda.mintNonce sourceChainId nonce).address).body =
          (e.pre (Pda.mintNonce sourceChainId nonce).address).body := by
  constructor
  · apply run_once (mintsNonce sourceChainId nonce) (fun L =>
      ¬ L.Vacant (Pda.mintNonce sourceChainId nonce).address) wellFormed_empty
    intro e hwf hstep
    refine ⟨wellFormed_step hwf hstep, ?_, ?_⟩
    · intro htaken
      cases hmints : mintsNonce sourceChainId nonce e with
      | true => exact (mintNonce_consumed hwf hstep hmints).2
      | false =>
          rwa [Ledger.Vacant, mintNonce_kept hwf hstep hmints]
    · intro hmints
      obtain ⟨hvacant, htaken⟩ := mintNonce_consumed hwf hstep hmints
      exact ⟨not_not.mpr hvacant, htaken⟩
  · intro e he hmints
    exact mintNonce_kept (wellFormed_pre he) (isStep_of_mem he) hmints

def counter (op : Operation) (L : Ledger) : Nat :=
  ((L.fetch Nonces (Pda.operationNonce op).address).map
    fun r => r.nonce.toNat).getD 0

theorem counter_of_stores {L : Ledger} {op : Operation} {record : Nonces}
    (h : L.Stores (Pda.operationNonce op).address record) :
    counter op L = record.nonce.toNat := by
  simp [counter, h.fetch]

theorem counter_of_provides {L : Ledger} {op : Operation} {record : Nonces}
    (h : L.Provides (Pda.operationNonce op).address record) :
    counter op L = record.nonce.toNat := by
  rcases h with hstores | ⟨hvacant, rfl⟩
  · exact counter_of_stores hstores
  · rw [counter, hvacant.fetch]
    rfl

theorem counter_congr {L L' : Ledger} {op : Operation}
    (h : (L' (Pda.operationNonce op).address).body =
      (L (Pda.operationNonce op).address).body) :
    counter op L' = counter op L := by
  rw [counter, counter, Ledger.fetch_congr h]

theorem counter_empty (op : Operation) : counter op Ledger.empty = 0 := by
  rw [counter, Ledger.fetch_eq_none_of_system rfl]
  rfl

/-! ## Withdrawals -/

def withdrawal (e : BridgeRecord) : Option (List Event) :=
  match e.input with
  | .withdrawBtc _ _ _ => some e.output
  | _ => none

def withdrawals (log : List BridgeRecord) : List (List Event) :=
  log.filterMap withdrawal

def announcedNonce (events : List Event) : Nat :=
  match events with
  | [.withdrawBtc event] => event.nonce.toNat
  | _ => 0

private theorem withdrawal_counts {host : Host} {e : BridgeRecord}
    {events : List Event} (hwf : WellFormed e.pre)
    (hstep : IsStep (step host) e) (h : withdrawal e = some events) :
    (∃ event, events = [.withdrawBtc event]) ∧
      announcedNonce events = counter .tokenTransfer e.pre + 1 ∧
      counter .tokenTransfer e.post = counter .tokenTransfer e.pre + 1 := by
  obtain ⟨L, input, output, L'⟩ := e
  cases input with
  | withdrawBtc ctx user msg =>
      obtain rfl : output = events := by simpa [withdrawal] using h
      obtain ⟨effect⟩ := withdrawEffect_of_ok hwf hstep
      have hpre := counter_of_provides effect.nonceProvided
      have hpost := counter_of_stores effect.nonceStored'
      have hnext := effect.nextNonce
      have hevents := effect.events_eq
      simp only at hevents hpre hpost
      refine ⟨⟨_, hevents⟩, ?_, ?_⟩
      · rw [hevents, hpre]
        exact hnext
      · rw [hpre, hpost, hnext]
  | _ => simp [withdrawal] at h

theorem withdrawNonce_kept {host : Host} {e : BridgeRecord}
    (hwf : WellFormed e.pre) (hstep : IsStep (step host) e)
    (h : withdrawal e = none) :
    (e.post (Pda.operationNonce .tokenTransfer).address).body =
      (e.pre (Pda.operationNonce .tokenTransfer).address).body := by
  obtain ⟨L, input, output, L'⟩ := e
  rcases step_evolves hwf hstep (.operationNonce .tokenTransfer) with
    heq | hchange
  · exact heq
  · cases hchange with
    | nonceWithdrawn => simp [withdrawal] at h

/-- The withdrawal log has no gaps and no duplicates. -/
theorem withdrawal_log_consecutive (host : Host) (inputs : List Input) :
    (∀ k events, (withdrawals (execute host inputs).log)[k]? = some events →
      ∃ event, events = [.withdrawBtc event] ∧ event.nonce.toNat = k + 1) ∧
    ∀ e ∈ (execute host inputs).log, withdrawal e = none →
      (e.post (Pda.operationNonce .tokenTransfer).address).body =
        (e.pre (Pda.operationNonce .tokenTransfer).address).body := by
  have hrange : (withdrawals (execute host inputs).log).map announcedNonce =
      List.range' (counter .tokenTransfer Ledger.empty + 1) _ :=
    run_counter withdrawal announcedNonce 1 wellFormed_empty
    (fun _ hwf hstep => wellFormed_step hwf hstep)
    (fun _ hwf hstep hnone => counter_congr (withdrawNonce_kept hwf hstep hnone))
    (fun _ _ hwf hstep hsome => (withdrawal_counts hwf hstep
      hsome).2) inputs
  constructor
  · intro k events hget
    have hmem := List.mem_of_getElem? hget
    obtain ⟨e, he, hwithdrawal⟩ := List.mem_filterMap.mp hmem
    obtain ⟨⟨event, rfl⟩, -⟩ :=
      withdrawal_counts (wellFormed_pre he) (isStep_of_mem he) hwithdrawal
    have hnumber := getElem?_of_map_eq_range' hrange hget
    rw [counter_empty] at hnumber
    exact ⟨event, rfl, by simp only [announcedNonce] at hnumber; omega⟩
  · intro e he hwithdrawal
    exact withdrawNonce_kept (wellFormed_pre he) (isStep_of_mem he) hwithdrawal

/-! ## Limiter updates -/

def limiterUpdate (e : BridgeRecord) : Option UpdateLimiterMsg :=
  match e.input with
  | .addOrUpdateLimiterWithSignatures _ _ _ msg => some msg
  | _ => none

def limiterUpdates (log : List BridgeRecord) : List UpdateLimiterMsg :=
  log.filterMap limiterUpdate

private theorem limiterUpdate_counts {host : Host} {e : BridgeRecord}
    {msg : UpdateLimiterMsg} (hwf : WellFormed e.pre)
    (hstep : IsStep (step host) e) (h : limiterUpdate e = some msg) :
    msg.nonce.toNat = counter .updateBridgeLimit e.pre ∧
      counter .updateBridgeLimit e.post =
        counter .updateBridgeLimit e.pre + 1 := by
  obtain ⟨L, input, output, L'⟩ := e
  cases input with
  | addOrUpdateLimiterWithSignatures ctx submitter signatures msg' =>
      obtain rfl : msg' = msg := by simpa [limiterUpdate] using h
      obtain ⟨effect⟩ := limitEffect_of_ok hwf hstep
      have hpre := counter_of_provides effect.nonceProvided
      have hpost := counter_of_stores effect.nonceStored'
      have hnext := effect.nextNonce
      simp only at hpre hpost ⊢
      rw [hpre, hpost, hnext, effect.sameNonce]
      exact ⟨rfl, rfl⟩
  | _ => simp [limiterUpdate] at h

theorem limiterNonce_kept {host : Host} {e : BridgeRecord}
    (hwf : WellFormed e.pre) (hstep : IsStep (step host) e)
    (h : limiterUpdate e = none) :
    (e.post (Pda.operationNonce .updateBridgeLimit).address).body =
      (e.pre (Pda.operationNonce .updateBridgeLimit).address).body := by
  obtain ⟨L, input, output, L'⟩ := e
  rcases step_evolves hwf hstep (.operationNonce .updateBridgeLimit) with
    heq | hchange
  · exact heq
  · cases hchange with
    | nonceLimited => simp [limiterUpdate] at h

private theorem limiterUpdates_range (host : Host) (inputs : List Input) :
    (limiterUpdates (execute host inputs).log).map (fun m => m.nonce.toNat) =
      List.range' 0 (limiterUpdates (execute host inputs).log).length := by
  have hrange : (limiterUpdates (execute host inputs).log).map
      (fun m => m.nonce.toNat) =
        List.range' (counter .updateBridgeLimit Ledger.empty + 0) _ :=
    run_counter limiterUpdate (fun m => m.nonce.toNat) 0 wellFormed_empty
      (fun _ hwf hstep => wellFormed_step hwf hstep)
      (fun _ hwf hstep hnone =>
        counter_congr (limiterNonce_kept hwf hstep hnone))
      (fun _ _ hwf hstep hsome => limiterUpdate_counts hwf hstep hsome) inputs
  rwa [counter_empty, Nat.add_zero] at hrange

def limitInForce (L : Ledger) (chainId tokenId : U8) : Option U64 :=
  (L.fetch ChainTokenLimiter (Pda.limiter chainId tokenId).address).map
    fun r => r.totalLimit

def targets (chainId tokenId : U8) (msg : UpdateLimiterMsg) : Bool :=
  msg.targetChainId = chainId && msg.tokenId = tokenId

private theorem limitInForce_step {host : Host} {e : BridgeRecord} {c t : U8}
    (hwf : WellFormed e.pre) (hstep : IsStep (step host) e) :
    limitInForce e.post c t =
      (((limiterUpdate e).filter (targets c t)).map
        fun m => some m.totalLimit).getD (limitInForce e.pre c t) := by
  obtain ⟨L, input, output, L'⟩ := e
  by_cases hupdate : ∃ msg, limiterUpdate ⟨L, input, output, L'⟩ = some msg ∧
      targets c t msg = true
  · obtain ⟨msg, hmsg, htargets⟩ := hupdate
    cases input with
    | addOrUpdateLimiterWithSignatures ctx submitter signatures msg' =>
        obtain rfl : msg' = msg := by simpa [limiterUpdate] using hmsg
        obtain ⟨effect⟩ := limitEffect_of_ok hwf hstep
        have hids := htargets
        simp only [targets, Bool.and_eq_true, decide_eq_true_eq] at hids
        obtain ⟨rfl, rfl⟩ := hids
        have hfetch := effect.limiterStored'.fetch
        simp only at hfetch ⊢
        simp [limitInForce, hfetch, limiterUpdate, Option.filter_some, htargets,
          updateLimiter_initialized]
    | _ => simp [limiterUpdate] at hmsg
  · have hnone : (limiterUpdate ⟨L, input, output, L'⟩).filter (targets c t) =
        none := by
      cases hcase : limiterUpdate ⟨L, input, output, L'⟩ with
      | none => rfl
      | some msg =>
          rw [Option.filter_eq_none_iff]
          intro m hm htargets
          exact hupdate ⟨m, hcase.trans hm, htargets⟩
    rw [hnone, Option.map_none, Option.getD_none]
    rcases step_evolves hwf hstep (.limiter c t) with heq | hchange
    · simp only [limitInForce, Ledger.fetch_congr heq]
    · cases hchange with
      | limiterMinted hstores htransfer hstores' =>
          simp [limitInForce, hstores.fetch, hstores'.fetch,
            (checkTransfer_fields htransfer).2.2.2.1]
      | limiterSet => simp [limiterUpdate, targets] at hupdate

/-- Limiter updates are totally ordered and applied once. -/
theorem limiter_updates_ordered (host : Host) (inputs : List Input) :
    (∀ k (msg : UpdateLimiterMsg),
      (limiterUpdates (execute host inputs).log)[k]? = some msg →
        msg.nonce.toNat = k) ∧
    (∀ nonce : U64, ((limiterUpdates (execute host inputs).log).filter
      fun m => m.nonce = nonce).length ≤ 1) ∧
    ∀ c t, limitInForce (execute host inputs).state c t =
      (((limiterUpdates (execute host inputs).log).filter (targets c t)).argmax
        fun m => m.nonce.toNat).map fun m => m.totalLimit := by
  have hrange := limiterUpdates_range host inputs
  have hsorted : (limiterUpdates (execute host inputs).log).Pairwise
      fun a b => a.nonce.toNat < b.nonce.toNat := by
    rw [← List.pairwise_map (f := fun m : UpdateLimiterMsg => m.nonce.toNat)
      (R := (· < ·)), hrange]
    exact List.pairwise_lt_range'
  refine ⟨?_, ?_, ?_⟩
  · intro k msg hget
    rw [getElem?_of_map_eq_range' hrange hget, Nat.zero_add]
  · intro nonce
    apply length_le_one_of_increasing (hsorted.filter _)
    intro a ha b hb
    have hnonceA : a.nonce = nonce := by simpa using (List.mem_filter.mp ha).2
    have hnonceB : b.nonce = nonce := by simpa using (List.mem_filter.mp hb).2
    rw [hnonceA, hnonceB]
  · intro c t
    have hregister : limitInForce (execute host inputs).state c t =
        ((execute host inputs).log.filterMap fun e =>
          ((limiterUpdate e).filter (targets c t)).map
            fun m => some m.totalLimit).getLast?.getD
              (limitInForce Ledger.empty c t) :=
      run_register (f := fun L => limitInForce L c t) _ wellFormed_empty
        (fun _ hwf hstep => ⟨wellFormed_step hwf hstep,
          limitInForce_step hwf hstep⟩) inputs
    have hwrites : ((execute host inputs).log.filterMap fun e =>
        ((limiterUpdate e).filter (targets c t)).map
          fun m => some m.totalLimit) =
        ((limiterUpdates (execute host inputs).log).filter (targets c t)).map
          fun m => some m.totalLimit := by
      rw [limiterUpdates, List.filter_filterMap, List.map_filterMap]
    have hstart : limitInForce Ledger.empty c t = none := by
      rw [limitInForce, Ledger.fetch_eq_none_of_system rfl]
      rfl
    rw [hregister, hwrites, hstart, argmax_eq_getLast? (hsorted.filter _),
      List.getLast?_map]
    cases ((limiterUpdates (execute host inputs).log).filter
      (targets c t)).getLast? <;> rfl

end SolBtcBridge.Properties
