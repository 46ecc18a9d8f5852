import SolBtcBridge.Properties.AdminAcceptance
import SolBtcBridge.Properties.Restrictions
import SolBtcBridge.Properties.Revocation

/-!
# The brakes of the administrator

An administrator can blocklist a member, dismiss a submitter, close a chain and
pause a token.  Nothing that anybody does after the bridge was created takes
one of these brakes away, and each acts on the very next instruction.
-/

namespace SolBtcBridge.Properties

open SolBtcBridge.Foundation
open SolBtcBridge.Runtime
open SolBtcBridge.Program
open SolBtcBridge.Effects

inductive Brake where
  | blocklistMember (committee : Pubkey) (stake : U16)
  | dismissSubmitter (submitter : Pubkey)
  | closeChain (supportedChainId : U8)
  | pauseToken (supportedChainId tokenId : U8)
      (tokenFeePercentages tokenMinAmount : U64)

namespace Brake

def input (administrator : Pubkey) (chainId : U8) : Brake → Input
  | blocklistMember committee stake =>
      .addOrUpdateCommittee administrator chainId committee stake true
  | dismissSubmitter submitter =>
      .addOrUpdateSubmitter administrator chainId submitter false
  | closeChain supportedChainId =>
      .addOrUpdateChain administrator chainId supportedChainId false
  | pauseToken supportedChainId tokenId tokenFeePercentages tokenMinAmount =>
      .addOrUpdateChainToken administrator chainId supportedChainId tokenId
        tokenFeePercentages tokenMinAmount true

/-- The arguments make sense; a chain that was never listed needs no pause. -/
def Applies (L : Ledger) (chainId : U8) : Brake → Prop
  | blocklistMember _ _ => True
  | dismissSubmitter _ => True
  | closeChain supportedChainId => chainId ≠ supportedChainId
  | pauseToken supportedChainId _ tokenFeePercentages _ =>
      chainId ≠ supportedChainId ∧
        ¬ L.Vacant (Pda.supportedChain supportedChainId).address ∧
        tokenFeePercentages.toNat < Constants.feeDenominator

/-- The inputs that the brake is there to stop. -/
def Stops : Brake → Input → Prop
  | blocklistMember committee _ => SignedBy committee
  | dismissSubmitter submitter => fun i => submittedBy submitter i = true
  | closeChain supportedChainId => fun i =>
      concernsChain supportedChainId i = true
  | pauseToken supportedChainId tokenId _ _ => fun i =>
      concernsToken supportedChainId tokenId i = true

end Brake

section

variable {host : Host} {L L' : Ledger} {administrator : Pubkey} {chainId : U8}

private theorem Brake.admissible {brake : Brake}
    (hadmin : Administered L administrator chainId)
    (h : brake.Applies L chainId) :
    AdminAdmissible host L (brake.input administrator chainId) := by
  cases brake with
  | blocklistMember => exact hadmin
  | dismissSubmitter => exact hadmin
  | closeChain => exact ⟨hadmin, h⟩
  | pauseToken => exact ⟨hadmin, h⟩

private theorem Brake.rejected {brake : Brake} {events : List Event}
    (hwf : WellFormed L)
    (h : step host L (brake.input administrator chainId) = .ok (L', events))
    {i : Input} (hi : brake.Stops i) : Rejected host L' i := by
  have hstep : IsStep (step host)
      (⟨L, brake.input administrator chainId, events, L'⟩ : BridgeRecord) := h
  have hwf' : WellFormed L' := wellFormed_step hwf hstep
  cases brake with
  | blocklistMember committee stake =>
      have hflag : memberFlag committee L' = some true :=
        memberFlag_set hstep (by simp [setsMember, input])
      exact rejected_of_memberBarred hwf' (memberBarred_of_flag hwf' hflag) hi
  | dismissSubmitter submitter =>
      have hflag : submitterFlag submitter L' = some false :=
        submitterFlag_set hstep (by simp [setsSubmitter, input])
      rintro ⟨L'', events'⟩ hsubmitted
      have hset := submitterFlag_of_submitted
        (e := ⟨L', i, events', L''⟩) hwf' hsubmitted hi
      rw [hset] at hflag
      cases hflag
  | closeChain supportedChainId =>
      have hflag : chainFlag supportedChainId L' = some false :=
        chainFlag_set hstep (by simp [setsChain, input])
      exact rejected_of_chainFlag hwf' hflag hi
  | pauseToken supportedChainId tokenId =>
      have hflag : tokenFlag supportedChainId tokenId L' = some true :=
        tokenFlag_set hstep (by simp [setsToken, input])
      exact rejected_of_tokenFlag hwf' hflag hi

end

private theorem bridge_outlives {host : Host} {inputs : List Input} {b : U8}
    {r : BridgeConfig} (later : List Input)
    (h : (execute host inputs).state.Stores (Pda.bridgeConfig b).address r) :
    (execute host (inputs ++ later)).state.Stores (Pda.bridgeConfig b).address
      r := by
  rw [execute, run_append]
  exact (run_invariant
    (I := fun L => WellFormed L ∧ L.Stores (Pda.bridgeConfig b).address r)
    ⟨execute_wellFormed host inputs, h⟩
    (fun _ hinv hstep => ⟨wellFormed_step hinv.1 hstep,
      bridge_kept hinv.1 hstep hinv.2⟩) later).2

/--
Once a bridge exists its administrator can pull each brake at any later time,
and the next state refuses what the brake is there to stop.
-/
theorem brakes_available (host : Host) (inputs later : List Input) (b : U8)
    (r : BridgeConfig) (brake : Brake)
    (hcreated : (execute host inputs).state.Stores
      (Pda.bridgeConfig b).address r)
    (happlies : brake.Applies (execute host (inputs ++ later)).state b) :
    ∃ L' events,
      step host (execute host (inputs ++ later)).state (brake.input r.admin b) =
        .ok (L', events) ∧
      ∀ i, brake.Stops i → Rejected host L' i := by
  have hwf := execute_wellFormed host (inputs ++ later)
  have hadmin : Administered (execute host (inputs ++ later)).state r.admin b :=
    ⟨r, bridge_outlives later hcreated, rfl⟩
  have haccepted : IsAdministrative (brake.input r.admin b) ∧
      ∃ out, step host (execute host (inputs ++ later)).state
        (brake.input r.admin b) = .ok out :=
    (admin_isOk_iff hwf (execute_mintsOwned _) (execute_rentExempt host _)
      _).mpr (brake.admissible hadmin happlies)
  rcases haccepted.2 with ⟨⟨L', events⟩, hstep⟩
  exact ⟨L', events, hstep, fun i hi => Brake.rejected hwf hstep hi⟩

theorem brakes_available_sample :
    ∃ L' events,
      step sampleHost (execute sampleHost
          ([sampleBridge] ++ [sampleCommittee, sampleLimiter, sampleMint])).state
          (.addOrUpdateChainToken sampleAdmin 1 2 0 0 0 true) =
        .ok (L', events) ∧
      ∀ i, concernsToken 2 0 i = true → Rejected sampleHost L' i := by
  have hfetch : ((execute sampleHost [sampleBridge]).state.fetch BridgeConfig
      (Pda.bridgeConfig 1).address).map BridgeConfig.admin =
        some sampleAdmin := by
    decide +kernel
  rw [Option.map_eq_some_iff] at hfetch
  rcases hfetch with ⟨r, hfetch, hadmin⟩
  have hwf := execute_wellFormed sampleHost [sampleBridge]
  have hresult := brakes_available sampleHost [sampleBridge]
    [sampleCommittee, sampleLimiter, sampleMint] 1 r (.pauseToken 2 0 0 0)
    ((hwf (.bridgeConfig 1)).fetch_eq_some.mp hfetch)
    ⟨by decide, by decide +kernel, by decide⟩
  rwa [hadmin] at hresult

end SolBtcBridge.Properties
