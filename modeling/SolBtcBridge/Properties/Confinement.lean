import SolBtcBridge.Effects.Locality
import SolBtcBridge.Effects.Step
import SolBtcBridge.Properties.MintTotals

/-!
# How far the authority of an administrator reaches

The administrator of one bridge writes nothing but shared records.  A transfer
of any bridge is affected only through the shared records that it reads.
-/

namespace SolBtcBridge.Properties

open SolBtcBridge.Foundation
open SolBtcBridge.Runtime
open SolBtcBridge.Program
open SolBtcBridge.Effects

/-- One of the five instructions, authorised by the administrator of a bridge. -/
inductive AdministeredBy (admin : Pubkey) (chainId : U8) : Input → Prop
  | addOrUpdateChain {supportedChainId supported} :
      AdministeredBy admin chainId
        (.addOrUpdateChain admin chainId supportedChainId supported)
  | addOrUpdateChainToken {supportedChainId tokenId fee minimum paused} :
      AdministeredBy admin chainId (.addOrUpdateChainToken admin chainId
        supportedChainId tokenId fee minimum paused)
  | createBridgeCommittee {ctx submitter committee stake} :
      AdministeredBy admin chainId
        (.createBridgeCommittee ctx admin chainId submitter committee stake)
  | addOrUpdateCommittee {member stake isBlocklisted} :
      AdministeredBy admin chainId
        (.addOrUpdateCommittee admin chainId member stake isBlocklisted)
  | addOrUpdateSubmitter {submitter isSubmitter} :
      AdministeredBy admin chainId
        (.addOrUpdateSubmitter admin chainId submitter isSubmitter)

inductive TransfersOn (chainId : U8) : Input → Prop
  | mint {ctx submitter signatures msg} : msg.toChainId = chainId →
      TransfersOn chainId (.mintSbtcWithSignatures ctx submitter signatures msg)
  | withdraw {ctx user msg} : msg.chainId = chainId →
      TransfersOn chainId (.withdrawBtc ctx user msg)

/-- The same error, or the same events and the same supplies and balances. -/
def SameOutcome (x y : Result (Ledger × List Event)) : Prop :=
  Related (fun a b => Ledger.SameTokens a.1 b.1 ∧ a.2 = b.2) x y

private theorem upserts_unshared {T : Type} [AnchorAccount T] {L L' : Ledger}
    {p : Pda} {update : T → T} (hp : isShared p = true)
    (h : L.Upserts p.address update L') : Set.EqOn L L' unshared :=
  fun _ ha => (h.of_ne (ha p hp)).symm

private theorem administered_unshared {host : Host} {e : BridgeRecord}
    {admin : Pubkey} {chainId : U8} (hstep : IsStep (step host) e)
    (hadmin : AdministeredBy admin chainId e.input) :
    Set.EqOn e.pre e.post unshared := by
  rcases e with ⟨L, input, events, L'⟩
  cases hadmin with
  | addOrUpdateChain =>
      rcases addOrUpdateChain_eq_ok.mp hstep with ⟨-, hupserts, -⟩
      exact upserts_unshared rfl hupserts
  | addOrUpdateChainToken =>
      rcases addOrUpdateChainToken_eq_ok.mp hstep with ⟨-, -, -, hupserts, -⟩
      exact upserts_unshared rfl hupserts
  | @createBridgeCommittee ctx submitter committee stake =>
      rcases createBridgeCommittee_eq_ok.mp hstep with ⟨-, -, -, L₁, hupserts, -,
        hplaced, -⟩
      have hfirst : Set.EqOn L L₁ unshared := upserts_unshared rfl hupserts
      intro a ha
      have hmembers : ∀ p ∈ memberPlacements (committee.zip stake),
          a ≠ p.address := by
        intro p hp
        rcases List.mem_map.mp hp with ⟨member, -, rfl⟩
        exact ha (.committee member.1) rfl
      simp only at hplaced ⊢
      rw [hplaced, Ledger.placeAll_of_ne L₁ hmembers, hfirst ha]
  | addOrUpdateCommittee =>
      rcases addOrUpdateCommittee_eq_ok.mp hstep with ⟨-, hupserts, -⟩
      exact upserts_unshared rfl hupserts
  | addOrUpdateSubmitter =>
      rcases addOrUpdateSubmitter_eq_ok.mp hstep with ⟨-, hupserts, -⟩
      exact upserts_unshared rfl hupserts

private theorem run_unshared {host : Host} {L : Ledger}
    {administration : List Input} {admin : Pubkey} {chainId : U8}
    (h : ∀ i ∈ administration, AdministeredBy admin chainId i) :
    Set.EqOn L (run (step host) L administration).state unshared := by
  refine run_invariant_of (I := fun s : Ledger => Set.EqOn L s unshared)
    (fun _ _ => rfl) ?_ h
  intro e hpre hstep hadmin
  exact hpre.trans (administered_unshared hstep hadmin)

private theorem noTokens_of_shared {L : Ledger} (hwf : WellFormed L) {p : Pda}
    (hp : isShared p = true) :
    L.supply p.address = 0 ∧ L.balance p.address = 0 := by
  have hkeeps : ∀ {T : Type} [AnchorAccount T] {P : T → Prop},
      L.Keeps p.address P → L.supply p.address = 0 ∧ L.balance p.address = 0 := by
    intro T _ P h
    rcases h with hvacant | ⟨record, hrecord, -⟩
    · exact Ledger.no_tokens_of_system hvacant
    · exact Ledger.no_tokens_of_bridge hrecord
  have hadmits := hwf p
  cases p with
  | supportedChain | tokenConfig | committee | submitter => exact hkeeps hadmits
  | bridgeConfig | sbtcMint | limiter | operationNonce | mintNonce =>
      contradiction

private theorem sameTokens_of_unshared {L L' : Ledger} (hwf : WellFormed L)
    (hwf' : WellFormed L') (h : Set.EqOn L L' unshared) :
    Ledger.SameTokens L L' := by
  have hcases : ∀ a, L a = L' a ∨
      (L.supply a = 0 ∧ L.balance a = 0) ∧ L'.supply a = 0 ∧ L'.balance a = 0 := by
    intro a
    by_cases ha : a ∈ unshared
    · exact .inl (h ha)
    · rcases exists_of_not_mem_unshared ha with ⟨p, hp, rfl⟩
      exact .inr ⟨noTokens_of_shared hwf hp, noTokens_of_shared hwf' hp⟩
  constructor
  · intro a
    rcases hcases a with heq | ⟨hnone, hnone'⟩
    · exact Ledger.supply_congr (by rw [heq])
    · rw [hnone.1, hnone'.1]
  · intro a
    rcases hcases a with heq | ⟨hnone, hnone'⟩
    · exact Ledger.balance_congr (by rw [heq])
    · rw [hnone.2, hnone'.2]

/-! ## Confinement -/

private theorem sameOutcome_of_observed {host : Host} {L L' : Ledger}
    {chainId : U8} {i : Input} (hwf : WellFormed L) (hwf' : WellFormed L')
    (hi : TransfersOn chainId i) (h : Set.EqOn L L' (observed i)) :
    SameOutcome (step host L i) (step host L' i) := by
  have hlocal : Related (Ledger.Alike (observed i)) (step host L i)
      (step host L' i) := by
    cases hi with
    | mint => exact mintSbtcWithSignatures_local h
    | withdraw => exact withdrawBtc_local h
  refine hlocal.imp fun x y hx hy halike => ⟨?_, halike.2⟩
  exact sameTokens_of_unshared
    (wellFormed_step (e := ⟨L, i, x.2, x.1⟩) hwf hx)
    (wellFormed_step (e := ⟨L', i, y.2, y.1⟩) hwf' hy)
    (halike.1.mono (unshared_subset_observed i))

/--
Whatever the administrator of one bridge does, no other account than a shared
record changes, and a transfer that reads none of the changed records has the
outcome it would have had.
-/
theorem admin_confined (host : Host) (inputs administration : List Input)
    (admin : Pubkey) (chainId : U8)
    (hadmin : ∀ i ∈ administration, AdministeredBy admin chainId i) :
    let before := (execute host inputs).state
    let after := (run (step host) before administration).state
    Set.EqOn before after unshared ∧ Ledger.SameTokens before after ∧
      ∀ otherChainId i, TransfersOn otherChainId i →
        (∀ p, Reads i p → after p.address = before p.address) →
        SameOutcome (step host before i) (step host after i) := by
  intro before after
  have hwf : WellFormed before := execute_wellFormed host inputs
  have hwf' : WellFormed after :=
    run_invariant hwf (fun _ hpre hstep => wellFormed_step hpre hstep)
      administration
  have hframe : Set.EqOn before after unshared := run_unshared hadmin
  refine ⟨hframe, sameTokens_of_unshared hwf hwf' hframe, ?_⟩
  intro otherChainId i hi hreads
  apply sameOutcome_of_observed hwf hwf' hi
  intro a ha
  by_cases hshared : a ∈ unshared
  · exact hframe hshared
  · rcases exists_of_not_mem_unshared hshared with ⟨p, hp, rfl⟩
    exact (hreads p (ha p hp rfl)).symm

def sampleOtherAdmin : Pubkey := 17

def sampleOtherBridge : Input :=
  .createBridgeConfig (sampleContext [] [] 0) Constants.supperAdmin 3 "sBTC"
    "sBTC" "" sampleOtherAdmin sampleFeeRecipient [] [] [] []

def sampleTwoBridges : List Input :=
  [sampleBridge, sampleOtherBridge, sampleCommittee, sampleLimiter]

def sampleAdministration : List Input :=
  [.addOrUpdateChainToken sampleOtherAdmin 3 2 1 500 0 true,
    .addOrUpdateSubmitter sampleOtherAdmin 3 sampleUser true]

private theorem reads_sampleMint {p : Pda} (h : Reads sampleMint p) :
    p ∈ [.submitter sampleSubmitter, .supportedChain 2, .tokenConfig 2 0,
      .committee sampleMember] := by
  generalize hi : sampleMint = i at h
  cases h with
  | mintSubmitter => cases hi; simp
  | mintChain => cases hi; simp [sampleMintMessage]
  | mintToken => cases hi; simp [sampleMintMessage]
  | mintSigner hsigner =>
      cases hi
      rcases hsigner with ⟨index, hindex, hresolved⟩
      have hone : index = 1 := by simpa using hindex
      subst hone
      have hmember : resolveEd25519WithIndex
          [⟨0, [], []⟩, sampleMintInstruction] 1 sampleMintMessage =
            .ok sampleMember := by
        decide +kernel
      have hkey := hresolved.symm.trans hmember
      rw [Except.ok.inj hkey]
      simp
  | withdrawChain => cases hi
  | withdrawToken => cases hi

theorem admin_confined_sample :
    SameOutcome (step sampleHost (execute sampleHost sampleTwoBridges).state
        sampleMint)
      (step sampleHost (run (step sampleHost)
        (execute sampleHost sampleTwoBridges).state sampleAdministration).state
        sampleMint) := by
  refine (admin_confined sampleHost sampleTwoBridges sampleAdministration
    sampleOtherAdmin 3 ?_).2.2 1 sampleMint (.mint rfl) ?_
  · intro i hi
    simp only [sampleAdministration, List.mem_cons, List.not_mem_nil,
      or_false] at hi
    rcases hi with rfl | rfl
    · exact .addOrUpdateChainToken
    · exact .addOrUpdateSubmitter
  · intro p hp
    have hkept : ∀ p ∈ [Pda.submitter sampleSubmitter, .supportedChain 2,
        .tokenConfig 2 0, .committee sampleMember],
        (run (step sampleHost) (execute sampleHost sampleTwoBridges).state
          sampleAdministration).state p.address =
        (execute sampleHost sampleTwoBridges).state p.address := by
      decide +kernel
    exact hkept p (reads_sampleMint hp)

/-- The administrator of bridge 3 pauses the token that bridge 1 is minting. -/
theorem not_admin_confined_sample :
    let before := (execute sampleHost sampleTwoBridges).state
    let pause := Input.addOrUpdateChainToken sampleOtherAdmin 3 2 0 1000 0 true
    ((before.fetch BridgeConfig (Pda.bridgeConfig 3).address).map
        BridgeConfig.admin = some sampleOtherAdmin ∧
      (before.fetch BridgeConfig (Pda.bridgeConfig 1).address).map
        BridgeConfig.admin = some sampleAdmin ∧
      sampleOtherAdmin ≠ sampleAdmin) ∧
    AdministeredBy sampleOtherAdmin 3 pause ∧ TransfersOn 1 sampleMint ∧
    ¬ SameOutcome (step sampleHost before sampleMint)
      (step sampleHost (run (step sampleHost) before [pause]).state
        sampleMint) := by
  intro before pause
  refine ⟨⟨by decide +kernel, by decide +kernel, by decide⟩,
    .addOrUpdateChainToken, .mint rfl, fun h => ?_⟩
  have haccepted : (step sampleHost before sampleMint).isOk = true := by
    decide +kernel
  have hrejected : (step sampleHost (run (step sampleHost) before
      [pause]).state sampleMint).isOk = false := by
    decide +kernel
  have hsame := haccepted.symm.trans ((Related.isOk_eq h).trans hrejected)
  cases hsame

end SolBtcBridge.Properties
