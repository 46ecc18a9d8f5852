import SolBtcBridge.Effects.Batch
import SolBtcBridge.Properties.Stake

/-!
# Completeness of batch creation

The batch loops take an address with lamports for a record that exists already.
Anybody can send lamports to an address that has none, and then the batch skips
it and still succeeds.
-/

namespace SolBtcBridge.Properties

open SolBtcBridge.Foundation
open SolBtcBridge.Runtime
open SolBtcBridge.Program
open SolBtcBridge.Effects

/-- Somebody has sent lamports to the address, but nothing was created there. -/
def Squatted (L : Ledger) (a : Address) : Prop :=
  L.Vacant a ∧ (L a).lamports ≠ 0

instance (L : Ledger) (a : Address) : Decidable (Squatted L a) :=
  inferInstanceAs (Decidable (_ ∧ _))

/--
The address holds an initialised record afterwards: the one it held before, or
the fresh one if it held none.
-/
structure Complete {T : Type} [AnchorAccount T] (isInitialized : T → Bool)
    (L L' : Ledger) (a : Address) (fresh : Option T) : Prop where
  initialized : ∃ record : T, L'.Stores a record ∧ isInitialized record = true
  unchanged : ∀ record : T, L.Stores a record → L'.Stores a record
  created : L.Vacant a → ∃ record ∈ fresh, L'.Stores a record

section

variable {T : Type} [AnchorAccount T] {isInitialized : T → Bool}
  {L L' : Ledger} {a : Address}

private theorem complete_of_created {t : T} (hvacant : L.Vacant a)
    (hstores : L'.Stores a t) (hinit : isInitialized t = true) :
    Complete isInitialized L L' a (some t) where
  initialized := ⟨t, hstores, hinit⟩
  unchanged := fun _ hrecord => absurd hvacant hrecord.not_vacant
  created := fun _ => ⟨t, rfl, hstores⟩

private theorem complete_iff_of_kept {P : T → Prop} {fresh : Option T}
    (hkeeps : L.Keeps a fun r => isInitialized r = true ∧ P r)
    (hkept : L' a = L a) :
    Complete isInitialized L L' a fresh ↔ ¬ L.Vacant a := by
  constructor
  · intro h hvacant
    rcases h.initialized with ⟨record, hrecord, -⟩
    exact (hrecord.congr hkept.symm).not_vacant hvacant
  · intro hoccupied
    rcases hkeeps with hvacant | ⟨record, hrecord, hinit, -⟩
    · exact absurd hvacant hoccupied
    · exact {
        initialized := ⟨record, hrecord.congr hkept, hinit⟩
        unchanged := fun _ hother => hother.congr hkept
        created := fun hvacant => absurd hvacant hoccupied }

theorem complete_iff {P : T → Prop} {L₁ : Ledger} {ps : List Placement} {t : T}
    {p : Placement} (hkeeps : L.Keeps a fun r => isInitialized r = true ∧ P r)
    (hbefore : L₁ a = L a) (hplaceable : L₁.Placeable ps)
    (hfind : ps.find? (fun q => q.address = a) = some p)
    (hdata : p.data = image t) (hinit : isInitialized t = true) :
    Complete isInitialized L (L₁.placeAll ps) a (some t) ↔ ¬ Squatted L a := by
  by_cases hempty : (L a).lamports = 0
  · -- the address is filled, so it was vacant
    have hfilled : (L₁ a).lamports = 0 := by rwa [hbefore]
    have hvacant : L.Vacant a := by
      have haddress : p.address = a := by simpa using List.find?_some hfind
      have haccepted := Ledger.placeable_iff.mp hplaceable p
        (List.mem_of_find?_eq_some hfind)
      rw [haddress] at haccepted
      rw [Ledger.Vacant, ← hbefore]
      exact (haccepted hfilled).1
    have hstores := Ledger.placeAll_stores hfilled hfind hdata
    exact iff_of_true (complete_of_created hvacant hstores hinit)
      fun hsquatted => hsquatted.2 hempty
  · have hkept : L₁.placeAll ps a = L a := by
      rw [Ledger.placeAll_of_funded ps (by rwa [hbefore]), hbefore]
    rw [complete_iff_of_kept hkeeps hkept, Squatted, and_iff_left hempty]

end

/-! ## The two batches -/

def ConfigComplete (L L' : Ledger) (tokenIds supportedChains : List U8)
    (fees minimums : List U64) : Prop :=
  ∀ pair ∈ supportedChains.zip tokenIds,
    Complete TokenConfig.isInitialized L L'
        (Pda.tokenConfig pair.1 pair.2).address
        ((firstEntry (tokenEntries tokenIds supportedChains fees minimums) pair.1
          pair.2).map TokenEntry.tokenConfig) ∧
      Complete SupportedChainConfig.isInitialized L L'
        (Pda.supportedChain pair.1).address (some (listedChain pair.1))

def CommitteeComplete (L L' : Ledger) (committee : List Pubkey)
    (stake : List U16) : Prop :=
  ∀ key ∈ committee,
    Complete Committee.isInitialized L L' (Pda.committee key).address
      ((firstStake (committee.zip stake) key).map fun member =>
        listedMember member.1 member.2)

private theorem exists_entry_of_pair {tokenIds supportedChains : List U8}
    {fees minimums : List U64} (hfees : tokenIds.length = fees.length)
    (hminimums : tokenIds.length = minimums.length) {pair : U8 × U8}
    (h : pair ∈ supportedChains.zip tokenIds) :
    ∃ entry ∈ tokenEntries tokenIds supportedChains fees minimums,
      IsFor pair.1 pair.2 entry := by
  rcases List.mem_iff_getElem.mp h with ⟨i, hi, rfl⟩
  have hlength := hi
  rw [List.length_zip, Nat.lt_min] at hlength
  rcases hlength with ⟨hchain, htoken⟩
  refine ⟨⟨supportedChains[i], tokenIds[i], fees[i], minimums[i]⟩, ?_, ?_⟩
  · rw [tokenEntries, List.mem_map]
    refine ⟨(supportedChains[i], tokenIds[i], fees[i], minimums[i]), ?_, rfl⟩
    rw [List.mem_iff_getElem]
    refine ⟨i, ?_, ?_⟩
    · simp only [List.length_zip]
      omega
    · simp only [List.getElem_zip]
  · rw [List.getElem_zip]
    exact ⟨rfl, rfl⟩

private theorem configComplete_iff {host : Host} {L L' : Ledger} {ctx : Context}
    {payer : Pubkey} {chainId : U8} {name symbol uri : String}
    {administrator feeRecipient : Pubkey} {tokenIds supportedChains : List U8}
    {fees minimums : List U64} {events : List Event} (hwf : WellFormed L)
    (h : createBridgeConfig host L ctx payer chainId name symbol uri
      administrator feeRecipient tokenIds supportedChains fees minimums =
        .ok (L', events)) :
    ConfigComplete L L' tokenIds supportedChains fees minimums ↔
      ∀ pair ∈ supportedChains.zip tokenIds,
        ¬ Squatted L (Pda.tokenConfig pair.1 pair.2).address ∧
          ¬ Squatted L (Pda.supportedChain pair.1).address := by
  rcases createBridgeConfig_eq_ok.mp h with ⟨-, -, ⟨-, hfees, hminimums⟩, -, -,
    hplaceable, rfl, -⟩
  refine forall₂_congr fun pair hpair => ?_
  rcases exists_entry_of_pair hfees hminimums hpair with ⟨entry, hmem, hentry⟩
  have hsome : (firstEntry (tokenEntries tokenIds supportedChains fees minimums)
      pair.1 pair.2).isSome := by
    rw [firstEntry, List.find?_isSome]
    exact ⟨entry, hmem, by simpa using hentry⟩
  rcases Option.isSome_iff_exists.mp hsome with ⟨first, hfirst⟩
  have hfind := find_tokenPlacement
    (tokenEntries tokenIds supportedChains fees minimums) pair.1 pair.2
  rw [hfirst, Option.map_some] at hfind
  rw [hfirst, Option.map_some,
    complete_iff (t := first.tokenConfig) (hwf (.tokenConfig pair.1 pair.2))
      (openBridge_of_ne (by simp) (by simp)) hplaceable hfind rfl rfl,
    complete_iff (t := listedChain pair.1) (hwf (.supportedChain pair.1))
      (openBridge_of_ne (by simp) (by simp)) hplaceable
      (find_chainPlacement ⟨entry, hmem, hentry.1⟩) rfl rfl]

private theorem committeeComplete_iff {L L' : Ledger} {ctx : Context}
    {payer : Pubkey}
    {chainId : U8} {submitter : Pubkey} {committee : List Pubkey}
    {stake : List U16} {events : List Event} (hwf : WellFormed L)
    (h : createBridgeCommittee L ctx payer chainId submitter committee stake =
      .ok (L', events)) :
    CommitteeComplete L L' committee stake ↔
      ∀ key ∈ committee, ¬ Squatted L (Pda.committee key).address := by
  rcases createBridgeCommittee_eq_ok.mp h with ⟨-, ⟨-, hlength⟩, -, L₁, hupserts,
    hplaceable, rfl, -⟩
  refine forall₂_congr fun key hkey => ?_
  have hsome : (firstStake (committee.zip stake) key).isSome := by
    rw [firstStake, List.find?_isSome]
    have hfirsts : (committee.zip stake).map Prod.fst = committee :=
      List.map_fst_zip (by omega)
    rw [← hfirsts] at hkey
    rcases List.mem_map.mp hkey with ⟨member, hmem, hmember⟩
    exact ⟨member, hmem, by simpa using hmember⟩
  rcases Option.isSome_iff_exists.mp hsome with ⟨first, hfirst⟩
  have hfind := find_memberPlacement (committee.zip stake) key
  rw [hfirst, Option.map_some] at hfind
  rw [hfirst, Option.map_some,
    complete_iff (t := listedMember first.1 first.2) (hwf (.committee key))
      (hupserts.of_ne (by simp)) hplaceable hfind rfl rfl]

/-- A successful batch leaves out exactly the addresses that were squatted. -/
theorem batch_complete_iff (host : Host) (inputs : List Input) :
    (∀ ctx payer chainId name symbol uri administrator feeRecipient tokenIds
        supportedChains fees minimums L' events,
      createBridgeConfig host (execute host inputs).state ctx payer chainId name
          symbol uri administrator feeRecipient tokenIds supportedChains fees
          minimums = .ok (L', events) →
        (ConfigComplete (execute host inputs).state L' tokenIds supportedChains
            fees minimums ↔
          ∀ pair ∈ supportedChains.zip tokenIds,
            ¬ Squatted (execute host inputs).state
                (Pda.tokenConfig pair.1 pair.2).address ∧
              ¬ Squatted (execute host inputs).state
                (Pda.supportedChain pair.1).address)) ∧
    ∀ ctx payer chainId submitter committee stake L' events,
      createBridgeCommittee (execute host inputs).state ctx payer chainId
          submitter committee stake = .ok (L', events) →
        (CommitteeComplete (execute host inputs).state L' committee stake ↔
          ∀ key ∈ committee, ¬ Squatted (execute host inputs).state
            (Pda.committee key).address) := by
  have hwf := execute_wellFormed host inputs
  constructor
  · intro _ _ _ _ _ _ _ _ _ _ _ _ _ _ h
    exact configComplete_iff hwf h
  · intro _ _ _ _ _ _ _ _ h
    exact committeeComplete_iff hwf h

def deployedLedger : Ledger :=
  (execute sampleHost [sampleBridge, sampleCommittee]).state

def secondBridgeContext : Context :=
  sampleContext
    [(Pda.tokenConfig 2 0).address, (Pda.tokenConfig 2 1).address,
      (Pda.tokenConfig 4 0).address, (Pda.supportedChain 2).address,
      (Pda.supportedChain 4).address] [] 0

/--
A second bridge lists a new token of a chain that exists, a token that exists and
a token of a new chain; a second committee lists a member that exists.
-/
theorem batch_complete_iff_sample :
    (∃ L' events,
      createBridgeConfig sampleHost deployedLedger secondBridgeContext
          Constants.supperAdmin 3 "sBTC" "sBTC" "" sampleAdmin sampleFeeRecipient
          [1, 0, 0] [2, 2, 4] [500, 1000, 1000] [10, 0, 0] = .ok (L', events) ∧
        ConfigComplete deployedLedger L' [1, 0, 0] [2, 2, 4] [500, 1000, 1000]
          [10, 0, 0]) ∧
    ∃ L' events,
      createBridgeCommittee deployedLedger (sampleContext memberAccounts [] 0)
          sampleAdmin 1 sampleSubmitter [sampleMember, secondMember]
          [4000, 3000] = .ok (L', events) ∧
        CommitteeComplete deployedLedger L' [sampleMember, secondMember]
          [4000, 3000] := by
  constructor
  · have hok : (createBridgeConfig sampleHost deployedLedger secondBridgeContext
        Constants.supperAdmin 3 "sBTC" "sBTC" "" sampleAdmin sampleFeeRecipient
        [1, 0, 0] [2, 2, 4] [500, 1000, 1000] [10, 0, 0]).isOk = true := by
      decide +kernel
    rcases isOk_eq_true.mp hok with ⟨⟨L', events⟩, h⟩
    refine ⟨L', events, h, ?_⟩
    apply ((batch_complete_iff sampleHost [sampleBridge, sampleCommittee]).1
      _ _ _ _ _ _ _ _ _ _ _ _ _ _ h).mpr
    simp only [List.zip_cons_cons, List.zip_nil_left, List.forall_mem_cons,
      List.not_mem_nil, false_implies, implies_true, and_true]
    refine ⟨⟨?_, ?_⟩, ⟨?_, ?_⟩, ?_, ?_⟩ <;> decide +kernel
  · have hok : (createBridgeCommittee deployedLedger
        (sampleContext memberAccounts [] 0) sampleAdmin 1 sampleSubmitter
        [sampleMember, secondMember] [4000, 3000]).isOk = true := by
      decide +kernel
    rcases isOk_eq_true.mp hok with ⟨⟨L', events⟩, h⟩
    refine ⟨L', events, h, ?_⟩
    apply ((batch_complete_iff sampleHost [sampleBridge, sampleCommittee]).2
      _ _ _ _ _ _ _ _ h).mpr
    rw [List.forall_mem_cons, List.forall_mem_singleton]
    exact ⟨by decide +kernel, by decide +kernel⟩

/-- An outsider pays the rent of an empty account at the token record's address. -/
def squattedLedger : Ledger :=
  (execute sampleHost
    [.sendLamports (Pda.tokenConfig 2 0).address 890880]).state

theorem not_batch_complete_sample :
    ∃ L' events,
      createBridgeConfig sampleHost squattedLedger
          (sampleContext
            [(Pda.tokenConfig 2 0).address, (Pda.supportedChain 2).address] [] 0)
          Constants.supperAdmin 1 "sBTC" "sBTC" "" sampleAdmin sampleFeeRecipient
          [0] [2] [1000] [0] = .ok (L', events) ∧
        ¬ ConfigComplete squattedLedger L' [0] [2] [1000] [0] := by
  have hskipped : ((createBridgeConfig sampleHost squattedLedger
      (sampleContext
        [(Pda.tokenConfig 2 0).address, (Pda.supportedChain 2).address] [] 0)
      Constants.supperAdmin 1 "sBTC" "sBTC" "" sampleAdmin sampleFeeRecipient
      [0] [2] [1000] [0]).map fun result =>
        decide (result.1.Vacant (Pda.tokenConfig 2 0).address)) = .ok true := by
    decide +kernel
  cases hrun : createBridgeConfig sampleHost squattedLedger
      (sampleContext
        [(Pda.tokenConfig 2 0).address, (Pda.supportedChain 2).address] [] 0)
      Constants.supperAdmin 1 "sBTC" "sBTC" "" sampleAdmin sampleFeeRecipient
      [0] [2] [1000] [0] with
  | error failure =>
      rw [hrun] at hskipped
      contradiction
  | ok result =>
      rw [hrun] at hskipped
      refine ⟨result.1, result.2, rfl, fun h => ?_⟩
      rcases (h (2, 0) List.mem_cons_self).1.initialized with ⟨record, hrecord, -⟩
      exact hrecord.not_vacant (of_decide_eq_true (Except.ok.inj hskipped))

end SolBtcBridge.Properties
