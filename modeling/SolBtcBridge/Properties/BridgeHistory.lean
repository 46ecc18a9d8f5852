import SolBtcBridge.Effects.Bridges

/-!
# The history of a bridge record

The bridge record has a pause flag, an administrator and a fee recipient, and
the program has no instruction that changes any of them.  What a run has stored
for a bridge is exactly what its creations have asked for.
-/

namespace SolBtcBridge.Properties

open SolBtcBridge.Foundation
open SolBtcBridge.Runtime
open SolBtcBridge.Program
open SolBtcBridge.Effects

/-- The record that an accepted input writes for the bridge, if it creates it. -/
def creation (host : Host) (b : U8) (e : BridgeRecord) : Option BridgeConfig :=
  match e.input with
  | .createBridgeConfig _ _ chainId _ _ _ administrator feeRecipient _ _ _ _ =>
      if chainId = b then some (createdConfig host b administrator feeRecipient)
      else none
  | _ => none

section

variable {host : Host} {b : U8} {e : BridgeRecord}

private theorem creation_eq_some {r : BridgeConfig}
    (hstep : IsStep (step host) e) (h : creation host b e = some r) :
    (∃ admin feeRecipient, Creates b admin feeRecipient e.input ∧
      r = createdConfig host b admin feeRecipient) ∧
      e.pre.Vacant (Pda.bridgeConfig b).address ∧
      e.post.Stores (Pda.bridgeConfig b).address r := by
  rcases e with ⟨L, input, events, L'⟩
  cases input with
  | createBridgeConfig ctx payer chainId name symbol uri administrator
      feeRecipient ids chains fees minimums =>
      simp only [creation] at h
      split at h
      · rename_i hchain
        subst hchain
        cases h
        rcases createBridgeConfig_eq_ok.mp hstep with ⟨⟨hvacant, -⟩, ⟨hpayer, hfee,
          hadmin, -⟩, -, -, -, -, hpost, -⟩
        simp only at hpost
        subst hpost
        exact ⟨⟨administrator, feeRecipient,
          ⟨hpayer, rfl, rfl, rfl, hadmin, hfee⟩, rfl⟩, hvacant,
          placeAll_openBridge_stores⟩
      · cases h
  | _ => cases h

private theorem creation_of_creates {admin feeRecipient : Pubkey}
    (h : Creates b admin feeRecipient e.input) :
    creation host b e = some (createdConfig host b admin feeRecipient) := by
  rcases e with ⟨L, input, events, L'⟩
  cases input with
  | createBridgeConfig =>
      rcases h with ⟨-, rfl, rfl, rfl, -⟩
      exact if_pos rfl
  | _ => cases h

private theorem creation_writes (hwf : WellFormed e.pre)
    (hstep : IsStep (step host) e) :
    (creation host b e = none →
      e.post.fetch BridgeConfig (Pda.bridgeConfig b).address =
        e.pre.fetch BridgeConfig (Pda.bridgeConfig b).address) ∧
    ∀ r, creation host b e = some r →
      e.pre.fetch BridgeConfig (Pda.bridgeConfig b).address = none ∧
      e.post.fetch BridgeConfig (Pda.bridgeConfig b).address = some r := by
  constructor
  · intro hnone
    rcases bridge_step (b := b) hwf hstep with
      hsame | ⟨admin, feeRecipient, hcreates, -⟩
    · exact Ledger.fetch_congr hsame
    · rw [creation_of_creates hcreates] at hnone
      cases hnone
  · intro r hr
    rcases creation_eq_some hstep hr with ⟨-, hvacant, hstores⟩
    exact ⟨Ledger.fetch_eq_none_of_system hvacant, hstores.fetch⟩

end

/--
The creations of a bridge in a run are the record it has in the end: none, or
one by the super administrator, which nothing changes and which never pauses.
-/
theorem bridge_history (host : Host) (inputs : List Input) (b : U8) :
    (execute host inputs).log.filterMap (creation host b) =
        ((execute host inputs).state.fetch BridgeConfig
          (Pda.bridgeConfig b).address).toList ∧
      (∀ e ∈ (execute host inputs).log, ∀ r, creation host b e = some r →
        ∃ admin feeRecipient, Creates b admin feeRecipient e.input) ∧
      ∀ r, (execute host inputs).state.fetch BridgeConfig
        (Pda.bridgeConfig b).address = some r →
          r.withdrawPaused = false ∧
          ∀ later, (execute host (inputs ++ later)).state.fetch BridgeConfig
            (Pda.bridgeConfig b).address = some r := by
  have hslot : ∀ inputs : List Input,
      (execute host inputs).log.filterMap (creation host b) =
        ((execute host inputs).state.fetch BridgeConfig
          (Pda.bridgeConfig b).address).toList :=
    run_slot (f := fun L : Ledger =>
        L.fetch BridgeConfig (Pda.bridgeConfig b).address) (creation host b)
      wellFormed_empty (Ledger.fetch_eq_none_of_system rfl)
      (fun _ hwf hstep => ⟨wellFormed_step hwf hstep, creation_writes hwf hstep⟩)
  refine ⟨hslot inputs, ?_, ?_⟩
  · intro e he r hr
    rcases (creation_eq_some (isStep_of_mem he) hr).1 with
      ⟨admin, feeRecipient, hcreates, -⟩
    exact ⟨admin, feeRecipient, hcreates⟩
  · intro r hr
    constructor
    · have hstores : r ∈ ((execute host inputs).state.fetch BridgeConfig
          (Pda.bridgeConfig b).address).toList := by rw [hr]; simp
      rw [← hslot inputs, List.mem_filterMap] at hstores
      rcases hstores with ⟨e, he, hcreation⟩
      rcases (creation_eq_some (isStep_of_mem he) hcreation).1 with ⟨_, _, -, rfl⟩
      rfl
    · intro later
      have hlater := hslot (inputs ++ later)
      have hlog : (execute host (inputs ++ later)).log =
          (execute host inputs).log ++
            (run (step host) (execute host inputs).state later).log := by
        rw [execute, run_append]
        rfl
      rw [hlog, List.filterMap_append, hslot inputs, hr] at hlater
      cases hfetch : (execute host (inputs ++ later)).state.fetch BridgeConfig
          (Pda.bridgeConfig b).address with
      | none =>
          rw [hfetch] at hlater
          cases hlater
      | some r' =>
          rw [hfetch] at hlater
          rw [(List.cons.inj hlater).1]

end SolBtcBridge.Properties
