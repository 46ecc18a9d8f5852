import SolBtcBridge.Effects.Custody

/-!
# Bridges for good

A bridge record and its mint are created together and once.  Afterwards no
instruction changes the record, so the pause flag that the transfers check
stays false.
-/

namespace SolBtcBridge.Effects

open SolBtcBridge.Foundation
open SolBtcBridge.Runtime
open SolBtcBridge.Program

/-- The input creates the bridge with this administrator and fee recipient. -/
def Creates (b : U8) (admin feeRecipient : Pubkey) : Input → Prop
  | .createBridgeConfig _ payer chainId _ _ _ administrator recipient _ _ _ _ =>
      payer = Constants.supperAdmin ∧ chainId = b ∧ administrator = admin ∧
        recipient = feeRecipient ∧ admin ≠ 0 ∧ feeRecipient ≠ 0
  | _ => False

section

variable {host : Host} {e : BridgeRecord} {b : U8}

variable {L : Ledger} {chainId : U8} {administrator feeRecipient : Pubkey}
  {entries : List TokenEntry}

theorem placeAll_openBridge_stores :
    ((openBridge host L chainId administrator feeRecipient).placeAll
      (entryPlacements entries)).Stores (Pda.bridgeConfig chainId).address
        (createdConfig host chainId administrator feeRecipient) := by
  rw [Ledger.Stores, Ledger.placeAll_of_ne _ fun p hp =>
    (entry_ne_bridge hp).symm]
  exact openBridge_stores

theorem placeAll_openBridge_mint :
    (((openBridge host L chainId administrator feeRecipient).placeAll
      (entryPlacements entries)) (Pda.sbtcMint chainId).address).body =
        .mint ⟨(Pda.sbtcMint chainId).address, 0⟩ := by
  rw [Ledger.placeAll_of_ne]
  · exact openBridge_mint
  · intro p hp
    rcases mem_entryPlacements.mp hp with ⟨entry, -, rfl | rfl⟩
    · simp [tokenPlacement]
    · simp [chainPlacement]

theorem bridge_step (hwf : WellFormed e.pre) (hstep : IsStep (step host) e) :
    (e.post (Pda.bridgeConfig b).address).body =
        (e.pre (Pda.bridgeConfig b).address).body ∨
      ∃ admin feeRecipient, Creates b admin feeRecipient e.input ∧
        e.pre.Vacant (Pda.bridgeConfig b).address ∧
        e.post.Stores (Pda.bridgeConfig b).address
          (createdConfig host b admin feeRecipient) ∧
        ∃ m, (e.post (Pda.sbtcMint b).address).body = .mint m := by
  obtain ⟨L, input, events, L'⟩ := e
  rcases step_evolves hwf hstep (.bridgeConfig b) with heq | hchange
  · exact .inl heq
  · right
    cases hchange with
    | @bridgeCreated ctx payer _ name symbol uri administrator feeRecipient ids
        chains fees minimums record hvacant =>
        rcases createBridgeConfig_eq_ok.mp hstep with ⟨-, ⟨hpayer, hfee, hadmin,
          -⟩, -, -, -, -, hpost, -⟩
        simp only at hpost
        subst hpost
        refine ⟨administrator, feeRecipient, ⟨hpayer, rfl, rfl, rfl, hadmin,
          hfee⟩, hvacant, placeAll_openBridge_stores, _,
          placeAll_openBridge_mint⟩

theorem bridge_kept {r : BridgeConfig} (hwf : WellFormed e.pre)
    (hstep : IsStep (step host) e)
    (h : e.pre.Stores (Pda.bridgeConfig b).address r) :
    e.post.Stores (Pda.bridgeConfig b).address r := by
  rcases bridge_step (b := b) hwf hstep with hsame | ⟨_, _, -, hvacant, -⟩
  · rw [Ledger.Stores, hsame]
    exact h
  · exact absurd hvacant h.not_vacant

/-- A bridge record is as it was created, and its mint exists. -/
def Established (host : Host) (L : Ledger) : Prop :=
  ∀ b r, L.Stores (Pda.bridgeConfig b).address r →
    (∃ admin feeRecipient, r = createdConfig host b admin feeRecipient) ∧
      ∃ m, (L (Pda.sbtcMint b).address).body = .mint m

private theorem established_empty (host : Host) :
    Established host Ledger.empty :=
  fun _ _ h => absurd rfl h.not_vacant

private theorem established_step (h : Established host e.pre)
    (hwf : WellFormed e.pre) (hstep : IsStep (step host) e) :
    Established host e.post := by
  intro b r hstored
  rcases bridge_step (b := b) hwf hstep with
    hsame | ⟨admin, feeRecipient, -, -, hstores, hmint⟩
  · have hbefore : e.pre.Stores (Pda.bridgeConfig b).address r := by
      rw [Ledger.Stores, ← hsame]
      exact hstored
    rcases h b r hbefore with ⟨hcreated, m, hmint⟩
    have hpersists := (step_moves hstep).persists (Pda.sbtcMint b).address
    rw [hmint] at hpersists
    refine ⟨hcreated, ?_⟩
    cases hbody : (e.post (Pda.sbtcMint b).address).body with
    | mint m' => exact ⟨m', rfl⟩
    | _ =>
        rw [hbody] at hpersists
        cases hpersists
  · exact ⟨⟨admin, feeRecipient, hstored.unique hstores⟩, hmint⟩

theorem execute_established (host : Host) (inputs : List Input) :
    Established host (execute host inputs).state :=
  (run_invariant (I := fun L => WellFormed L ∧ Established host L)
    ⟨wellFormed_empty, established_empty host⟩
    (fun _ h hstep => ⟨wellFormed_step h.1 hstep,
      established_step h.2 h.1 hstep⟩) inputs).2

end

end SolBtcBridge.Effects
