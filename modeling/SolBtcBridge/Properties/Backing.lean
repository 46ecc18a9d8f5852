import SolBtcBridge.Effects.Step

/-!
# Backing of the minted sBTC

The supply of each bridge's sBTC mint is what was minted there less what the
withdrawal events tell the source chains to unlock.  The rest of a withdrawn
amount is the fee, and it arrives at the fee recipient's sBTC account.
-/

namespace SolBtcBridge.Properties

open SolBtcBridge.Foundation
open SolBtcBridge.Runtime
open SolBtcBridge.Program
open SolBtcBridge.Effects

def mintedOn (b : U8) (e : BridgeRecord) : Nat :=
  match mintMessage e.input with
  | some msg => if msg.toChainId = b then msg.amount.toNat else 0
  | none => 0

def withdrawEvents (b : U8) (e : BridgeRecord) : List WithdrawBtcEvent :=
  e.output.filterMap fun
    | .withdrawBtc event => if event.chainId = b then some event else none
    | _ => none

/-- What the step tells the source chains to unlock. -/
def unlockedOn (b : U8) (e : BridgeRecord) : Nat :=
  ((withdrawEvents b e).map fun event => event.amount.toNat).sum

/-- The difference between what was withdrawn and what is unlocked. -/
def chargedOn (b : U8) (e : BridgeRecord) : Int :=
  ((withdrawEvents b e).map fun event =>
    (event.originalAmount.toNat : Int) - event.amount.toNat).sum

def recipientGain (b : U8) (e : BridgeRecord) : Int :=
  match withdrawMessage e.input,
    e.pre.fetch BridgeConfig (Pda.bridgeConfig b).address with
  | some msg, some bridgeConfig =>
      if msg.chainId = b then
        (e.post.balance (feeRecipientSbtcAta bridgeConfig msg) : Int) -
          e.pre.balance (feeRecipientSbtcAta bridgeConfig msg)
      else 0
  | _, _ => 0

private theorem withdrawEvents_of_mint {e : BridgeRecord} {ctx : Context}
    {submitter : Pubkey} {signatures : U8} {msg : MintSbtcMessage} (b : U8)
    (effect : MintEffect e.pre ctx submitter signatures msg e.post e.output) :
    withdrawEvents b e = [] := by
  simp [withdrawEvents, effect.events_eq]

private theorem withdrawEvents_of_neutral {e : BridgeRecord} (b : U8)
    (h : Neutral e) :
    withdrawEvents b e = [] := by
  rw [withdrawEvents, List.filterMap_eq_nil_iff]
  intro event hevent
  obtain ⟨update, rfl⟩ := h.events event hevent
  rfl

theorem supply_step {host : Host} {e : BridgeRecord} (b : U8)
    (hwf : WellFormed e.pre) (hstep : IsStep (step host) e) :
    e.post.supply (Pda.sbtcMint b).address + unlockedOn b e =
      e.pre.supply (Pda.sbtcMint b).address + mintedOn b e := by
  cases stepEffect_of_ok hwf hstep with
  | @mint ctx submitter signatures msg hinput effect =>
      rw [unlockedOn, withdrawEvents_of_mint b effect]
      by_cases hb : msg.toChainId = b
      · subst hb
        simp [mintedOn, mintMessage, hinput, effect.supply]
      · have hother := effect.otherSupply (Pda.sbtcMint b).address
          (by simp [Ne.symm hb])
        simp [mintedOn, mintMessage, hinput, hb, hother]
  | @withdraw ctx user msg hinput effect =>
      have hminted : mintedOn b e = 0 := by simp [mintedOn, mintMessage, hinput]
      rw [hminted, Nat.add_zero]
      by_cases hb : msg.chainId = b
      · subst hb
        have hunlocked : unlockedOn msg.chainId e = effect.amount.toNat := by
          simp [unlockedOn, withdrawEvents, effect.events_eq]
        rw [hunlocked, effect.supply]
      · have hunlocked : unlockedOn b e = 0 := by
          simp [unlockedOn, withdrawEvents, effect.events_eq, hb]
        rw [hunlocked, effect.otherSupply _ (by simp [Ne.symm hb]), Nat.add_zero]
  | neutral hneutral =>
      rw [unlockedOn, withdrawEvents_of_neutral b hneutral, hneutral.supply]
      simp [mintedOn, hneutral.noMint]

private theorem charged_step {host : Host} {e : BridgeRecord} (b : U8)
    (hwf : WellFormed e.pre) (hstep : IsStep (step host) e) :
    chargedOn b e = recipientGain b e := by
  cases stepEffect_of_ok hwf hstep with
  | mint hinput effect =>
      rw [chargedOn, withdrawEvents_of_mint b effect]
      simp [recipientGain, withdrawMessage, hinput]
  | @withdraw ctx user msg hinput effect =>
      by_cases hb : msg.chainId = b
      · subst hb
        have hsplit := effect.split
        have hfee := effect.feeBalance
        simp only [chargedOn, withdrawEvents, effect.events_eq, recipientGain,
          withdrawMessage, hinput, effect.bridgeStored.fetch, if_true,
          List.filterMap_cons, List.filterMap_nil, List.map_cons, List.map_nil,
          List.sum_cons, List.sum_nil]
        omega
      · have hgain : recipientGain b e = 0 := by
          unfold recipientGain
          cases e.pre.fetch BridgeConfig (Pda.bridgeConfig b).address <;>
            simp [withdrawMessage, hinput, hb]
        simp [chargedOn, withdrawEvents, effect.events_eq, hb, hgain]
  | neutral hneutral =>
      rw [chargedOn, withdrawEvents_of_neutral b hneutral]
      simp [recipientGain, hneutral.noWithdrawal]

/-- The supply of every bridge is backed one to one, and every fee arrives. -/
theorem supply_backed (host : Host) (inputs : List Input) (b : U8) :
    ((execute host inputs).state.supply (Pda.sbtcMint b).address : Int) =
        ((execute host inputs).log.map (mintedOn b)).sum -
          ((execute host inputs).log.map (unlockedOn b)).sum ∧
      ((execute host inputs).log.map (chargedOn b)).sum =
        ((execute host inputs).log.map (recipientGain b)).sum := by
  constructor
  · have hbalance : (execute host inputs).state.supply (Pda.sbtcMint b).address +
        ((execute host inputs).log.map (unlockedOn b)).sum =
        Ledger.empty.supply (Pda.sbtcMint b).address +
          ((execute host inputs).log.map (mintedOn b)).sum :=
      run_balance (f := fun L => L.supply (Pda.sbtcMint b).address) (mintedOn b)
        (unlockedOn b) wellFormed_empty (fun _ hwf hstep =>
          ⟨wellFormed_step hwf hstep, supply_step b hwf hstep⟩) inputs
    have hstart : Ledger.empty.supply (Pda.sbtcMint b).address = 0 := rfl
    omega
  · congr 1
    apply List.map_congr_left
    intro e he
    exact charged_step b (wellFormed_pre he) (isStep_of_mem he)

end SolBtcBridge.Properties
