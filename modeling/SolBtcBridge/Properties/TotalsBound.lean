import SolBtcBridge.Foundation.Tickets
import SolBtcBridge.Properties.ChainTotals
import SolBtcBridge.Properties.Nonces

/-!
# Mint totals cannot overflow

Each mint from a chain takes one of the chain's 64-bit nonces and adds a 64-bit
amount.  A 128-bit total is therefore never full, and the two additions of the
mint handler never abort.
-/

namespace SolBtcBridge.Properties

open SolBtcBridge.Foundation
open SolBtcBridge.Runtime
open SolBtcBridge.Program
open SolBtcBridge.Effects

def usedNonces (c : U8) (L : Ledger) : Set U64 :=
  {n | ¬ L.Vacant (Pda.mintNonce c n).address}

def maxAmount : Nat := 2 ^ 64 - 1

private theorem mintedAmount_le (c t : U8) (e : BridgeRecord) :
    mintedAmount c t e ≤ maxAmount := by
  unfold mintedAmount
  split
  · rename_i msg _
    have hlt := msg.amount.isLt
    split
    · exact Nat.le_sub_one_of_lt hlt
    · exact Nat.zero_le _
  · exact Nat.zero_le _

section

variable {host : Host} {e : BridgeRecord}

private theorem usedNonces_mono (c : U8) (hwf : WellFormed e.pre)
    (hstep : IsStep (step host) e) : usedNonces c e.pre ⊆ usedNonces c e.post := by
  intro n hn
  cases hmints : mintsNonce c n e with
  | true => exact (mintNonce_consumed hwf hstep hmints).2
  | false =>
      intro hvacant
      apply hn
      rwa [Ledger.Vacant, ← mintNonce_kept hwf hstep hmints]

private theorem ticketed_of_mints {f : Ledger → Nat} {gain : Nat} (c : U8)
    (hwf : WellFormed e.pre) (hstep : IsStep (step host) e)
    (hsum : f e.post = f e.pre + gain) (hgain : gain ≤ maxAmount)
    (hzero : (∀ n, mintsNonce c n e = false) → gain = 0) :
    Ticketed maxAmount f (usedNonces c) e.pre e.post := by
  by_cases hmints : ∃ n, mintsNonce c n e = true
  · rcases hmints with ⟨n, hn⟩
    have hconsumed := mintNonce_consumed hwf hstep hn
    refine .took n (not_not.mpr hconsumed.1) ?_ (by omega)
    exact Set.insert_subset hconsumed.2 (usedNonces_mono c hwf hstep)
  · refine .kept ?_ (usedNonces_mono c hwf hstep)
    have hnone := hzero fun n => by
      cases hn : mintsNonce c n e with
      | false => rfl
      | true => exact absurd ⟨n, hn⟩ hmints
    omega

private theorem mintsNonce_of_message {msg : MintSbtcMessage}
    (h : mintMessage e.input = some msg) :
    mintsNonce msg.sourceChainId msg.nonce e = true := by
  obtain ⟨L, input, events, L'⟩ := e
  cases input with
  | mintSbtcWithSignatures =>
      cases h
      simp [mintsNonce]
  | _ => cases h

private theorem tokenTotal_ticketed (c t : U8) (hwf : WellFormed e.pre)
    (hstep : IsStep (step host) e) :
    Ticketed maxAmount (tokenTotal c t) (usedNonces c) e.pre e.post := by
  apply ticketed_of_mints c hwf hstep (tokenTotal_step c t hwf hstep)
    (mintedAmount_le c t e)
  intro hnone
  unfold mintedAmount
  split
  · rename_i msg hmsg
    by_cases hids : msg.sourceChainId = c ∧ msg.sourceTokenId = t
    · have hmints := mintsNonce_of_message hmsg
      rw [hids.1, hnone] at hmints
      contradiction
    · rw [if_neg hids]
  · rfl

private theorem chainTotal_ticketed (c : U8) (hwf : WellFormed e.pre)
    (hstep : IsStep (step host) e) :
    Ticketed maxAmount (chainTotal c) (usedNonces c) e.pre e.post := by
  apply ticketed_of_mints c hwf hstep (chainTotal_step c hwf hstep)
  · rw [sum_mintedAmount]
    cases mintMessage e.input with
    | none => exact Nat.zero_le _
    | some msg =>
        have hlt := msg.amount.isLt
        rw [Option.map_some, Option.getD_some]
        split
        · exact Nat.le_sub_one_of_lt hlt
        · exact Nat.zero_le _
  · intro hnone
    rw [sum_mintedAmount]
    cases hmsg : mintMessage e.input with
    | none => rfl
    | some msg =>
        rw [Option.map_some, Option.getD_some, ite_eq_right_iff]
        rintro rfl
        have hmints := mintsNonce_of_message hmsg
        rw [hnone] at hmints
        contradiction

end

theorem tokenTotal_le (host : Host) (inputs : List Input) (c t : U8) :
    tokenTotal c t (execute host inputs).state ≤ maxAmount * 2 ^ 64 := by
  have hle : tokenTotal c t (execute host inputs).state ≤
      maxAmount * Nat.card U64 :=
    run_ticketed (usedNonces c) wellFormed_empty
      (tokenTotal_of_vacant (L := Ledger.empty) rfl)
      (fun _ hwf hstep => ⟨wellFormed_step hwf hstep,
        tokenTotal_ticketed c t hwf hstep⟩) inputs
  rwa [card_word] at hle

theorem chainTotal_le (host : Host) (inputs : List Input) (c : U8) :
    chainTotal c (execute host inputs).state ≤ maxAmount * 2 ^ 64 := by
  have hle : chainTotal c (execute host inputs).state ≤
      maxAmount * Nat.card U64 :=
    run_ticketed (usedNonces c) wellFormed_empty
      (chainTotal_of_vacant (L := Ledger.empty) rfl)
      (fun _ hwf hstep => ⟨wellFormed_step hwf hstep,
        chainTotal_ticketed c hwf hstep⟩) inputs
  rwa [card_word] at hle

theorem addOrPanic_of_le {total : U128} (amount : U64)
    (h : total.toNat ≤ maxAmount * 2 ^ 64) :
    ∃ sum, addOrPanic total (amount.setWidth 128) = .ok sum := by
  have hlt := amount.isLt
  have hfits : total.toNat + amount.toNat < 2 ^ 128 := by
    simp only [maxAmount] at h
    omega
  refine ⟨BitVec.ofNat 128 (total.toNat + amount.toNat), ?_⟩
  rw [addOrPanic_eq_ok, toNat_setWidth_amount, BitVec.toNat_ofNat,
    Nat.mod_eq_of_lt hfits]

/-- In a reachable state a mint of any amount fits both totals. -/
theorem mint_totals_fit (host : Host) (inputs : List Input) (c : U8)
    (amount : U64) :
    (∀ record, (execute host inputs).state.Stores
        (Pda.supportedChain c).address (record : SupportedChainConfig) →
      ∃ sum, addOrPanic record.mintTotal (amount.setWidth 128) = .ok sum) ∧
    ∀ t record, (execute host inputs).state.Stores
        (Pda.tokenConfig c t).address (record : TokenConfig) →
      ∃ sum, addOrPanic record.mintTotal (amount.setWidth 128) = .ok sum := by
  constructor
  · intro record hstores
    apply addOrPanic_of_le
    rw [← chainTotal_of_stores hstores]
    exact chainTotal_le host inputs c
  · intro t record hstores
    apply addOrPanic_of_le
    rw [← tokenTotal_of_stores hstores]
    exact tokenTotal_le host inputs c t

end SolBtcBridge.Properties
