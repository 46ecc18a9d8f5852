import SolBtcBridge.Effects.Verify

/-!
# Who gets the low threshold

A freeze needs 450 of the stake, everything else a majority.  The code decodes
the payload of an emergency operation but does not look at the result, so an
unfreeze gets the low threshold as well, and it is the only message that does.
-/

namespace SolBtcBridge.Properties

open SolBtcBridge.Foundation
open SolBtcBridge.Runtime
open SolBtcBridge.Program
open SolBtcBridge.Effects

def majorityStake : Nat := 5001

section

variable {T : Type} [HasMessageType T] [HasPayload T]

def IsFreeze (message : T) : Prop :=
  Operation.tryFrom (messageType message) = some .emergencyOp ∧
    decodeEmergencyOpPayload (payload message) = .ok true

/-- The low threshold is for a freeze, and a majority for everything else. -/
structure SafeThreshold (message : T) : Prop where
  accepted : (∃ stake, requiredStake message = .ok stake) ↔
    ∃ op, Operation.tryFrom (messageType message) = some op ∧
      (op = .emergencyOp → payload message = [0] ∨ payload message = [1])
  freezing : requiredStake message = .ok freezingStakeRequired →
    IsFreeze message
  majority : ∀ stake, requiredStake message = .ok stake → ¬ IsFreeze message →
    majorityStake ≤ stake.toNat

private theorem isFreeze_iff {message : T} :
    IsFreeze message ↔
      Operation.tryFrom (messageType message) = some .emergencyOp ∧
        payload message = [0] := by
  refine and_congr_right fun _ => ?_
  rw [decodeEmergencyOpPayload_eq_ok]
  simp

private theorem majority_le_grantedStake {op : Operation}
    (hne : op ≠ .emergencyOp) :
    majorityStake ≤ (grantedStake op).toNat := by
  cases op with
  | emergencyOp => contradiction
  | _ => decide

private theorem emergency_of_low_stake {message : T} {stake : U16}
    (h : requiredStake message = .ok stake) (hlow : stake.toNat < majorityStake) :
    Operation.tryFrom (messageType message) = some .emergencyOp ∧
      (payload message = [0] ∨ payload message = [1]) := by
  obtain ⟨op, hop, hpayload, rfl⟩ := requiredStake_eq_ok.mp h
  have hemergency : op = .emergencyOp := by
    by_contra hne
    have hmajority := majority_le_grantedStake hne
    omega
  rw [hemergency] at hop
  exact ⟨hop, hpayload hemergency⟩

/-- The threshold is as it should be unless the message is an unfreeze. -/
theorem safeThreshold_iff (message : T) :
    SafeThreshold message ↔
      ¬ (Operation.tryFrom (messageType message) = some .emergencyOp ∧
        payload message = [1]) := by
  constructor
  · rintro h ⟨hop, hpayload⟩
    have hgranted : requiredStake message = .ok freezingStakeRequired :=
      requiredStake_eq_ok.mpr ⟨.emergencyOp, hop, fun _ => .inr hpayload, rfl⟩
    have hfreeze := (isFreeze_iff.mp (h.freezing hgranted)).2
    rw [hpayload] at hfreeze
    contradiction
  · intro hnot
    have hfreeze : ∀ stake, requiredStake message = .ok stake →
        stake.toNat < majorityStake → IsFreeze message := by
      intro stake hstake hlow
      obtain ⟨hop, hzero | hone⟩ := emergency_of_low_stake hstake hlow
      · exact isFreeze_iff.mpr ⟨hop, hzero⟩
      · exact absurd ⟨hop, hone⟩ hnot
    refine ⟨requiredStake_accepted message, ?_, ?_⟩
    · intro hstake
      exact hfreeze _ hstake (by decide)
    · intro stake hstake hother
      by_contra hlow
      exact hother (hfreeze stake hstake (by omega))

end

/-- A message with the payload that `required_stake` decodes. -/
structure EmergencyOpMessage where
  messageType : U8
  chainId : U8
  nonce : U64
  payload : List U8

instance : HasMessageType EmergencyOpMessage where
  messageType m := m.messageType
  chainId m := m.chainId
  nonce m := m.nonce

instance : HasPayload EmergencyOpMessage where
  payload m := m.payload

theorem not_safeThreshold_unfreeze :
    decodeEmergencyOpPayload [1] = .ok false ∧
      requiredStake (⟨2, 1, 0, [1]⟩ : EmergencyOpMessage) =
        .ok freezingStakeRequired ∧
      ¬ SafeThreshold (⟨2, 1, 0, [1]⟩ : EmergencyOpMessage) := by
  refine ⟨by decide, by decide, fun h => ?_⟩
  have hfreeze := (h.freezing (by decide)).2
  exact absurd hfreeze (by decide)

end SolBtcBridge.Properties
