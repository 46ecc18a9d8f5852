import SolBtcBridge.Properties.LegalTransfers
import SolBtcBridge.Properties.MintAcceptance
import SolBtcBridge.Properties.Nonces

/-!
# Refused for the hour only

Of everything a mint depends on, only the limiter looks at the clock.  On the
way through its slots it never counts more than the volume of the current clock
hour, so it holds a mint up until the next hour at most.
-/

namespace SolBtcBridge.Properties

open SolBtcBridge.Foundation
open SolBtcBridge.Runtime
open SolBtcBridge.Program
open SolBtcBridge.Effects

def inputTime : Input → Option Int
  | .createBridgeConfig ctx .. => some ctx.unixTimestamp
  | .createBridgeCommittee ctx .. => some ctx.unixTimestamp
  | .mintSbtcWithSignatures ctx .. => some ctx.unixTimestamp
  | .withdrawBtc ctx .. => some ctx.unixTimestamp
  | .addOrUpdateLimiterWithSignatures ctx .. => some ctx.unixTimestamp
  | _ => none

/-- The clock never goes back, up to `now`, and stays within `u32`. -/
structure ClockRuns (inputs : List Input) (now : Int) : Prop where
  sorted : (inputs.filterMap inputTime).Pairwise (· ≤ ·)
  reached : ∀ t ∈ inputs.filterMap inputTime, t ≤ now
  fits : ∀ t ∈ inputs.filterMap inputTime, FitsU32 t
  now : FitsU32 now

private theorem inputTime_of_limiterCall {c t : U8} {e : BridgeRecord}
    {call : LimiterCall} (h : limiterCall c t e = some call) :
    inputTime e.input = some call.time := by
  unfold limiterCall at h
  split at h
  · rename_i hinput
    obtain ⟨-, hcall⟩ := Option.ite_none_right_eq_some.mp h
    rw [hinput, ← Option.some.inj hcall]
    rfl
  · rename_i hinput
    obtain ⟨-, hcall⟩ := Option.ite_none_right_eq_some.mp h
    rw [hinput, ← Option.some.inj hcall]
    rfl
  · cases h

private theorem limiterCalls_sublist (c t : U8) (log : List BridgeRecord) :
    ((log.filterMap (limiterCall c t)).map LimiterCall.time).Sublist
      ((log.map Record.input).filterMap inputTime) := by
  induction log with
  | nil => exact .slnil
  | cons e log ih =>
      rw [List.map_cons]
      cases hcall : limiterCall c t e with
      | none =>
          rw [List.filterMap_cons_none hcall]
          refine ih.trans ?_
          cases htime : inputTime e.input with
          | none => rw [List.filterMap_cons_none htime]
          | some time =>
              rw [List.filterMap_cons_some htime]
              exact List.sublist_cons_self _ _
      | some call =>
          rw [List.filterMap_cons_some hcall,
            List.filterMap_cons_some (inputTime_of_limiterCall hcall),
            List.map_cons]
          exact ih.cons_cons _

private theorem callTimes_sublist_inputs (host : Host) (inputs : List Input)
    (c t : U8) :
    (((execute host inputs).log.filterMap (limiterCall c t)).map
      LimiterCall.time).Sublist (inputs.filterMap inputTime) :=
  (limiterCalls_sublist c t _).trans
    ((run_inputs_sublist _ inputs).filterMap inputTime)

/-- What a step mints for the chain and token in the clock hour. -/
def mintedInHour (c t : U8) (hour : Int) (e : BridgeRecord) : Nat :=
  match e.input with
  | .mintSbtcWithSignatures ctx _ _ msg =>
      if (msg.sourceChainId = c ∧ msg.sourceTokenId = t) ∧
          clockHour ctx.unixTimestamp = hour then msg.amount.toNat
      else 0
  | _ => 0

def callVolume (hour : Int) : LimiterCall → Nat
  | .checkTransfer t amount => if clockHour t = hour then amount.toNat else 0
  | .update _ _ => 0

private theorem hourVolume_eq_calls (hour : Int) (log : List LimiterRecord) :
    hourVolume hour log = ((log.map Record.input).map (callVolume hour)).sum := by
  rw [List.map_map]
  rfl

private theorem mintedInHour_eq_call (c t : U8) (hour : Int)
    (e : BridgeRecord) :
    mintedInHour c t hour e =
      ((limiterCall c t e).map (callVolume hour)).getD 0 := by
  rcases e with ⟨L, input, events, L'⟩
  cases input with
  | mintSbtcWithSignatures ctx submitter signatures msg =>
      by_cases hids : msg.sourceChainId = c ∧ msg.sourceTokenId = t
      · simp [limiterCall, mintedInHour, callVolume, hids]
      · simp [limiterCall, mintedInHour, hids]
  | addOrUpdateLimiterWithSignatures ctx submitter signatures msg =>
      by_cases hids : msg.targetChainId = c ∧ msg.tokenId = t
      · simp [limiterCall, mintedInHour, callVolume, hids]
      · simp [limiterCall, mintedInHour, hids]
  | _ => rfl

private theorem mintedInHour_eq_calls (c t : U8) (hour : Int)
    (log : List BridgeRecord) :
    (log.map (mintedInHour c t hour)).sum =
      ((log.filterMap (limiterCall c t)).map (callVolume hour)).sum := by
  induction log with
  | nil => rfl
  | cons e log ih =>
      rw [List.map_cons, List.sum_cons, ih, mintedInHour_eq_call]
      cases hcall : limiterCall c t e with
      | none =>
          rw [List.filterMap_cons_none hcall]
          exact Nat.zero_add _
      | some call =>
          rw [List.filterMap_cons_some hcall, List.map_cons, List.sum_cons]
          rfl

private theorem hourVolume_of_accepted {created : Int} {msg : UpdateLimiterMsg}
    {calls : List LimiterCall} (hour : Int)
    (h : (limiterRun created msg calls).log.length = calls.length) :
    hourVolume hour (limiterRun created msg calls).log =
      (calls.map (callVolume hour)).sum := by
  have hsublist : ((limiterRun created msg calls).log.map
      Record.input).Sublist calls := run_inputs_sublist _ calls
  have hall := hsublist.eq_of_length (by rw [List.length_map, h])
  rw [hourVolume_eq_calls, hall]

section

variable {host : Host} {inputs : List Input} {now : Int}

private theorem cleared_le_minted (hclock : ClockRuns inputs now) {c t : U8}
    {r : ChainTokenLimiter}
    (hstores : (execute host inputs).state.Stores (Pda.limiter c t).address r) :
    totalVolume (clearExpired r (currentHour now)) ≤
      ((execute host inputs).log.map
        (mintedInHour c t (clockHour now))).sum := by
  rcases limiter_followsRun host inputs c t with
    ⟨-, hvacant⟩ | ⟨created, msg, rest, hcalls, hrun, hlength⟩
  · exact absurd hvacant hstores.not_vacant
  · have htimes := callTimes_sublist_inputs host inputs c t
    rw [hcalls, List.map_cons] at htimes
    obtain rfl := hrun.unique hstores
    have hchronological : Chronological created rest :=
      hclock.sorted.sublist htimes
    rcases bounded_run created msg rest hchronological
      (fun t ht => hclock.fits t (htimes.subset ht)) with
      ⟨latest, hmem, hbounded⟩
    have hle := hclock.reached latest (htimes.subset hmem)
    rw [mintedInHour_eq_calls, hcalls, List.map_cons, List.sum_cons, callVolume,
      Nat.zero_add, ← hourVolume_of_accepted _ hlength]
    exact totalVolume_cleared_le hclock.now hle hbounded

end

/-! ## The same mint at another time -/

def MintLandsAt (L : Ledger) (ctx : Context) (submitter : Pubkey)
    (numberOfSignatures : U8) (msg : MintSbtcMessage) (t : Int) : Prop :=
  ∃ out, mintSbtcWithSignatures L { ctx with unixTimestamp := t } submitter
    numberOfSignatures msg = .ok out

private theorem limitInForce_of_stores {L : Ledger} {c t : U8}
    {r : ChainTokenLimiter} (h : L.Stores (Pda.limiter c t).address r) :
    limitInForce L c t = some r.totalLimit := by
  rw [limitInForce, h.fetch, Option.map_some]

section

variable {host : Host} {L : Ledger} {ctx : Context} {submitter : Pubkey}
  {numberOfSignatures : U8} {msg : MintSbtcMessage} {t now : Int}

private theorem lands_of_room (hcon : Consistent host L)
    (hlands : MintLandsAt L ctx submitter numberOfSignatures msg t)
    (hroom : ∀ r, L.Stores
        (Pda.limiter msg.sourceChainId msg.sourceTokenId).address r →
      msg.amount.toNat ≤ r.totalLimit.toNat →
      totalVolume (clearExpired r (currentHour now)) + msg.amount.toNat ≤
        r.totalLimit.toNat) :
    MintLandsAt L ctx submitter numberOfSignatures msg now := by
  rcases hlands with ⟨⟨L', events⟩, hmint⟩
  have hthen := admissible_of_mint_ok hcon.wellFormed hmint
  rcases hthen.limit with ⟨r, hstores, hfits⟩
  have hnow : MintAdmissible L { ctx with unixTimestamp := now } submitter
      numberOfSignatures msg :=
    { hthen with limit := ⟨r, hstores, hroom r hstores (by omega)⟩ }
  exact mint_isOk_of_admissible hcon hnow

end

def sampleMintContext : Context :=
  sampleContext
    [(Pda.committee sampleMember).address,
      getAssociatedTokenAddress sampleUser (Pda.sbtcMint 1).address,
      .wallet sampleUser, (Pda.sbtcMint 1).address]
    [sampleMintInstruction] 0

end SolBtcBridge.Properties
