import SolBtcBridge.Effects.Step

/-!
# Runs of one limiter

A limiter is a state machine of its own: it is created by the first limit
update, and after that it receives transfers and further updates, each with
the time of the clock.  Whatever the bridge does, the limiter record of a
(chain, token) pair goes through such a run.
-/

namespace SolBtcBridge.Properties

open SolBtcBridge.Foundation
open SolBtcBridge.Runtime
open SolBtcBridge.Program
open SolBtcBridge.Effects

inductive LimiterCall where
  | checkTransfer (unixTimestamp : Int) (amount : U64)
  | update (unixTimestamp : Int) (msg : UpdateLimiterMsg)

def LimiterCall.time : LimiterCall → Int
  | checkTransfer unixTimestamp _ => unixTimestamp
  | update unixTimestamp _ => unixTimestamp

abbrev LimiterRecord := Record ChainTokenLimiter LimiterCall (Option LimitEvent)

abbrev LimiterTrace := Trace ChainTokenLimiter LimiterCall (Option LimitEvent)

def limiterStep (limiter : ChainTokenLimiter) :
    LimiterCall → Result (ChainTokenLimiter × Option LimitEvent)
  | .checkTransfer unixTimestamp amount => do
      let (limiter, event) ← checkTransfer limiter unixTimestamp amount
      return (limiter, some event)
  | .update unixTimestamp msg =>
      .ok (updateLimiter limiter unixTimestamp msg, none)

def createdLimiter (unixTimestamp : Int) (msg : UpdateLimiterMsg) :
    ChainTokenLimiter :=
  updateLimiter AnchorAccount.zeroed unixTimestamp msg

def limiterRun (created : Int) (msg : UpdateLimiterMsg)
    (calls : List LimiterCall) : LimiterTrace :=
  run limiterStep (createdLimiter created msg) calls

private theorem updateLimiter_of_initialized {limiter : ChainTokenLimiter}
    (h : limiter.isInitialized = true) (unixTimestamp : Int)
    (msg : UpdateLimiterMsg) :
    updateLimiter limiter unixTimestamp msg =
      { limiter with totalLimit := msg.totalLimit } := by
  simp [updateLimiter, h]

theorem limiterStep_checkTransfer {e : LimiterRecord} {unixTimestamp : Int}
    {amount : U64} (hstep : IsStep limiterStep e)
    (h : e.input = .checkTransfer unixTimestamp amount) :
    ∃ event, checkTransfer e.pre unixTimestamp amount = .ok (e.post, event) := by
  rw [IsStep, h] at hstep
  simp only [limiterStep, bind_eq_ok, pure_eq_ok, Prod.exists,
    Prod.mk.injEq] at hstep
  obtain ⟨limiter, event, htransfer, rfl, -⟩ := hstep
  exact ⟨event, htransfer⟩

theorem limiterStep_update {e : LimiterRecord} {unixTimestamp : Int}
    {msg : UpdateLimiterMsg} (hinit : e.pre.isInitialized = true)
    (hstep : IsStep limiterStep e) (h : e.input = .update unixTimestamp msg) :
    e.post = { e.pre with totalLimit := msg.totalLimit } := by
  rw [IsStep, h, limiterStep, updateLimiter_of_initialized hinit,
    Except.ok.injEq, Prod.mk.injEq] at hstep
  exact hstep.1.symm

theorem limiterStep_initialized {e : LimiterRecord}
    (hinit : e.pre.isInitialized = true) (hstep : IsStep limiterStep e) :
    e.post.isInitialized = true := by
  cases hinput : e.input with
  | checkTransfer unixTimestamp amount =>
      obtain ⟨event, htransfer⟩ := limiterStep_checkTransfer hstep hinput
      rw [(checkTransfer_fields htransfer).1]
      exact hinit
  | update unixTimestamp msg =>
      rw [limiterStep_update hinit hstep hinput]
      exact hinit

theorem createdLimiter_initialized (created : Int) (msg : UpdateLimiterMsg) :
    (createdLimiter created msg).isInitialized = true :=
  (updateLimiter_initialized _ created msg).1

theorem slotVolume_createdLimiter (created : Int) (msg : UpdateLimiterMsg)
    (s : Fin 24) : slotVolume (createdLimiter created msg) s = 0 := by
  simp [slotVolume, createdLimiter, updateLimiter, AnchorAccount.zeroed]

/-! ## The limiters of a bridge run -/

/-- What the step asks of the limiter of the chain and token, if anything. -/
def limiterCall (c t : U8) (e : BridgeRecord) : Option LimiterCall :=
  match e.input with
  | .mintSbtcWithSignatures ctx _ _ msg =>
      if msg.sourceChainId = c ∧ msg.sourceTokenId = t then
        some (.checkTransfer ctx.unixTimestamp msg.amount)
      else none
  | .addOrUpdateLimiterWithSignatures ctx _ _ msg =>
      if msg.targetChainId = c ∧ msg.tokenId = t then
        some (.update ctx.unixTimestamp msg)
      else none
  | _ => none

/-- The limiter record is where a run with exactly these calls leads. -/
def FollowsRun (c t : U8) (L : Ledger) (calls : List LimiterCall) : Prop :=
  (calls = [] ∧ L.Vacant (Pda.limiter c t).address) ∨
    ∃ created msg rest, calls = .update created msg :: rest ∧
      L.Stores (Pda.limiter c t).address (limiterRun created msg rest).state ∧
      (limiterRun created msg rest).log.length = rest.length

private theorem FollowsRun.concat {c t : U8} {L L' : Ledger}
    {calls : List LimiterCall} {call : LimiterCall}
    {limiter limiter' : ChainTokenLimiter} {output : Option LimitEvent}
    (h : FollowsRun c t L calls)
    (hstores : L.Stores (Pda.limiter c t).address limiter)
    (hstep : limiterStep limiter call = .ok (limiter', output))
    (hstores' : L'.Stores (Pda.limiter c t).address limiter') :
    FollowsRun c t L' (calls ++ [call]) := by
  rcases h with ⟨-, hvacant⟩ | ⟨created, msg, rest, rfl, hrun, hlength⟩
  · exact absurd hvacant hstores.not_vacant
  · have hstate := hrun.unique hstores
    have hadvance : limiterRun created msg (rest ++ [call]) =
        ⟨limiter', (limiterRun created msg rest).log ++
          [⟨limiter, call, output, limiter'⟩]⟩ := by
      rw [limiterRun, run_concat, ← limiterRun, advance, hstate, hstep]
    refine .inr ⟨created, msg, rest ++ [call], rfl, ?_, ?_⟩
    · rw [hadvance]
      exact hstores'
    · rw [hadvance]
      simp [hlength]

private theorem limiter_kept {host : Host} {e : BridgeRecord} {c t : U8}
    (hwf : WellFormed e.pre) (hstep : IsStep (step host) e)
    (h : limiterCall c t e = none) :
    (e.post (Pda.limiter c t).address).body =
      (e.pre (Pda.limiter c t).address).body := by
  obtain ⟨L, input, events, L'⟩ := e
  rcases step_evolves hwf hstep (.limiter c t) with heq | hchange
  · exact heq
  · cases hchange with
    | limiterMinted => simp [limiterCall] at h
    | limiterSet => simp [limiterCall] at h

private theorem followsRun_step {host : Host} {e : BridgeRecord} {c t : U8}
    {calls : List LimiterCall} (hwf : WellFormed e.pre)
    (hstep : IsStep (step host) e) (h : FollowsRun c t e.pre calls) :
    FollowsRun c t e.post (calls ++ (limiterCall c t e).toList) := by
  cases hcall : limiterCall c t e with
  | none =>
      have hbody := limiter_kept hwf hstep hcall
      simpa only [Option.toList, List.append_nil, FollowsRun, Ledger.Vacant,
        Ledger.Stores, hbody] using h
  | some call =>
      obtain ⟨L, input, events, L'⟩ := e
      cases input with
      | mintSbtcWithSignatures ctx submitter signatures msg =>
          obtain ⟨effect⟩ := mintEffect_of_ok hwf hstep
          simp only [limiterCall, Option.ite_none_right_eq_some,
            Option.some.injEq] at hcall
          obtain ⟨⟨rfl, rfl⟩, rfl⟩ := hcall
          exact h.concat effect.limiterStored
            (by rw [limiterStep, effect.transfer]; rfl) effect.limiterStored'
      | addOrUpdateLimiterWithSignatures ctx submitter signatures msg =>
          obtain ⟨effect⟩ := limitEffect_of_ok hwf hstep
          simp only [limiterCall, Option.ite_none_right_eq_some,
            Option.some.injEq] at hcall
          obtain ⟨⟨rfl, rfl⟩, rfl⟩ := hcall
          have hstores' := effect.limiterStored'
          rcases effect.limiterProvided with hstores | ⟨hvacant, hzeroed⟩
          · exact h.concat hstores rfl hstores'
          · rcases h with ⟨rfl, -⟩ | ⟨_, _, _, -, hrun, -⟩
            · rw [hzeroed] at hstores'
              exact .inr ⟨_, msg, [], rfl, hstores', rfl⟩
            · exact absurd hvacant hrun.not_vacant
      | _ => simp [limiterCall] at hcall

/-- Every limiter record of a bridge run is the state of its own limiter run. -/
theorem limiter_followsRun (host : Host) (inputs : List Input) (c t : U8) :
    FollowsRun c t (execute host inputs).state
      ((execute host inputs).log.filterMap (limiterCall c t)) := by
  refine (run_induction (P := fun trace : BridgeTrace =>
    WellFormed trace.state ∧ FollowsRun c t trace.state
      (trace.log.filterMap (limiterCall c t)))
    ⟨wellFormed_empty, .inl ⟨rfl, rfl⟩⟩ ?_ inputs).2
  rintro log e ⟨hwf, hfollows⟩ hstep
  refine ⟨wellFormed_step hwf hstep, ?_⟩
  have hnext := followsRun_step hwf hstep hfollows
  rw [List.filterMap_append]
  cases hcall : limiterCall c t e with
  | none => simpa [hcall] using hnext
  | some call => simpa [hcall] using hnext

def clockHour (unixTimestamp : Int) : Int := unixTimestamp / 3600

theorem clockHour_mono {t t' : Int} (h : t ≤ t') : clockHour t ≤ clockHour t' := by
  unfold clockHour
  omega

def slotAt (unixTimestamp : Int) : Fin 24 := hourSlot (currentHour unixTimestamp)

def Chronological (created : Int) (calls : List LimiterCall) : Prop :=
  (created :: calls.map LimiterCall.time).Pairwise (· ≤ ·)

instance (created : Int) (calls : List LimiterCall) :
    Decidable (Chronological created calls) := by
  unfold Chronological
  infer_instance

def callTimes (log : List LimiterRecord) : List Int :=
  log.map fun e => e.input.time

theorem callTimes_concat (log : List LimiterRecord) (e : LimiterRecord) :
    callTimes (log ++ [e]) = callTimes log ++ [e.input.time] := by
  simp [callTimes]

theorem callTimes_sublist (created : Int) (msg : UpdateLimiterMsg)
    (calls : List LimiterCall) :
    (callTimes (limiterRun created msg calls).log).Sublist
      (calls.map LimiterCall.time) := by
  have hinputs : ((limiterRun created msg calls).log.map
      Record.input).Sublist calls := run_inputs_sublist _ calls
  have htimes := hinputs.map LimiterCall.time
  rwa [List.map_map] at htimes

theorem Chronological.log {created : Int} {calls : List LimiterCall}
    (h : Chronological created calls) (msg : UpdateLimiterMsg) :
    (created :: callTimes (limiterRun created msg calls).log).Pairwise
      (· ≤ ·) :=
  h.sublist ((callTimes_sublist created msg calls).cons_cons created)

def transferred (p : Int → Prop) [DecidablePred p] (e : LimiterRecord) : Nat :=
  match e.input with
  | .checkTransfer unixTimestamp amount =>
      if p unixTimestamp then amount.toNat else 0
  | .update _ _ => 0

def volume (p : Int → Prop) [DecidablePred p] (log : List LimiterRecord) : Nat :=
  (log.map (transferred p)).sum

section

variable {p q : Int → Prop} [DecidablePred p] [DecidablePred q]

@[simp] theorem volume_nil : volume p [] = 0 := rfl

theorem volume_concat (log : List LimiterRecord) (e : LimiterRecord) :
    volume p (log ++ [e]) = volume p log + transferred p e := by
  simp [volume]

private theorem transferred_le (e : LimiterRecord)
    (h : ∀ t amount, e.input = .checkTransfer t amount → p t → q t) :
    transferred p e ≤ transferred q e := by
  unfold transferred
  cases hinput : e.input with
  | checkTransfer t amount =>
      simp only
      by_cases hp : p t
      · rw [if_pos hp, if_pos (h t amount hinput hp)]
      · rw [if_neg hp]
        exact Nat.zero_le _
  | update t msg => exact le_rfl

theorem volume_le {log : List LimiterRecord}
    (h : ∀ t ∈ callTimes log, p t → q t) : volume p log ≤ volume q log := by
  apply List.sum_le_sum
  intro e he
  apply transferred_le
  intro t amount hinput
  apply h
  exact List.mem_map.mpr ⟨e, he, by rw [hinput]; rfl⟩

private theorem sum_transferred_slots (slot : Int → Fin 24)
    (e : LimiterRecord) :
    ∑ s, transferred (fun t => p t ∧ slot t = s) e = transferred p e := by
  unfold transferred
  cases e.input with
  | checkTransfer t amount =>
      by_cases hp : p t
      · simp only [hp, true_and, if_true]
        rw [Finset.sum_ite_eq, if_pos (Finset.mem_univ _)]
      · simp only [hp, false_and, if_false, Finset.sum_const_zero]
  | update t msg => simp only [Finset.sum_const_zero]

theorem sum_volume_slots (slot : Int → Fin 24) (log : List LimiterRecord) :
    ∑ s, volume (fun t => p t ∧ slot t = s) log = volume p log := by
  induction log using List.reverseRecOn with
  | nil => simp only [volume_nil, Finset.sum_const_zero]
  | append_singleton log e ih =>
      simp only [volume_concat, Finset.sum_add_distrib, ih,
        sum_transferred_slots]

end

end SolBtcBridge.Properties
