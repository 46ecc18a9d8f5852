import SolBtcBridge.Properties.LimiterRuns

/-!
# The rolling cap

A limiter bounds the volume of every 24 consecutive clock hours as long as no
transfer clears a slot that still counts a transfer of those hours.  The slots
then add up to at least the live volume, and their sum is what the limiter
compares with its limit.
-/

namespace SolBtcBridge.Properties

open SolBtcBridge.Foundation
open SolBtcBridge.Runtime
open SolBtcBridge.Program
open SolBtcBridge.Effects

def windowVolume (first : Int) (log : List LimiterRecord) : Nat :=
  volume (fun t => first ≤ clockHour t ∧ clockHour t < first + 24) log

def RollingCap (limit : U64) (log : List LimiterRecord) : Prop :=
  ∀ first, windowVolume first log ≤ limit.toNat

/-- The time lies in the hour of `now`, in the 23 hours before it, or later. -/
def Live (now t : Int) : Prop := clockHour now < clockHour t + 24

instance (now t : Int) : Decidable (Live now t) := by
  unfold Live
  infer_instance

def liveVolume (now : Int) (s : Fin 24) (log : List LimiterRecord) : Nat :=
  volume (fun t => Live now t ∧ slotAt t = s) log

/-- An accepted transfer clears only slots without live volume. -/
def ClearsNoLive (before : List LimiterRecord) : LimiterRecord → Prop
  | ⟨limiter, .checkTransfer t _, _, _⟩ =>
      ∀ s, Clears limiter (currentHour t) s → liveVolume t s before = 0
  | ⟨_, .update _ _, _, _⟩ => True

instance (before : List LimiterRecord) :
    (e : LimiterRecord) → Decidable (ClearsNoLive before e)
  | ⟨limiter, .checkTransfer t _, _, _⟩ => inferInstanceAs (Decidable
      (∀ s, Clears limiter (currentHour t) s → liveVolume t s before = 0))
  | ⟨_, .update _ _, _, _⟩ => inferInstanceAs (Decidable True)

def Covers (limiter : ChainTokenLimiter) (log : List LimiterRecord) : Prop :=
  ∀ now, (∀ t ∈ callTimes log, t ≤ now) →
    ∀ s, liveVolume now s log ≤ slotVolume limiter s

theorem Live.earlier {now t' t : Int} (h : Live now t) (hle : t' ≤ now) :
    Live t' t := by
  have hmono := clockHour_mono hle
  unfold Live at *
  omega

private theorem covers_step {log : List LimiterRecord} {e : LimiterRecord}
    (hinit : e.pre.isInitialized = true) (hstep : IsStep limiterStep e)
    (hlive : ClearsNoLive log e) (h : Covers e.pre log) :
    Covers e.post (log ++ [e]) := by
  intro now hnow s
  rw [callTimes_concat] at hnow
  have hbefore : ∀ t ∈ callTimes log, t ≤ now := fun t ht => hnow t (by simp [ht])
  have hlast : e.input.time ≤ now := hnow _ (by simp)
  rw [liveVolume, volume_concat]
  obtain ⟨limiter, input, output, limiter'⟩ := e
  cases input with
  | checkTransfer t amount =>
      obtain ⟨event, htransfer⟩ := limiterStep_checkTransfer hstep rfl
      have hold : liveVolume now s log ≤
          if Clears limiter (currentHour t) s then 0 else slotVolume limiter s := by
        by_cases hclears : Clears limiter (currentHour t) s
        · rw [if_pos hclears, ← hlive s hclears]
          exact volume_le fun t' _ h => ⟨h.1.earlier hlast, h.2⟩
        · rw [if_neg hclears]
          exact h now hbefore s
      have hnew : transferred (fun t => Live now t ∧ slotAt t = s)
          ⟨limiter, .checkTransfer t amount, output, limiter'⟩ ≤
          if s = hourSlot (currentHour t) then amount.toNat else 0 := by
        simp only [transferred]
        by_cases hs : s = hourSlot (currentHour t)
        · rw [if_pos hs]
          split
          · exact le_rfl
          · exact Nat.zero_le _
        · rw [if_neg hs, if_neg fun h => hs h.2.symm]
      rw [slotVolume_checkTransfer htransfer s]
      exact Nat.add_le_add hold hnew
  | update t msg =>
      have hpost := limiterStep_update hinit hstep rfl
      simp only at hpost
      simp only [transferred, Nat.add_zero, hpost]
      exact h now hbefore s

private theorem cap_step {log : List LimiterRecord} {e : LimiterRecord}
    {limit : U64} (hstep : IsStep limiterStep e)
    (hlimit : e.pre.totalLimit = limit)
    (hlatest : ∀ t ∈ callTimes log, t ≤ e.input.time)
    (hcovers : Covers e.post (log ++ [e])) (h : RollingCap limit log) :
    RollingCap limit (log ++ [e]) := by
  intro first
  cases hinput : e.input with
  | checkTransfer t amount =>
      obtain ⟨event, htransfer⟩ := limiterStep_checkTransfer hstep hinput
      by_cases hwindow : first ≤ clockHour t ∧ clockHour t < first + 24
      · have htimes : ∀ t' ∈ callTimes (log ++ [e]), t' ≤ t := by
          intro t' ht'
          rw [callTimes_concat, List.mem_append, List.mem_singleton] at ht'
          rw [hinput] at hlatest ht'
          rcases ht' with hmem | rfl
          · exact hlatest t' hmem
          · exact le_rfl
        have hwithin : windowVolume first (log ++ [e]) ≤
            volume (Live t) (log ++ [e]) := by
          apply volume_le
          intro t' _ h'
          unfold Live
          omega
        calc windowVolume first (log ++ [e])
            ≤ volume (Live t) (log ++ [e]) := hwithin
          _ = ∑ s, liveVolume t s (log ++ [e]) :=
            (sum_volume_slots slotAt (log ++ [e])).symm
          _ ≤ totalVolume e.post :=
            Finset.sum_le_sum fun s _ => hcovers t htimes s
          _ ≤ limit.toNat := by
            rw [← hlimit]
            exact totalVolume_checkTransfer htransfer
      · have hzero : transferred (fun t => first ≤ clockHour t ∧
            clockHour t < first + 24) e = 0 := by
          simp only [transferred, hinput, if_neg hwindow]
        rw [windowVolume, volume_concat, hzero]
        exact h first
  | update t msg =>
      have hzero : transferred (fun t => first ≤ clockHour t ∧
          clockHour t < first + 24) e = 0 := by
        simp only [transferred, hinput]
      rw [windowVolume, volume_concat, hzero]
      exact h first

/-! ## Runs -/

def SameLimit (limit : U64) : LimiterCall → Prop
  | .checkTransfer _ _ => True
  | .update _ msg => msg.totalLimit = limit

instance (limit : U64) : (i : LimiterCall) → Decidable (SameLimit limit i)
  | .checkTransfer _ _ => inferInstanceAs (Decidable True)
  | .update _ msg => inferInstanceAs (Decidable (msg.totalLimit = limit))

private theorem totalLimit_step {e : LimiterRecord} {limit : U64}
    (hinit : e.pre.isInitialized = true) (hstep : IsStep limiterStep e)
    (hsame : SameLimit limit e.input) (h : e.pre.totalLimit = limit) :
    e.post.totalLimit = limit := by
  cases hinput : e.input with
  | checkTransfer t amount =>
      obtain ⟨event, htransfer⟩ := limiterStep_checkTransfer hstep hinput
      rw [(checkTransfer_fields htransfer).2.2.2.1, h]
  | update t msg =>
      rw [limiterStep_update hinit hstep hinput]
      rwa [hinput] at hsame

/--
The cap holds in every run in which no transfer clears live volume.  In such a
run no window of 24 hours holds volume of two different clock hours.
-/
theorem rolling_cap (created : Int) (msg : UpdateLimiterMsg)
    (calls : List LimiterCall) (hchronological : Chronological created calls)
    (hsame : ∀ i ∈ calls, SameLimit msg.totalLimit i)
    (hlive : EachStep ClearsNoLive (limiterRun created msg calls).log) :
    RollingCap msg.totalLimit (limiterRun created msg calls).log := by
  have hinputs : ∀ e ∈ (limiterRun created msg calls).log,
      SameLimit msg.totalLimit e.input := by
    intro e he
    exact hsame _ ((run_inputs_sublist _ calls).subset (List.mem_map_of_mem he))
  have hsorted := (List.pairwise_cons.mp (hchronological.log msg)).2
  refine (run_induction (P := fun t : LimiterTrace =>
    (callTimes t.log).Pairwise (· ≤ ·) → EachStep ClearsNoLive t.log →
    (∀ e ∈ t.log, SameLimit msg.totalLimit e.input) →
      t.state.isInitialized = true ∧ t.state.totalLimit = msg.totalLimit ∧
        Covers t.state t.log ∧ RollingCap msg.totalLimit t.log)
    ?_ ?_ calls hsorted hlive hinputs).2.2.2
  · intro _ _ _
    refine ⟨createdLimiter_initialized created msg,
      (updateLimiter_initialized _ created msg).2, ?_, ?_⟩
    · intro now _ s
      exact Nat.zero_le _
    · intro first
      exact Nat.zero_le _
  · intro log e ih hstep hsorted hlive hinputs
    rw [callTimes_concat, List.pairwise_append] at hsorted
    obtain ⟨hliveLog, hliveLast⟩ := eachStep_concat.mp hlive
    obtain ⟨hinit, hlimit, hcovers, hcap⟩ := ih hsorted.1 hliveLog
      fun d hd => hinputs d (by simp [hd])
    have hcovers' := covers_step hinit hstep hliveLast hcovers
    refine ⟨limiterStep_initialized hinit hstep,
      totalLimit_step hinit hstep (hinputs e (by simp)) hlimit, hcovers', ?_⟩
    exact cap_step hstep hlimit
      (fun t ht => hsorted.2.2 t ht _ (by simp)) hcovers' hcap

def sampleCap : UpdateLimiterMsg where
  messageType := 3
  version := 1
  nonce := 0
  chainId := 1
  targetChainId := 2
  tokenId := 0
  totalLimit := 100

theorem rolling_cap_sample :
    RollingCap 100 (limiterRun 0 sampleCap
      [.checkTransfer 0 60, .checkTransfer 1800 40, .checkTransfer 90000 100]).log :=
  rolling_cap 0 sampleCap
    [.checkTransfer 0 60, .checkTransfer 1800 40, .checkTransfer 90000 100]
    (by decide) (by decide) (by decide +kernel)

theorem not_rollingCap_sample :
    Chronological 0 [.checkTransfer 0 100, .checkTransfer 3600 100] ∧
      ¬ RollingCap 100 (limiterRun 0 sampleCap
        [.checkTransfer 0 100, .checkTransfer 3600 100]).log := by
  refine ⟨by decide, fun h => ?_⟩
  have hwindow : windowVolume 0 (limiterRun 0 sampleCap
      [.checkTransfer 0 100, .checkTransfer 3600 100]).log = 200 := by
    decide +kernel
  have hcap := h 0
  rw [hwindow] at hcap
  contradiction

end SolBtcBridge.Properties
