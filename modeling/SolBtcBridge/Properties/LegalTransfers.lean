import SolBtcBridge.Properties.HourVolume

/-!
# Legal transfers are accepted

The slots never hold more than the volume of the latest hour, whatever the
cursor and the limit did before.  A transfer that keeps the volume of its last
24 hours within the current limit therefore passes every check.
-/

namespace SolBtcBridge.Properties

open SolBtcBridge.Foundation
open SolBtcBridge.Runtime
open SolBtcBridge.Program
open SolBtcBridge.Effects

/-- The slot of `hour` holds at most the volume of that hour. -/
structure Bounded (hour : Int) (limiter : ChainTokenLimiter)
    (log : List LimiterRecord) : Prop extends LatestOnly hour limiter where
  latest : ∀ s : Fin 24, (s.val : Int) = hour % 24 →
    slotVolume limiter s ≤ hourVolume hour log

private theorem cleared_le {limiter : ChainTokenLimiter} {t t' : Int}
    {log : List LimiterRecord} (hfits : FitsU32 t') (hle : t ≤ t')
    (h : Bounded (clockHour t) limiter log) (s : Fin 24) :
    (if Clears limiter (currentHour t') s then 0 else slotVolume limiter s) ≤
      if s = slotAt t' then hourVolume (clockHour t') log else 0 := by
  rw [slot_after_clearing hfits hle h.toLatestOnly s]
  by_cases hkept : hoursPassed limiter (currentHour t') < 24 ∧
      clockHour t = clockHour t'
  · have hslot := slotAt_eq hfits s
    rw [if_pos hkept]
    by_cases hs : (s.val : Int) = clockHour t' % 24
    · rw [if_pos (hslot.mpr hs), ← hkept.2]
      rw [← hkept.2] at hs
      exact h.latest s hs
    · rw [if_neg fun heq => hs (hslot.mp heq)]
      rw [← hkept.2] at hs
      rw [h.others s hs]
  · rw [if_neg hkept]
    exact Nat.zero_le _

theorem totalVolume_cleared_le {limiter : ChainTokenLimiter} {t t' : Int}
    {log : List LimiterRecord} (hfits : FitsU32 t') (hle : t ≤ t')
    (h : Bounded (clockHour t) limiter log) :
    totalVolume (clearExpired limiter (currentHour t')) ≤
      hourVolume (clockHour t') log := by
  have hslots : ∀ s ∈ Finset.univ,
      slotVolume (clearExpired limiter (currentHour t')) s ≤
        if s = slotAt t' then hourVolume (clockHour t') log else 0 := by
    intro s _
    rw [slotVolume_clearExpired]
    exact cleared_le hfits hle h s
  have hsum := Finset.sum_le_sum hslots
  rwa [Finset.sum_ite_eq', if_pos (Finset.mem_univ _)] at hsum

private theorem hourVolume_le_windowVolume (hour : Int)
    (log : List LimiterRecord) :
    hourVolume hour log ≤ windowVolume (hour - 23) log := by
  apply volume_le
  intro t _ ht
  omega

private theorem bounded_created (created : Int) (msg : UpdateLimiterMsg)
    (h : FitsU32 created) :
    Bounded (clockHour created) (createdLimiter created msg) [] where
  toLatestOnly := (tracks_created created msg h).latestOnly
  latest s _ := by
    rw [slotVolume_createdLimiter]
    exact Nat.zero_le _

private theorem bounded_transfer {limiter limiter' : ChainTokenLimiter}
    {t t' : Int} {amount : U64} {log : List LimiterRecord} {event : LimitEvent}
    {output : Option LimitEvent} (hfits : FitsU32 t') (hle : t ≤ t')
    (htransfer : checkTransfer limiter t' amount = .ok (limiter', event))
    (h : Bounded (clockHour t) limiter log) :
    Bounded (clockHour t') limiter'
      (log ++ [⟨limiter, .checkTransfer t' amount, output, limiter'⟩]) := by
  have hhour := currentHour_eq hfits
  have hmono := clockHour_mono hle
  have hcursor := h.cursor
  have hslot := slotAt_eq hfits
  refine ⟨⟨?_, ?_⟩, ?_⟩
  · have hafter := oldestHour_checkTransfer (by omega) htransfer
    omega
  · intro s hs
    have hother : s ≠ slotAt t' := fun heq => hs ((hslot s).mp heq)
    have hold := cleared_le hfits hle h s
    have hnew : s ≠ hourSlot (currentHour t') := hother
    rw [if_neg hother] at hold
    rw [slotVolume_checkTransfer htransfer, if_neg hnew]
    omega
  · intro s hs
    have hsame : s = slotAt t' := (hslot s).mpr hs
    have hold := cleared_le hfits hle h s
    have hnew : s = hourSlot (currentHour t') := hsame
    rw [if_pos hsame] at hold
    rw [slotVolume_checkTransfer htransfer, if_pos hnew, hourVolume_transfer,
      if_pos rfl]
    exact Nat.add_le_add_right hold _

private theorem bounded_step {log : List LimiterRecord} {e : LimiterRecord}
    {t : Int} (hinit : e.pre.isInitialized = true)
    (hstep : IsStep limiterStep e) (hfits : FitsU32 e.input.time)
    (hle : t ≤ e.input.time) (h : Bounded (clockHour t) e.pre log) :
    Bounded (clockHour t) e.post (log ++ [e]) ∨
      Bounded (clockHour e.input.time) e.post (log ++ [e]) := by
  rcases e with ⟨limiter, input, output, limiter'⟩
  cases input with
  | checkTransfer t' amount =>
      rcases limiterStep_checkTransfer hstep rfl with ⟨event, htransfer⟩
      right
      exact bounded_transfer hfits hle htransfer h
  | update t' msg =>
      have hpost := limiterStep_update hinit hstep rfl
      simp only at hpost
      left
      rw [hpost]
      refine ⟨⟨h.cursor, h.others⟩, ?_⟩
      intro s hs
      rw [hourVolume_update]
      exact h.latest s hs

theorem bounded_run (created : Int) (msg : UpdateLimiterMsg)
    (calls : List LimiterCall) (hchronological : Chronological created calls)
    (hfits : ∀ t ∈ created :: calls.map LimiterCall.time, FitsU32 t) :
    ∃ latest ∈ created :: calls.map LimiterCall.time,
      Bounded (clockHour latest) (limiterRun created msg calls).state
        (limiterRun created msg calls).log := by
  have hsublist := callTimes_sublist created msg calls
  have htimes : ∀ t ∈ callTimes (limiterRun created msg calls).log, FitsU32 t :=
    fun t ht => hfits t (List.mem_cons_of_mem _ (hsublist.subset ht))
  have hcreated := hfits created List.mem_cons_self
  have hrun := run_induction (P := fun t : LimiterTrace =>
    (created :: callTimes t.log).Pairwise (· ≤ ·) →
    (∀ x ∈ callTimes t.log, FitsU32 x) →
      t.state.isInitialized = true ∧
        ∃ latest ∈ created :: callTimes t.log,
          Bounded (clockHour latest) t.state t.log)
    ?_ ?_ calls (hchronological.log msg) htimes
  · rcases hrun.2 with ⟨latest, hmem, hbounded⟩
    exact ⟨latest, (hsublist.cons_cons created).subset hmem, hbounded⟩
  · intro _ _
    exact ⟨createdLimiter_initialized created msg, created, List.mem_cons_self,
      bounded_created created msg hcreated⟩
  · intro log e ih hstep hsorted htimes
    rw [callTimes_concat, ← List.cons_append, List.pairwise_append] at hsorted
    rw [callTimes_concat] at htimes
    rcases ih hsorted.1 fun t ht => htimes t (List.mem_append_left _ ht) with
      ⟨hinit, latest, hmem, hbounded⟩
    have hlast : e.input.time ∈ callTimes log ++ [e.input.time] := by simp
    have hle : latest ≤ e.input.time := hsorted.2.2 latest hmem _ (by simp)
    refine ⟨limiterStep_initialized hinit hstep, ?_⟩
    rw [callTimes_concat, ← List.cons_append]
    rcases bounded_step hinit hstep (htimes _ hlast) hle hbounded with
      hbefore | hnow
    · exact ⟨latest, List.mem_append_left _ hmem, hbefore⟩
    · exact ⟨e.input.time, List.mem_cons_of_mem _ hlast, hnow⟩

/--
A transfer that fits into the limit together with the volume of its last 24
hours is accepted, and the three checked additions are exact.
-/
theorem legal_transfer_accepted (created : Int) (msg : UpdateLimiterMsg)
    (calls : List LimiterCall) (t : Int) (amount : U64)
    (hchronological : Chronological created (calls ++ [.checkTransfer t amount]))
    (hfits : ∀ t' ∈ created ::
      (calls ++ [LimiterCall.checkTransfer t amount]).map
        LimiterCall.time, FitsU32 t')
    (hroom : amount.toNat +
        windowVolume (clockHour t - 23) (limiterRun created msg calls).log ≤
      (limiterRun created msg calls).state.totalLimit.toNat) :
    ∃ limiter' event,
      checkTransfer (limiterRun created msg calls).state t amount =
          .ok (limiter', event) ∧
        event.totalBefore.toNat = totalVolume
          (clearExpired (limiterRun created msg calls).state (currentHour t)) ∧
        event.totalAfter.toNat = event.totalBefore.toNat + amount.toNat ∧
        slotVolume limiter' (slotAt t) = slotVolume
          (clearExpired (limiterRun created msg calls).state (currentHour t))
          (slotAt t) + amount.toNat := by
  rw [Chronological, List.map_append, ← List.cons_append,
    List.pairwise_append] at hchronological
  rw [List.map_append, ← List.cons_append] at hfits
  have hnow : FitsU32 t := hfits t (List.mem_append_right _ List.mem_cons_self)
  rcases bounded_run created msg calls hchronological.1 fun t' ht' =>
    hfits t' (List.mem_append_left _ ht') with ⟨latest, hmem, hbounded⟩
  have hle : latest ≤ t := hchronological.2.2 latest hmem t List.mem_cons_self
  have htotal := totalVolume_cleared_le hnow hle hbounded
  have hwindow := hourVolume_le_windowVolume (clockHour t)
    (limiterRun created msg calls).log
  have hlimit := (limiterRun created msg calls).state.totalLimit.isLt
  have haccepted : totalVolume
      (clearExpired (limiterRun created msg calls).state (currentHour t)) +
        amount.toNat ≤ (limiterRun created msg calls).state.totalLimit.toNat := by
    omega
  have hok := checkTransfer_eq_ok.mpr ⟨haccepted, rfl, rfl⟩
  have hslot := slotVolume_checkTransfer hok (slotAt t)
  have hself : slotAt t = hourSlot (currentHour t) := rfl
  rw [if_pos hself, ← slotVolume_clearExpired] at hslot
  refine ⟨_, _, hok, ?_, ?_, hslot⟩
  · rw [BitVec.toNat_ofNat, Nat.mod_eq_of_lt (by omega)]
  · rw [BitVec.toNat_ofNat, BitVec.toNat_ofNat, Nat.mod_eq_of_lt (by omega),
      Nat.mod_eq_of_lt (by omega)]

theorem legal_transfer_accepted_sample :
    ∃ limiter' event,
      checkTransfer (limiterRun 0 sampleCap
        [.checkTransfer 60 90, .update 3600 { sampleCap with totalLimit := 10 },
          .update 172800 sampleCap]).state 172860 100 = .ok (limiter', event) := by
  rcases legal_transfer_accepted 0 sampleCap
    [.checkTransfer 60 90, .update 3600 { sampleCap with totalLimit := 10 },
      .update 172800 sampleCap] 172860 100 (by decide) (by decide)
    (by decide +kernel) with ⟨limiter', event, hok, -⟩
  exact ⟨limiter', event, hok⟩

end SolBtcBridge.Properties
