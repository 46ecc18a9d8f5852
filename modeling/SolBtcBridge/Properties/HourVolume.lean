import SolBtcBridge.Properties.RollingCap

/-!
# The volume of the current hour

Only the slot of the latest hour is ever occupied: a later hour clears it.
Within the hour the slot is exact unless the cursor still lags the clock by a
day or more.  Then every call clears all slots, the current one included.
-/

namespace SolBtcBridge.Properties

open SolBtcBridge.Foundation
open SolBtcBridge.Runtime
open SolBtcBridge.Program
open SolBtcBridge.Effects

def hourVolume (hour : Int) (log : List LimiterRecord) : Nat :=
  volume (fun t => clockHour t = hour) log

/-- After the transfer the slot of its hour holds the volume of that hour. -/
def SlotExact (before : List LimiterRecord) : LimiterRecord → Prop
  | ⟨_, .checkTransfer t amount, _, limiter⟩ =>
      slotVolume limiter (slotAt t) =
        hourVolume (clockHour t) before + amount.toNat
  | ⟨_, .update _ _, _, _⟩ => True

instance (before : List LimiterRecord) :
    (e : LimiterRecord) → Decidable (SlotExact before e)
  | ⟨_, .checkTransfer t amount, _, limiter⟩ => inferInstanceAs (Decidable
      (slotVolume limiter (slotAt t) =
        hourVolume (clockHour t) before + amount.toNat))
  | ⟨_, .update _ _, _, _⟩ => inferInstanceAs (Decidable True)

/-- The cursor lags a day or more only at the first volume of an hour. -/
def NoLateLag (before : List LimiterRecord) : LimiterRecord → Prop
  | ⟨limiter, .checkTransfer t _, _, _⟩ =>
      24 ≤ hoursPassed limiter (currentHour t) →
        hourVolume (clockHour t) before = 0
  | ⟨_, .update _ _, _, _⟩ => True

instance (before : List LimiterRecord) :
    (e : LimiterRecord) → Decidable (NoLateLag before e)
  | ⟨limiter, .checkTransfer t _, _, _⟩ => inferInstanceAs (Decidable
      (24 ≤ hoursPassed limiter (currentHour t) →
        hourVolume (clockHour t) before = 0))
  | ⟨_, .update _ _, _, _⟩ => inferInstanceAs (Decidable True)

def FitsU32 (t : Int) : Prop := 0 ≤ t ∧ t < 2 ^ 32

instance (t : Int) : Decidable (FitsU32 t) :=
  inferInstanceAs (Decidable (0 ≤ t ∧ t < 2 ^ 32))

theorem currentHour_eq {t : Int} (h : FitsU32 t) :
    ((currentHour t).toNat : Int) = clockHour t := by
  obtain ⟨hzero, hlt⟩ := h
  have hofInt : (BitVec.ofInt 32 t).toNat = t.toNat := by
    rw [BitVec.toNat_ofInt, Int.emod_eq_of_lt hzero (by exact_mod_cast hlt)]
  have hdivisor : (3600 : U32).toNat = 3600 := rfl
  rw [currentHour, BitVec.toNat_udiv, hofInt, hdivisor, clockHour]
  omega

theorem slotAt_eq {t : Int} (h : FitsU32 t) (s : Fin 24) :
    s = slotAt t ↔ (s.val : Int) = clockHour t % 24 := by
  rw [← currentHour_eq h, slotAt, hourSlot, Fin.ext_iff]
  simp only
  omega

/-- At most the slot of `hour` is occupied, and the cursor is not past it. -/
structure LatestOnly (hour : Int) (limiter : ChainTokenLimiter) : Prop where
  cursor : (limiter.oldestHour.toNat : Int) ≤ hour
  others : ∀ s : Fin 24, (s.val : Int) ≠ hour % 24 → slotVolume limiter s = 0

theorem slot_after_clearing {limiter : ChainTokenLimiter} {t t' : Int}
    (hfits : FitsU32 t') (hle : t ≤ t')
    (h : LatestOnly (clockHour t) limiter) (s : Fin 24) :
    (if Clears limiter (currentHour t') s then 0 else slotVolume limiter s) =
      if hoursPassed limiter (currentHour t') < 24 ∧ clockHour t = clockHour t'
      then slotVolume limiter s else 0 := by
  have hhour := currentHour_eq hfits
  have hmono := clockHour_mono hle
  have hcursor := h.cursor
  have hbehind : limiter.oldestHour.toNat ≤ (currentHour t').toNat := by omega
  have hpassed := hoursPassed_of_le hbehind
  by_cases hs : (s.val : Int) = clockHour t % 24
  · by_cases hkept : hoursPassed limiter (currentHour t') < 24 ∧
        clockHour t = clockHour t'
    · rcases hkept with ⟨hday, hsame⟩
      have hclears : ¬ Clears limiter (currentHour t') s := by
        rintro ⟨i, hi, heq⟩
        simp only [slotsToClear] at hi
        omega
      rw [if_neg hclears, if_pos ⟨hday, hsame⟩]
    · have hclears : Clears limiter (currentHour t') s := by
        by_cases hday : 24 ≤ hoursPassed limiter (currentHour t')
        · exact clears_of_lag hday s
        · -- a new hour: the cursor passes the latest slot on its way
          refine ⟨(clockHour t).toNat - limiter.oldestHour.toNat, ?_, ?_⟩
          · simp only [slotsToClear]
            omega
          · omega
      rw [if_pos hclears, if_neg hkept]
  · rw [h.others s hs]
    split <;> split <;> rfl

/-- The slots after the latest transfer, which happened in `hour`. -/
structure Tracks (hour : Int) (limiter : ChainTokenLimiter)
    (log : List LimiterRecord) : Prop where
  cursor : (limiter.oldestHour.toNat : Int) ≤ hour
  slots : ∀ s : Fin 24, slotVolume limiter s =
    if (s.val : Int) = hour % 24 then hourVolume hour log else 0
  future : ∀ later, hour < later → hourVolume later log = 0

theorem Tracks.latestOnly {hour : Int} {limiter : ChainTokenLimiter}
    {log : List LimiterRecord} (h : Tracks hour limiter log) :
    LatestOnly hour limiter := by
  refine ⟨h.cursor, ?_⟩
  intro s hs
  rw [h.slots s, if_neg hs]

private theorem slots_after_clearing {limiter : ChainTokenLimiter} {t t' : Int}
    {log : List LimiterRecord} (hfits : FitsU32 t') (hle : t ≤ t')
    (h : Tracks (clockHour t) limiter log)
    (hlag : 24 ≤ hoursPassed limiter (currentHour t') →
      hourVolume (clockHour t') log = 0) (s : Fin 24) :
    (if Clears limiter (currentHour t') s then 0 else slotVolume limiter s) =
      if (s.val : Int) = clockHour t' % 24 then hourVolume (clockHour t') log
      else 0 := by
  have hmono := clockHour_mono hle
  rw [slot_after_clearing hfits hle h.latestOnly s]
  by_cases hkept : hoursPassed limiter (currentHour t') < 24 ∧
      clockHour t = clockHour t'
  · rw [if_pos hkept, h.slots s, hkept.2]
  · have hzero : hourVolume (clockHour t') log = 0 := by
      by_cases hday : 24 ≤ hoursPassed limiter (currentHour t')
      · exact hlag hday
      · exact h.future _ (by omega)
    rw [if_neg hkept, hzero]
    split <;> rfl

theorem hourVolume_transfer {limiter limiter' : ChainTokenLimiter} {t : Int}
    {amount : U64} {output : Option LimitEvent} (hour : Int)
    (log : List LimiterRecord) :
    hourVolume hour (log ++ [⟨limiter, .checkTransfer t amount, output, limiter'⟩]) =
      hourVolume hour log + if clockHour t = hour then amount.toNat else 0 := by
  simp only [hourVolume, volume_concat, transferred]

theorem hourVolume_update {limiter limiter' : ChainTokenLimiter} {t : Int}
    {msg : UpdateLimiterMsg} {output : Option LimitEvent} (hour : Int)
    (log : List LimiterRecord) :
    hourVolume hour (log ++ [⟨limiter, .update t msg, output, limiter'⟩]) =
      hourVolume hour log := by
  simp only [hourVolume, volume_concat, transferred, Nat.add_zero]

private theorem tracks_transfer {limiter limiter' : ChainTokenLimiter}
    {t t' : Int} {amount : U64} {log : List LimiterRecord} {event : LimitEvent}
    {output : Option LimitEvent} (hfits : FitsU32 t') (hle : t ≤ t')
    (htransfer : checkTransfer limiter t' amount = .ok (limiter', event))
    (hlag : 24 ≤ hoursPassed limiter (currentHour t') →
      hourVolume (clockHour t') log = 0)
    (h : Tracks (clockHour t) limiter log) :
    Tracks (clockHour t') limiter'
      (log ++ [⟨limiter, .checkTransfer t' amount, output, limiter'⟩]) := by
  have hhour := currentHour_eq hfits
  have hmono := clockHour_mono hle
  have hcursor := h.cursor
  refine ⟨?_, ?_, ?_⟩
  · have hafter := oldestHour_checkTransfer (by omega) htransfer
    omega
  · intro s
    have hslot : s = hourSlot (currentHour t') ↔ _ := slotAt_eq hfits s
    rw [slotVolume_checkTransfer htransfer,
      slots_after_clearing hfits hle h hlag s, hourVolume_transfer, if_pos rfl]
    by_cases hs : s = hourSlot (currentHour t')
    · rw [if_pos hs, if_pos (hslot.mp hs), if_pos (hslot.mp hs)]
    · rw [if_neg hs, if_neg fun h => hs (hslot.mpr h),
        if_neg fun h => hs (hslot.mpr h)]
  · intro later hlater
    rw [hourVolume_transfer, h.future later (by omega), if_neg (by omega)]

/-! ## Runs -/

private theorem noLateLag_of_slotExact {log : List LimiterRecord}
    {e : LimiterRecord} (hstep : IsStep limiterStep e) (h : SlotExact log e) :
    NoLateLag log e := by
  obtain ⟨limiter, input, output, limiter'⟩ := e
  cases input with
  | checkTransfer t amount =>
      intro hlag
      obtain ⟨event, htransfer⟩ := limiterStep_checkTransfer hstep rfl
      rw [SlotExact, slotVolume_checkTransfer htransfer,
        if_pos (clears_of_lag hlag _), slotAt, if_pos rfl] at h
      omega
  | update t msg => trivial

theorem tracks_created (created : Int) (msg : UpdateLimiterMsg)
    (h : FitsU32 created) :
    Tracks (clockHour created) (createdLimiter created msg) [] where
  cursor := by
    rw [← currentHour_eq h]
    exact le_rfl
  slots s := by
    rw [slotVolume_createdLimiter]
    split <;> rfl
  future _ _ := rfl

private theorem tracks_step {log : List LimiterRecord} {e : LimiterRecord}
    {t : Int} (hinit : e.pre.isInitialized = true)
    (hstep : IsStep limiterStep e) (hfits : FitsU32 e.input.time)
    (hle : t ≤ e.input.time) (hlag : NoLateLag log e)
    (h : Tracks (clockHour t) e.pre log) :
    (∃ t' ∈ [t, e.input.time], Tracks (clockHour t') e.post (log ++ [e])) ∧
      SlotExact log e := by
  obtain ⟨limiter, input, output, limiter'⟩ := e
  cases input with
  | checkTransfer t' amount =>
      obtain ⟨event, htransfer⟩ := limiterStep_checkTransfer hstep rfl
      have hafter : Tracks (clockHour t') limiter' (log ++
          [⟨limiter, .checkTransfer t' amount, output, limiter'⟩]) :=
        tracks_transfer hfits hle htransfer hlag h
      refine ⟨⟨t', by simp [LimiterCall.time], hafter⟩, ?_⟩
      have hslot : ((slotAt t').val : Int) = clockHour t' % 24 :=
        (slotAt_eq hfits _).mp rfl
      rw [SlotExact, hafter.slots, if_pos hslot, hourVolume_transfer, if_pos rfl]
  | update t' msg =>
      have hpost := limiterStep_update hinit hstep rfl
      simp only at hpost
      refine ⟨⟨t, by simp, ?_⟩, trivial⟩
      rw [hpost]
      refine ⟨h.cursor, fun s => ?_, fun later hlater => ?_⟩
      · rw [hourVolume_update]
        exact h.slots s
      · rw [hourVolume_update]
        exact h.future later hlater

/-- The slot of an hour is exact as long as no transfer comes while the cursor lags. -/
theorem hour_volume_exact_iff (created : Int) (msg : UpdateLimiterMsg)
    (calls : List LimiterCall) (hchronological : Chronological created calls)
    (hfits : ∀ t ∈ created :: calls.map LimiterCall.time, FitsU32 t) :
    EachStep SlotExact (limiterRun created msg calls).log ↔
      EachStep NoLateLag (limiterRun created msg calls).log := by
  constructor
  · intro h
    exact h.imp fun before e he hexact =>
      noLateLag_of_slotExact (isStep_of_mem he) hexact
  · intro hlag
    have htimes : ∀ t ∈ callTimes (limiterRun created msg calls).log, FitsU32 t :=
      fun t ht => hfits t (List.mem_cons_of_mem _
        ((callTimes_sublist created msg calls).subset ht))
    have hcreated := hfits created List.mem_cons_self
    refine (run_induction (P := fun t : LimiterTrace =>
      (created :: callTimes t.log).Pairwise (· ≤ ·) →
      (∀ x ∈ callTimes t.log, FitsU32 x) → EachStep NoLateLag t.log →
        t.state.isInitialized = true ∧
          (∃ latest ∈ created :: callTimes t.log,
            Tracks (clockHour latest) t.state t.log) ∧
          EachStep SlotExact t.log)
      ?_ ?_ calls (hchronological.log msg) htimes hlag).2.2
    · intro _ _ _
      exact ⟨createdLimiter_initialized created msg,
        ⟨created, by simp, tracks_created created msg hcreated⟩, eachStep_nil⟩
    · intro log e ih hstep hsorted htimes hlag
      rw [callTimes_concat, ← List.cons_append, List.pairwise_append] at hsorted
      rw [callTimes_concat] at htimes
      obtain ⟨hlagLog, hlagLast⟩ := eachStep_concat.mp hlag
      obtain ⟨hinit, ⟨latest, hmem, htracks⟩, hexact⟩ :=
        ih hsorted.1 (fun t ht => htimes t (by simp [ht])) hlagLog
      have hle : latest ≤ e.input.time := hsorted.2.2 latest hmem _ (by simp)
      obtain ⟨⟨t', ht', htracks'⟩, hexactLast⟩ :=
        tracks_step hinit hstep (htimes _ (by simp)) hle hlagLast htracks
      refine ⟨limiterStep_initialized hinit hstep, ⟨t', ?_, htracks'⟩,
        eachStep_concat.mpr ⟨hexact, hexactLast⟩⟩
      rw [callTimes_concat]
      rcases List.mem_pair.mp ht' with rfl | rfl
      · rcases List.mem_cons.mp hmem with rfl | hmem
        · simp
        · simp [hmem]
      · simp

theorem hour_volume_exact_sample :
    EachStep SlotExact (limiterRun 0 sampleCap
      [.checkTransfer 0 5, .checkTransfer 60 7, .checkTransfer 72000 20,
        .checkTransfer 72060 30]).log :=
  (hour_volume_exact_iff 0 sampleCap
    [.checkTransfer 0 5, .checkTransfer 60 7, .checkTransfer 72000 20,
      .checkTransfer 72060 30] (by decide) (by decide)).mpr (by decide +kernel)

theorem not_slotExact_sample :
    Chronological 0 [.checkTransfer 172800 5, .checkTransfer 172860 7] ∧
      (∀ t ∈ [0, 172800, 172860], FitsU32 t) ∧
      ¬ EachStep SlotExact (limiterRun 0 sampleCap
        [.checkTransfer 172800 5, .checkTransfer 172860 7]).log :=
  ⟨by decide, by decide, by decide +kernel⟩

end SolBtcBridge.Properties
