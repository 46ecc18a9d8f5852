import SolBtcBridge.Program.Limiter
import Mathlib.Algebra.BigOperators.Fin
import Mathlib.Algebra.Order.BigOperators.Group.Finset

/-!
# What the limiter does to its slots

A transfer is accepted exactly when the volume left after clearing, plus the
amount, is within the limit.  None of the checked additions can then overflow,
because every partial sum is bounded by the limit.
-/

namespace SolBtcBridge.Effects

open SolBtcBridge.Foundation
open SolBtcBridge.Runtime
open SolBtcBridge.Program

def slotVolume (limiter : ChainTokenLimiter) (s : Fin 24) : Nat :=
  limiter.hourlyTransfers[s].toNat

def totalVolume (limiter : ChainTokenLimiter) : Nat :=
  ∑ s, slotVolume limiter s

private theorem toList_eq_ofFn {α : Type} {n : Nat} (v : Vector α n) :
    v.toList = List.ofFn fun i : Fin n => v[i] := by
  apply List.ext_getElem
  · simp
  · intro i h1 h2
    simp

private theorem checkedSum_slots {limiter : ChainTokenLimiter} {total : U64} :
    checkedSum 0 limiter.hourlyTransfers.toList = some total ↔
      total.toNat = totalVolume limiter := by
  rw [checkedSum_eq_some, toList_eq_ofFn, List.map_ofFn, List.sum_ofFn]
  simp [totalVolume, slotVolume]

private theorem slotVolume_le_totalVolume (limiter : ChainTokenLimiter)
    (s : Fin 24) :
    slotVolume limiter s ≤ totalVolume limiter :=
  Finset.single_le_sum (f := slotVolume limiter) (fun _ _ => Nat.zero_le _)
    (Finset.mem_univ s)

private theorem clearSlots_get (start n : Nat) (slots : Vector U64 24)
    (s : Fin 24) :
    (clearSlots start n slots)[s] =
      if ∃ i < n, (start + i) % 24 = s.val then 0 else slots[s] := by
  induction n with
  | zero => simp [clearSlots]
  | succ n ih =>
      simp only [clearSlots]
      by_cases hs : (start + n) % 24 = s.val
      · have hex : ∃ i < n + 1, (start + i) % 24 = s.val := ⟨n, by omega, hs⟩
        rw [if_pos hex]
        simp [hs]
      · have hiff : (∃ i < n + 1, (start + i) % 24 = s.val) ↔
            ∃ i < n, (start + i) % 24 = s.val := by
          constructor
          · rintro ⟨i, hi, heq⟩
            have hne : i ≠ n := by
              rintro rfl
              exact hs heq
            exact ⟨i, by omega, heq⟩
          · rintro ⟨i, hi, heq⟩
            exact ⟨i, by omega, heq⟩
        rw [Fin.getElem_fin, Vector.getElem_set_ne _ _ hs]
        simp only [hiff]
        exact ih

/-- The call at `currentH` clears the slot before it counts. -/
def Clears (limiter : ChainTokenLimiter) (currentH : U32) (s : Fin 24) : Prop :=
  ∃ i < slotsToClear limiter currentH,
    (limiter.oldestHour.toNat + i) % 24 = s.val

instance (limiter : ChainTokenLimiter) (currentH : U32) (s : Fin 24) :
    Decidable (Clears limiter currentH s) := by
  unfold Clears
  infer_instance

theorem clears_of_lag {limiter : ChainTokenLimiter} {currentH : U32}
    (h : 24 ≤ hoursPassed limiter currentH) (s : Fin 24) :
    Clears limiter currentH s := by
  have hs := s.isLt
  refine ⟨(s.val + 24 - limiter.oldestHour.toNat % 24) % 24, ?_, ?_⟩
  · simp only [slotsToClear]
    omega
  · omega

theorem hoursPassed_of_le {limiter : ChainTokenLimiter} {currentH : U32}
    (h : limiter.oldestHour.toNat ≤ currentH.toNat) :
    hoursPassed limiter currentH =
      currentH.toNat - limiter.oldestHour.toNat := by
  rw [hoursPassed, BitVec.toNat_sub_of_le (BitVec.le_def.mpr h)]

theorem slotVolume_clearExpired (limiter : ChainTokenLimiter) (currentH : U32)
    (s : Fin 24) :
    slotVolume (clearExpired limiter currentH) s =
      if Clears limiter currentH s then 0 else slotVolume limiter s := by
  unfold clearExpired
  by_cases hpassed : 0 < hoursPassed limiter currentH
  · have hiff : (∃ i < slotsToClear limiter currentH,
        (limiter.oldestHour.toNat % 24 + i) % 24 = s.val) ↔
        Clears limiter currentH s := by
      simp only [Clears, Nat.mod_add_mod]
    simp only [if_pos hpassed, slotVolume, clearSlots_get, hiff]
    split <;> rfl
  · have hnone : ¬ Clears limiter currentH s := by
      rintro ⟨i, hi, -⟩
      simp only [slotsToClear] at hi
      omega
    rw [if_neg hpassed, if_neg hnone]

private theorem totalLimit_clearExpired (limiter : ChainTokenLimiter)
    (currentH : U32) :
    (clearExpired limiter currentH).totalLimit = limiter.totalLimit := by
  unfold clearExpired
  split <;> rfl

/-! ## Accepting a transfer -/

def recordTransfer (limiter : ChainTokenLimiter) (currentH : U32) (amount : U64) :
    ChainTokenLimiter :=
  { limiter with
    hourlyTransfers := limiter.hourlyTransfers.set (hourSlot currentH)
      (limiter.hourlyTransfers[hourSlot currentH] + amount) }

theorem checkTransfer_eq_ok {limiter limiter' : ChainTokenLimiter}
    {unixTimestamp : Int} {amount : U64} {event : LimitEvent} :
    checkTransfer limiter unixTimestamp amount = .ok (limiter', event) ↔
      totalVolume (clearExpired limiter (currentHour unixTimestamp)) +
          amount.toNat ≤ limiter.totalLimit.toNat ∧
        limiter' = recordTransfer
          (clearExpired limiter (currentHour unixTimestamp))
          (currentHour unixTimestamp) amount ∧
        event =
          { currentH := currentHour unixTimestamp
            currentSlot := BitVec.ofNat 8
              (hourSlot (currentHour unixTimestamp)).val
            totalBefore := BitVec.ofNat 64 (totalVolume
              (clearExpired limiter (currentHour unixTimestamp)))
            totalAfter := BitVec.ofNat 64 (totalVolume
              (clearExpired limiter (currentHour unixTimestamp)) +
                amount.toNat) } := by
  rw [← totalLimit_clearExpired limiter (currentHour unixTimestamp)]
  simp only [checkTransfer, bind_eq_ok, orFail_eq_ok, require_eq_ok, pure_eq_ok,
    addOrPanic_eq_ok, checkedSum_slots, exists_and_left, exists_const,
    Prod.mk.injEq]
  generalize clearExpired limiter (currentHour unixTimestamp) = cleared
  have hlt := cleared.totalLimit.isLt
  have hslot := slotVolume_le_totalVolume cleared
    (hourSlot (currentHour unixTimestamp))
  constructor
  · rintro ⟨total, htotal, totalAfter, hafter, hle, slot, hadd, rfl, rfl⟩
    have hslotEq : slot = cleared.hourlyTransfers[hourSlot
        (currentHour unixTimestamp)] + amount := by
      apply BitVec.eq_of_toNat_eq
      have hslotLt := slot.isLt
      rw [BitVec.toNat_add, ← hadd, Nat.mod_eq_of_lt hslotLt]
    have hafterEq : totalVolume cleared + amount.toNat = totalAfter.toNat := by
      omega
    refine ⟨by omega, ?_, ?_⟩
    · rw [hslotEq]
      rfl
    · rw [hafterEq, ← htotal, BitVec.ofNat_toNat, BitVec.ofNat_toNat,
        BitVec.setWidth_eq, BitVec.setWidth_eq]
  · rintro ⟨hle, rfl, rfl⟩
    have hofNat : ∀ k, k ≤ cleared.totalLimit.toNat →
        (BitVec.ofNat 64 k).toNat = k := by
      intro k hk
      rw [BitVec.toNat_ofNat, Nat.mod_eq_of_lt (by omega)]
    have hfits : cleared.hourlyTransfers[hourSlot
        (currentHour unixTimestamp)].toNat + amount.toNat < 2 ^ 64 := by
      simp only [slotVolume] at hslot
      omega
    exact ⟨_, hofNat _ (by omega), _,
      by rw [hofNat _ hle, hofNat _ (by omega)], by rw [hofNat _ hle]; exact hle,
      _, BitVec.toNat_add_of_lt hfits, rfl, rfl⟩

theorem slotVolume_checkTransfer {limiter limiter' : ChainTokenLimiter}
    {unixTimestamp : Int} {amount : U64} {event : LimitEvent}
    (h : checkTransfer limiter unixTimestamp amount = .ok (limiter', event))
    (s : Fin 24) :
    slotVolume limiter' s =
      (if Clears limiter (currentHour unixTimestamp) s then 0
        else slotVolume limiter s) +
      if s = hourSlot (currentHour unixTimestamp) then amount.toNat else 0 := by
  obtain ⟨hle, rfl, -⟩ := checkTransfer_eq_ok.mp h
  rw [← slotVolume_clearExpired]
  have hlt := limiter.totalLimit.isLt
  have hslot := slotVolume_le_totalVolume
    (clearExpired limiter (currentHour unixTimestamp))
    (hourSlot (currentHour unixTimestamp))
  by_cases hs : s = hourSlot (currentHour unixTimestamp)
  · subst hs
    have hfits : slotVolume (clearExpired limiter (currentHour unixTimestamp))
        (hourSlot (currentHour unixTimestamp)) + amount.toNat < 2 ^ 64 := by
      omega
    rw [if_pos rfl]
    simp only [slotVolume, recordTransfer, Fin.getElem_fin,
      Vector.getElem_set_self] at hfits ⊢
    exact BitVec.toNat_add_of_lt hfits
  · have hne : (hourSlot (currentHour unixTimestamp)).val ≠ s.val := by
      intro heq
      exact hs (Fin.ext heq.symm)
    rw [if_neg hs, Nat.add_zero]
    simp only [slotVolume, recordTransfer, Fin.getElem_fin]
    rw [Vector.getElem_set_ne _ _ hne]

theorem totalVolume_checkTransfer {limiter limiter' : ChainTokenLimiter}
    {unixTimestamp : Int} {amount : U64} {event : LimitEvent}
    (h : checkTransfer limiter unixTimestamp amount = .ok (limiter', event)) :
    totalVolume limiter' ≤ limiter.totalLimit.toNat := by
  have hsum : totalVolume limiter' =
      totalVolume (clearExpired limiter (currentHour unixTimestamp)) +
        amount.toNat := by
    simp only [totalVolume, slotVolume_checkTransfer h, Finset.sum_add_distrib,
      slotVolume_clearExpired]
    rw [Finset.sum_ite_eq', if_pos (Finset.mem_univ _)]
  rw [hsum]
  exact (checkTransfer_eq_ok.mp h).1

theorem checkTransfer_fields {limiter limiter' : ChainTokenLimiter}
    {unixTimestamp : Int} {amount : U64} {event : LimitEvent}
    (h : checkTransfer limiter unixTimestamp amount = .ok (limiter', event)) :
    limiter'.isInitialized = limiter.isInitialized ∧
      limiter'.chainId = limiter.chainId ∧ limiter'.tokenId = limiter.tokenId ∧
      limiter'.totalLimit = limiter.totalLimit ∧
      limiter'.oldestHour = limiter.oldestHour +
        BitVec.ofNat 32 (slotsToClear limiter (currentHour unixTimestamp)) := by
  obtain ⟨-, rfl, -⟩ := checkTransfer_eq_ok.mp h
  unfold recordTransfer clearExpired
  split
  · exact ⟨rfl, rfl, rfl, rfl, rfl⟩
  · rename_i hpassed
    have hzero : slotsToClear limiter (currentHour unixTimestamp) = 0 := by
      simp only [slotsToClear]
      omega
    exact ⟨rfl, rfl, rfl, rfl, by rw [hzero]; simp⟩

theorem oldestHour_checkTransfer {limiter limiter' : ChainTokenLimiter}
    {unixTimestamp : Int} {amount : U64} {event : LimitEvent}
    (hle : limiter.oldestHour.toNat ≤ (currentHour unixTimestamp).toNat)
    (h : checkTransfer limiter unixTimestamp amount = .ok (limiter', event)) :
    limiter'.oldestHour.toNat ≤ (currentHour unixTimestamp).toNat := by
  have hpassed := hoursPassed_of_le hle
  have hlt := (currentHour unixTimestamp).isLt
  rw [(checkTransfer_fields h).2.2.2.2, BitVec.toNat_add, BitVec.toNat_ofNat]
  simp only [slotsToClear]
  omega

theorem updateLimiter_initialized (limiter : ChainTokenLimiter)
    (unixTimestamp : Int) (msg : UpdateLimiterMsg) :
    (updateLimiter limiter unixTimestamp msg).isInitialized = true ∧
      (updateLimiter limiter unixTimestamp msg).totalLimit = msg.totalLimit := by
  unfold updateLimiter
  split
  · exact ⟨rfl, rfl⟩
  · rename_i hinit
    exact ⟨by simpa using hinit, rfl⟩

end SolBtcBridge.Effects
