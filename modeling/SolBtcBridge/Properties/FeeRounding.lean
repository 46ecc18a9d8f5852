import SolBtcBridge.Foundation.Rounding
import SolBtcBridge.Properties.WithdrawArithmetic

/-!
# Rounding of the withdrawal fee

The fee is a share of the amount, rounded down.  Splitting a withdrawal saves
less than one unit for each part, and a larger withdrawal is charged no less
and pays out no less.
-/

namespace SolBtcBridge.Properties

open SolBtcBridge.Foundation
open SolBtcBridge.Runtime
open SolBtcBridge.Program

def totalAmount (amounts : List U64) : Nat :=
  (amounts.map BitVec.toNat).sum

def totalFee (tokenFeePercentage : U64) (amounts : List U64) : Nat :=
  (amounts.map fun amount => (withdrawFee amount tokenFeePercentage).toNat).sum

/-- `msg.amount - fee`, the part of a withdrawal that is burned and paid out. -/
def netAmount (amount tokenFeePercentage : U64) : Result U64 :=
  subOrPanic amount (withdrawFee amount tokenFeePercentage)

section

variable {tokenFeePercentage : U64}
  (hfee : tokenFeePercentage.toNat < Constants.feeDenominator)

include hfee

private theorem withdrawFee_eq_share (amount : U64) :
    (withdrawFee amount tokenFeePercentage).toNat =
      share tokenFeePercentage.toNat Constants.feeDenominator amount.toNat :=
  withdrawFee_toNat amount hfee

private theorem totalFee_eq_sum (amounts : List U64) :
    totalFee tokenFeePercentage amounts =
      ((amounts.map BitVec.toNat).map
        (share tokenFeePercentage.toNat Constants.feeDenominator)).sum := by
  rw [totalFee, List.map_map]
  congr 1
  exact List.map_congr_left fun amount _ => withdrawFee_eq_share hfee amount

private theorem totalFee_bounds {amounts : List U64} (hne : amounts ≠ [])
    {whole : U64} (hwhole : whole.toNat = totalAmount amounts) :
    totalFee tokenFeePercentage amounts ≤
        (withdrawFee whole tokenFeePercentage).toNat ∧
      (withdrawFee whole tokenFeePercentage).toNat <
        totalFee tokenFeePercentage amounts + amounts.length := by
  rw [totalFee_eq_sum hfee, withdrawFee_eq_share hfee, hwhole, totalAmount]
  have hne' : amounts.map BitVec.toNat ≠ [] := by simpa using hne
  have hlt := share_sum_lt (p := tokenFeePercentage.toNat)
    (d := Constants.feeDenominator) hne'
  rw [List.length_map] at hlt
  exact ⟨sum_share_le _, hlt⟩

private theorem withdrawFee_mono {a b : U64} (h : a.toNat ≤ b.toNat) :
    (withdrawFee a tokenFeePercentage).toNat ≤
      (withdrawFee b tokenFeePercentage).toNat := by
  rw [withdrawFee_eq_share hfee, withdrawFee_eq_share hfee]
  exact share_mono h

private theorem netAmount_eq_ok {amount net : U64} :
    netAmount amount tokenFeePercentage = .ok net ↔
      net.toNat = amount.toNat -
        share tokenFeePercentage.toNat Constants.feeDenominator
          amount.toNat := by
  have hle := exactFee_le amount hfee
  rw [← withdrawFee_toNat amount hfee, withdrawFee_eq_share hfee] at hle
  rw [netAmount, subOrPanic_eq_ok, withdrawFee_eq_share hfee]
  omega

private theorem netAmount_isOk (amount : U64) :
    ∃ net, netAmount amount tokenFeePercentage = .ok net := by
  refine ⟨BitVec.ofNat 64 (amount.toNat - share tokenFeePercentage.toNat
    Constants.feeDenominator amount.toNat), (netAmount_eq_ok hfee).mpr ?_⟩
  have hlt := amount.isLt
  rw [BitVec.toNat_ofNat, Nat.mod_eq_of_lt (by omega)]

private theorem netAmount_mono {a b : U64} (h : a.toNat ≤ b.toNat) :
    ∃ net net', netAmount a tokenFeePercentage = .ok net ∧
      netAmount b tokenFeePercentage = .ok net' ∧ net.toNat ≤ net'.toNat := by
  rcases netAmount_isOk hfee a with ⟨net, hnet⟩
  rcases netAmount_isOk hfee b with ⟨net', hnet'⟩
  refine ⟨net, net', hnet, hnet', ?_⟩
  rw [(netAmount_eq_ok hfee).mp hnet, (netAmount_eq_ok hfee).mp hnet']
  exact rest_mono (by decide) (Nat.le_of_lt hfee) h

end

/--
Splitting a withdrawal into parts saves less than one unit for each part; the
fee and the amount paid out grow with the withdrawal.
-/
theorem fee_rounding (tokenFeePercentage : U64)
    (hfee : tokenFeePercentage.toNat < Constants.feeDenominator) :
    (∀ (amounts : List U64) (whole : U64), amounts ≠ [] →
      whole.toNat = totalAmount amounts →
      totalFee tokenFeePercentage amounts ≤
          (withdrawFee whole tokenFeePercentage).toNat ∧
        (withdrawFee whole tokenFeePercentage).toNat <
          totalFee tokenFeePercentage amounts + amounts.length) ∧
    ∀ a b : U64, a.toNat ≤ b.toNat →
      (withdrawFee a tokenFeePercentage).toNat ≤
          (withdrawFee b tokenFeePercentage).toNat ∧
        ∃ net net', netAmount a tokenFeePercentage = .ok net ∧
          netAmount b tokenFeePercentage = .ok net' ∧
          net.toNat ≤ net'.toNat := by
  constructor
  · intro amounts whole hne hwhole
    exact totalFee_bounds hfee hne hwhole
  · intro a b h
    exact ⟨withdrawFee_mono hfee h, netAmount_mono hfee h⟩

theorem fee_rounding_sample :
    totalFee 1000 [999, 999, 999] ≤ (withdrawFee 2997 1000).toNat ∧
      (withdrawFee 2997 1000).toNat < totalFee 1000 [999, 999, 999] + 3 ∧
      ∃ net net', netAmount 999 1000 = .ok net ∧ netAmount 1000 1000 = .ok net' ∧
        net.toNat ≤ net'.toNat := by
  have hrounding := fee_rounding 1000 (by decide)
  have hsplit := hrounding.1 [999, 999, 999] 2997 (by decide) (by decide)
  exact ⟨hsplit.1, hsplit.2, (hrounding.2 999 1000 (by decide)).2⟩

end SolBtcBridge.Properties
