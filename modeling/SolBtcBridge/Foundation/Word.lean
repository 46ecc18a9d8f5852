import Mathlib.Data.List.Basic
import Mathlib.Algebra.BigOperators.Group.List.Basic
import Mathlib.Algebra.GroupWithZero.Nat

/-!
# Fixed-width words with checked arithmetic

The unsigned integers of the source are bit vectors.  Its release profile
enables overflow checks, so `+`, `-` and `Iterator::sum` either return the
exact integer result or abort.  The operations below return `none` where the
source aborts; each has one specification, stated over the natural numbers.
-/

namespace SolBtcBridge.Foundation

abbrev U8 := BitVec 8

abbrev U16 := BitVec 16

abbrev U32 := BitVec 32

abbrev U64 := BitVec 64

abbrev U128 := BitVec 128

def checkedAdd {w : Nat} (a b : BitVec w) : Option (BitVec w) :=
  if a.toNat + b.toNat < 2 ^ w then some (a + b) else none

def checkedSub {w : Nat} (a b : BitVec w) : Option (BitVec w) :=
  if b.toNat ≤ a.toNat then some (a - b) else none

/-- Left-to-right checked summation, as `Iterator::sum` performs it. -/
def checkedSum {w : Nat} : BitVec w → List (BitVec w) → Option (BitVec w)
  | total, [] => some total
  | total, x :: xs => (checkedAdd total x).bind fun next => checkedSum next xs

theorem checkedAdd_eq_some {w : Nat} {a b c : BitVec w} :
    checkedAdd a b = some c ↔ c.toNat = a.toNat + b.toNat := by
  unfold checkedAdd
  constructor
  · intro h
    split at h
    · rename_i hfits
      cases h
      exact BitVec.toNat_add_of_lt hfits
    · contradiction
  · intro h
    have hfits : a.toNat + b.toNat < 2 ^ w := h ▸ c.isLt
    rw [if_pos hfits]
    congr 1
    apply BitVec.eq_of_toNat_eq
    rw [BitVec.toNat_add_of_lt hfits, h]

theorem checkedSub_eq_some {w : Nat} {a b c : BitVec w} :
    checkedSub a b = some c ↔ a.toNat = c.toNat + b.toNat := by
  unfold checkedSub
  constructor
  · intro h
    split at h
    · rename_i hle
      cases h
      rw [BitVec.toNat_sub_of_le (BitVec.le_def.mpr hle)]
      omega
    · contradiction
  · intro h
    have hle : b.toNat ≤ a.toNat := by omega
    rw [if_pos hle]
    congr 1
    apply BitVec.eq_of_toNat_eq
    rw [BitVec.toNat_sub_of_le (BitVec.le_def.mpr hle)]
    omega

theorem checkedSum_eq_some {w : Nat} {start total : BitVec w}
    {xs : List (BitVec w)} :
    checkedSum start xs = some total ↔
      total.toNat = start.toNat + (xs.map BitVec.toNat).sum := by
  induction xs generalizing start with
  | nil =>
      simp only [checkedSum, Option.some.injEq, List.map_nil, List.sum_nil,
        Nat.add_zero]
      exact ⟨fun h => h ▸ rfl, fun h => (BitVec.eq_of_toNat_eq h).symm⟩
  | cons x xs ih =>
      simp only [checkedSum, Option.bind_eq_some_iff, List.map_cons,
        List.sum_cons]
      constructor
      · rintro ⟨next, hnext, hrest⟩
        have hadd := checkedAdd_eq_some.mp hnext
        have hsum := ih.mp hrest
        omega
      · intro h
        have hfits : start.toNat + x.toNat < 2 ^ w := by
          have := total.isLt
          omega
        refine ⟨start + x, checkedAdd_eq_some.mpr
          (BitVec.toNat_add_of_lt hfits), ih.mpr ?_⟩
        rw [BitVec.toNat_add_of_lt hfits]
        omega

end SolBtcBridge.Foundation
