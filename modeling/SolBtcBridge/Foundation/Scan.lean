import Mathlib.Data.List.Basic

/-!
# Scans that stop when they have found everything

A scan sorts the keys of a list into slots and stops as soon as every slot is
filled.  Stopping early loses nothing: a slot is filled in the end exactly if
it was filled before or the list holds a key for it.
-/

namespace SolBtcBridge.Foundation

section

variable {κ φ ι : Type}

def scanUntil (visit : φ → κ → φ) (complete : φ → Bool) : List κ → φ → φ
  | [], found => found
  | key :: keys, found =>
      if complete (visit found key) then visit found key
      else scanUntil visit complete keys (visit found key)

/-- Visiting a key fills the slot it belongs to, and no other. -/
structure Fills (visit : φ → κ → φ) (complete : φ → Bool)
    (slot : κ → Option ι) (filled : φ → ι → Prop) : Prop where
  visit_iff : ∀ found key i,
    filled (visit found key) i ↔ filled found i ∨ slot key = some i
  complete_iff : ∀ found, complete found = true ↔ ∀ i, filled found i

variable {visit : φ → κ → φ} {complete : φ → Bool} {slot : κ → Option ι}
  {filled : φ → ι → Prop}

theorem Fills.scanUntil_iff (h : Fills visit complete slot filled)
    (keys : List κ) (found : φ) (i : ι) :
    filled (scanUntil visit complete keys found) i ↔
      filled found i ∨ ∃ key ∈ keys, slot key = some i := by
  induction keys generalizing found with
  | nil => simp [scanUntil]
  | cons key keys ih =>
      rw [scanUntil, List.exists_mem_cons_iff, ← or_assoc, ← h.visit_iff]
      split
      · rename_i hcomplete
        have hall := (h.complete_iff _).mp hcomplete i
        exact ⟨fun _ => .inl hall, fun _ => hall⟩
      · exact ih (visit found key)

end

end SolBtcBridge.Foundation
