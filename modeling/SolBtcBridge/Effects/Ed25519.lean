import SolBtcBridge.Program.Ed25519

/-!
# What an accepted Ed25519 instruction has checked

The validator pins the signature count, the key offset and the three
instruction indices.  It leaves the signature offset, the message offset and
the message size open, so these still decide what the precompile verified.
-/

namespace SolBtcBridge.Effects

open SolBtcBridge.Foundation
open SolBtcBridge.Runtime
open SolBtcBridge.Program

theorem headerMatches_eq_true {data : List U8} {fields : List (Nat × List U8)} :
    headerMatches data fields = .ok true ↔ ∀ field ∈ fields,
      field.1 + field.2.length ≤ data.length ∧
        (data.drop field.1).take field.2.length = field.2 := by
  induction fields with
  | nil => simp [headerMatches]
  | cons field fields ih =>
      obtain ⟨start, expected⟩ := field
      simp only [headerMatches, bind_eq_ok, sliceOrPanic_eq_ok,
        List.forall_mem_cons, ← ih]
      constructor
      · rintro ⟨actual, ⟨⟨-, hle⟩, rfl⟩, h⟩
        rw [Nat.add_sub_cancel_left] at h
        split at h
        · rename_i heq
          exact ⟨⟨hle, heq⟩, h⟩
        · cases h
      · rintro ⟨⟨hle, heq⟩, h⟩
        refine ⟨_, ⟨⟨Nat.le_add_right _ _, hle⟩, rfl⟩, ?_⟩
        rw [Nat.add_sub_cancel_left, if_pos heq]
        exact h

/-- The header fields that the validator pins. -/
structure PinnedHeader (data : List U8) : Prop where
  length : 16 ≤ data.length
  count : data.take 1 = [1]
  signatureIndex : (data.drop 4).take 2 = [255, 255]
  keyOffset : (data.drop 6).take 2 = [16, 0]
  keyIndex : (data.drop 8).take 2 = [255, 255]
  messageIndex : (data.drop 14).take 2 = [255, 255]

theorem pinnedHeader_of_valid {ix : SolanaInstruction}
    (h : validateEd25519Ix ix = .ok true) : PinnedHeader ix.data := by
  unfold validateEd25519Ix at h
  split at h
  · cases h
  · have hfields := headerMatches_eq_true.mp h
    simp only [expectedHeader, List.forall_mem_cons, List.not_mem_nil,
      false_implies, implies_true, and_true, List.length_cons, List.length_nil,
      List.drop_zero] at hfields
    obtain ⟨⟨-, hkeyOffset⟩, ⟨-, hcount⟩, -, ⟨-, hsignatureIndex⟩,
      ⟨-, hkeyIndex⟩, hlength, hmessageIndex⟩ := hfields
    exact ⟨hlength, hcount, hsignatureIndex, hkeyOffset, hkeyIndex,
      hmessageIndex⟩

def messageDataOffset (data : List U8) : Nat := ofLeBytes ((data.drop 10).take 2)

def messageDataSize (data : List U8) : Nat := ofLeBytes ((data.drop 12).take 2)

theorem readU16_eq_some {data : List U8} {offset value : Nat} :
    readU16 data offset = some value ↔ offset + 2 ≤ data.length ∧
      value = ofLeBytes ((data.drop offset).take 2) := by
  unfold readU16
  split
  · rename_i hle
    simp [hle, eq_comm]
  · rename_i hgt
    simp [hgt]

theorem dataSlice_self {instructions : List SolanaInstruction}
    {data bytes : List U8} {offset size : Nat} :
    dataSlice instructions data 65535 offset size = some bytes ↔
      offset + size ≤ data.length ∧ bytes = (data.drop offset).take size := by
  simp only [dataSlice, Option.bind_eq_bind, if_true, Option.bind_some]
  split
  · rename_i hle
    simp [hle, eq_comm]
  · rename_i hgt
    simp [hgt]

theorem readHeader_of_pinned {instructions : List SolanaInstruction}
    {data : List U8} {entry : SignedBytes} (hpinned : PinnedHeader data)
    (h : readHeader instructions data 2 = some entry) :
    entry.key = (data.drop 16).take 32 ∧
      messageDataOffset data + messageDataSize data ≤ data.length ∧
      entry.message =
        (data.drop (messageDataOffset data)).take (messageDataSize data) := by
  simp only [readHeader, Option.bind_eq_bind, Option.bind_eq_some_iff,
    readU16_eq_some] at h
  obtain ⟨_, ⟨-, rfl⟩, _, ⟨-, rfl⟩, _, ⟨-, rfl⟩, _, ⟨-, rfl⟩, _, ⟨-, rfl⟩, _,
    ⟨-, rfl⟩, _, ⟨-, rfl⟩, signature, -, key, hkey, message, hmessage, hentry⟩ := h
  rw [hpinned.keyIndex, hpinned.keyOffset] at hkey
  rw [hpinned.messageIndex] at hmessage
  obtain ⟨-, rfl⟩ := dataSlice_self.mp hkey
  obtain ⟨hfits, rfl⟩ := dataSlice_self.mp hmessage
  cases hentry
  exact ⟨rfl, hfits, rfl⟩

theorem signedBytes_of_pinned {instructions : List SolanaInstruction}
    {data : List U8} {checked : List SignedBytes} (hpinned : PinnedHeader data)
    (h : signedBytes instructions data = some checked) :
    ∃ entry, readHeader instructions data 2 = some entry ∧ checked = [entry] := by
  have hcount : data[0]? = some 1 := by
    have hget := congrArg (fun bytes => bytes[0]?) hpinned.count
    simpa [List.getElem?_take] using hget
  have hone : (1 : U8).toNat = 1 := rfl
  simp only [signedBytes, Option.bind_eq_bind, hcount, Option.bind_some, hone,
    List.range_one, List.mapM_cons, List.mapM_nil, Nat.mul_zero,
    Nat.add_zero] at h
  split at h
  · cases h
  · simp only [Option.pure_def, Option.bind_some, Option.bind_eq_some_iff,
      Option.some.injEq] at h
    obtain ⟨entry, hentry, rfl⟩ := h
    exact ⟨entry, hentry, rfl⟩

section

variable {T : Type} [DeserializeMessage T] [DecidableEq T]

theorem resolve_eq_ok {instructions : List SolanaInstruction} {index : Nat}
    {msg : T} {key : Pubkey} :
    resolveEd25519WithIndex instructions index msg = .ok key ↔
      ∃ ix, instructions[index]? = some ix ∧ validateEd25519Ix ix = .ok true ∧
        112 ≤ ix.data.length ∧ keyBytes key = (ix.data.drop 16).take 32 ∧
        DeserializeMessage.codec.Valid msg ∧
        ix.data.drop 112 = encodeMessage msg := by
  simp only [resolveEd25519WithIndex, loadInstructionAtChecked, bind_eq_ok,
    orFail_eq_ok, require_eq_ok, sliceOrPanic_eq_ok, pure_eq_ok,
    deserializeMessage_eq_ok, exists_and_left, exists_const]
  constructor
  · rintro ⟨ix, hix, _, hvalid, rfl, pubKey, ⟨⟨-, hkeyFits⟩, rfl⟩, data,
      ⟨⟨hle, -⟩, rfl⟩, _, ⟨hmsg, hdata⟩, rfl, hkey⟩
    rw [ofNat_ofLeBytes_eq_iff (by simp; omega)] at hkey
    rw [List.take_of_length_le (by simp)] at hdata
    exact ⟨ix, hix, hvalid, hle, hkey, hmsg, hdata⟩
  · rintro ⟨ix, hix, hvalid, hle, hkey, hmsg, hdata⟩
    refine ⟨ix, hix, true, hvalid, rfl, _, ⟨⟨by decide, by omega⟩, rfl⟩, _,
      ⟨⟨hle, le_rfl⟩, rfl⟩, msg, ⟨hmsg, ?_⟩, rfl, ?_⟩
    · rwa [List.take_of_length_le (by simp)]
    · rwa [ofNat_ofLeBytes_eq_iff (by simp; omega)]

end

end SolBtcBridge.Effects
