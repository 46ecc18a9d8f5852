import SolBtcBridge.Foundation.Word
import Mathlib.Algebra.Order.Group.Nat
import Mathlib.Tactic.Ring

/-!
# Canonical binary codecs

A codec reads a value off the front of a byte string and returns the rest.
Its two laws are fields: encoding then decoding gives the value back, and
whatever the decoder accepts is the encoding of the value it returned.  The
second law makes every codec canonical.

The combinators are those of the borsh format: little-endian words, booleans
as one byte, products in field order, fixed arrays as their elements, and
vectors behind a 32-bit length.
-/

namespace SolBtcBridge.Foundation

def leBytes : Nat → Nat → List U8
  | 0, _ => []
  | n + 1, value => BitVec.ofNat 8 value :: leBytes n (value / 256)

def ofLeBytes : List U8 → Nat
  | [] => 0
  | byte :: bytes => byte.toNat + 256 * ofLeBytes bytes

@[simp] theorem length_leBytes (n value : Nat) :
    (leBytes n value).length = n := by
  induction n generalizing value with
  | zero => rfl
  | succ n ih => simp [leBytes, ih]

theorem ofLeBytes_leBytes (n value : Nat) :
    ofLeBytes (leBytes n value) = value % 2 ^ (8 * n) := by
  induction n generalizing value with
  | zero => simp [leBytes, ofLeBytes, Nat.mod_one]
  | succ n ih =>
      have hpow : 2 ^ (8 * (n + 1)) = 256 * 2 ^ (8 * n) := by
        rw [Nat.mul_succ, pow_add]
        ring
      simp only [leBytes, ofLeBytes, BitVec.toNat_ofNat, ih]
      rw [hpow, Nat.mod_mul]

theorem ofLeBytes_lt (bytes : List U8) :
    ofLeBytes bytes < 2 ^ (8 * bytes.length) := by
  induction bytes with
  | nil => simp [ofLeBytes]
  | cons byte bytes ih =>
      have hbyte := byte.isLt
      have hpow : 2 ^ (8 * (bytes.length + 1)) = 256 * 2 ^ (8 * bytes.length) := by
        rw [Nat.mul_succ, pow_add]
        ring
      simp only [ofLeBytes, List.length_cons, hpow]
      omega

theorem leBytes_ofLeBytes (bytes : List U8) :
    leBytes bytes.length (ofLeBytes bytes) = bytes := by
  induction bytes with
  | nil => rfl
  | cons byte bytes ih =>
      have hbyte := byte.isLt
      have hhead : BitVec.ofNat 8 (ofLeBytes (byte :: bytes)) = byte := by
        apply BitVec.eq_of_toNat_eq
        simp only [ofLeBytes, BitVec.toNat_ofNat]
        omega
      have htail : ofLeBytes (byte :: bytes) / 256 = ofLeBytes bytes := by
        simp only [ofLeBytes]
        omega
      rw [List.length_cons, leBytes, hhead, htail, ih]

/-! ## Codecs -/

structure Codec (α : Type) where
  /-- The values the format can represent. -/
  Valid : α → Prop
  encode : α → List U8
  decode : List U8 → Option (α × List U8)
  decode_encode : ∀ a rest, Valid a → decode (encode a ++ rest) = some (a, rest)
  encode_decode : ∀ bytes a rest, decode bytes = some (a, rest) →
    Valid a ∧ bytes = encode a ++ rest

namespace Codec

variable {α β : Type}

def tryFromSlice (c : Codec α) (bytes : List U8) : Option α :=
  match c.decode bytes with
  | some (a, []) => some a
  | _ => none

theorem tryFromSlice_eq_some (c : Codec α) {bytes : List U8} {a : α} :
    c.tryFromSlice bytes = some a ↔ c.Valid a ∧ bytes = c.encode a := by
  unfold tryFromSlice
  constructor
  · intro h
    split at h
    · rename_i hdecode
      cases h
      simpa using c.encode_decode _ _ _ hdecode
    · contradiction
  · rintro ⟨hvalid, rfl⟩
    have hdecode := c.decode_encode a [] hvalid
    rw [List.append_nil] at hdecode
    rw [hdecode]

theorem encode_injective (c : Codec α) {a b : α} (ha : c.Valid a)
    (hb : c.Valid b) (h : c.encode a = c.encode b) : a = b := by
  have hdecode := c.decode_encode a [] ha
  rw [h, c.decode_encode b [] hb] at hdecode
  exact (Prod.mk.inj (Option.some.inj hdecode)).1.symm

/-- Every value is representable, in exactly `size` bytes. -/
def FixedSize (c : Codec α) (size : Nat) : Prop :=
  ∀ a, c.Valid a ∧ (c.encode a).length = size

def word (n : Nat) : Codec (BitVec (8 * n)) where
  Valid _ := True
  encode a := leBytes n a.toNat
  decode bytes :=
    if n ≤ bytes.length then
      some (BitVec.ofNat _ (ofLeBytes (bytes.take n)), bytes.drop n)
    else none
  decode_encode a rest _ := by
    have htake : (leBytes n a.toNat ++ rest).take n = leBytes n a.toNat := by
      simp
    have hdrop : (leBytes n a.toNat ++ rest).drop n = rest := by simp
    rw [if_pos (by simp), htake, hdrop, ofLeBytes_leBytes,
      Nat.mod_eq_of_lt a.isLt, BitVec.ofNat_toNat, BitVec.setWidth_eq]
  encode_decode bytes a rest h := by
    split at h
    · rename_i hlen
      cases h
      have htake : (bytes.take n).length = n := by simp [hlen]
      have hlt := ofLeBytes_lt (bytes.take n)
      rw [htake] at hlt
      have hbytes := leBytes_ofLeBytes (bytes.take n)
      rw [htake] at hbytes
      rw [BitVec.toNat_ofNat, Nat.mod_eq_of_lt hlt, hbytes]
      exact ⟨trivial, (List.take_append_drop n bytes).symm⟩
    · contradiction

theorem word_fixedSize (n : Nat) : (word n).FixedSize n :=
  fun _ => ⟨trivial, length_leBytes _ _⟩

def u8 : Codec U8 := word 1

def u16 : Codec U16 := word 2

def u32 : Codec U32 := word 4

def u64 : Codec U64 := word 8

def u128 : Codec U128 := word 16

def bool : Codec Bool where
  Valid _ := True
  encode a := [if a then 1 else 0]
  decode
    | [] => none
    | byte :: rest =>
        if byte = 0 then some (false, rest)
        else if byte = 1 then some (true, rest)
        else none
  decode_encode a rest _ := by cases a <;> rfl
  encode_decode bytes a rest h := by
    cases bytes with
    | nil => contradiction
    | cons byte bytes =>
        simp only at h
        split at h
        · cases h
          simp_all
        · split at h
          · cases h
            simp_all
          · contradiction

theorem bool_fixedSize : bool.FixedSize 1 :=
  fun _ => ⟨trivial, rfl⟩

def unit : Codec Unit where
  Valid _ := True
  encode _ := []
  decode bytes := some ((), bytes)
  decode_encode _ _ _ := rfl
  encode_decode _ _ _ h := by
    cases h
    exact ⟨trivial, rfl⟩

theorem unit_fixedSize : unit.FixedSize 0 :=
  fun _ => ⟨trivial, rfl⟩

def prod (c : Codec α) (d : Codec β) : Codec (α × β) where
  Valid p := c.Valid p.1 ∧ d.Valid p.2
  encode p := c.encode p.1 ++ d.encode p.2
  decode bytes := do
    let (a, bytes) ← c.decode bytes
    let (b, bytes) ← d.decode bytes
    some ((a, b), bytes)
  decode_encode p rest h := by
    simp [List.append_assoc, c.decode_encode _ _ h.1, d.decode_encode _ _ h.2]
  encode_decode bytes p rest h := by
    simp only [Option.bind_eq_bind, Option.bind_eq_some_iff,
      Option.some.injEq, Prod.mk.injEq, Prod.exists] at h
    obtain ⟨a, middle, hfirst, b, tail, hsecond, rfl, rfl⟩ := h
    obtain ⟨ha, rfl⟩ := c.encode_decode _ _ _ hfirst
    obtain ⟨hb, rfl⟩ := d.encode_decode _ _ _ hsecond
    exact ⟨⟨ha, hb⟩, by simp [List.append_assoc]⟩

theorem FixedSize.prod {c : Codec α} {d : Codec β} {m n : Nat}
    (hc : c.FixedSize m) (hd : d.FixedSize n) :
    (c.prod d).FixedSize (m + n) := by
  intro p
  obtain ⟨hvalid₁, hlen₁⟩ := hc p.1
  obtain ⟨hvalid₂, hlen₂⟩ := hd p.2
  exact ⟨⟨hvalid₁, hvalid₂⟩, by simp [Codec.prod, hlen₁, hlen₂]⟩

def imap (c : Codec α) (make : α → β) (fields : β → α)
    (make_fields : ∀ b, make (fields b) = b)
    (fields_make : ∀ a, fields (make a) = a) : Codec β where
  Valid b := c.Valid (fields b)
  encode b := c.encode (fields b)
  decode bytes := (c.decode bytes).map fun p => (make p.1, p.2)
  decode_encode b rest h := by
    simp [c.decode_encode _ _ h, make_fields]
  encode_decode bytes b rest h := by
    simp only [Option.map_eq_some_iff, Prod.mk.injEq, Prod.exists] at h
    obtain ⟨a, tail, hdecode, rfl, rfl⟩ := h
    simpa [fields_make] using c.encode_decode _ _ _ hdecode

theorem FixedSize.imap {c : Codec α} {n : Nat} (hc : c.FixedSize n)
    {make : α → β} {fields : β → α}
    {make_fields : ∀ b, make (fields b) = b}
    {fields_make : ∀ a, fields (make a) = a} :
    (c.imap make fields make_fields fields_make).FixedSize n :=
  fun b => hc (fields b)

def encodeList (c : Codec α) : List α → List U8
  | [] => []
  | a :: as => c.encode a ++ encodeList c as

def decodeList (c : Codec α) : Nat → List U8 → Option (List α × List U8)
  | 0, bytes => some ([], bytes)
  | n + 1, bytes => do
      let (a, bytes) ← c.decode bytes
      let (as, bytes) ← decodeList c n bytes
      some (a :: as, bytes)

theorem decodeList_encodeList (c : Codec α) (as : List α) (rest : List U8)
    (h : ∀ a ∈ as, c.Valid a) :
    decodeList c as.length (encodeList c as ++ rest) = some (as, rest) := by
  induction as with
  | nil => rfl
  | cons a as ih =>
      have hhead := h a List.mem_cons_self
      have htail := ih fun x hx => h x (List.mem_cons_of_mem a hx)
      simp [encodeList, decodeList, List.append_assoc,
        c.decode_encode _ _ hhead, htail]

theorem encodeList_decodeList (c : Codec α) {n : Nat} {bytes : List U8}
    {as : List α} {rest : List U8}
    (h : decodeList c n bytes = some (as, rest)) :
    as.length = n ∧ (∀ a ∈ as, c.Valid a) ∧ bytes = encodeList c as ++ rest := by
  induction n generalizing bytes as with
  | zero =>
      cases h
      simp [encodeList]
  | succ n ih =>
      simp only [decodeList, Option.bind_eq_bind, Option.bind_eq_some_iff,
        Option.some.injEq, Prod.mk.injEq, Prod.exists] at h
      obtain ⟨a, middle, hfirst, as', tail, hrest, rfl, rfl⟩ := h
      obtain ⟨ha, rfl⟩ := c.encode_decode _ _ _ hfirst
      obtain ⟨hlen, hvalid, rfl⟩ := ih hrest
      refine ⟨by simp [hlen], ?_, by simp [encodeList, List.append_assoc]⟩
      intro x hx
      rcases List.mem_cons.mp hx with rfl | hx
      · exact ha
      · exact hvalid x hx

theorem length_encodeList {c : Codec α} {size : Nat} (hc : c.FixedSize size)
    (as : List α) : (encodeList c as).length = as.length * size := by
  induction as with
  | nil => simp [encodeList]
  | cons a as ih =>
      simp only [encodeList, List.length_append, (hc a).2, ih,
        List.length_cons]
      ring

def array (c : Codec α) (n : Nat) : Codec (Vector α n) where
  Valid v := ∀ a ∈ v.toList, c.Valid a
  encode v := encodeList c v.toList
  decode bytes :=
    match decodeList c n bytes with
    | none => none
    | some (as, rest) =>
        if h : as.length = n then some (⟨as.toArray, by simpa using h⟩, rest)
        else none
  decode_encode v rest h := by
    have hdecode := decodeList_encodeList c v.toList rest h
    rw [Vector.length_toList] at hdecode
    rw [hdecode]
    simp [Vector.toList]
  encode_decode bytes v rest h := by
    split at h
    · contradiction
    · rename_i as tail hdecode
      split at h
      · cases h
        simpa using (encodeList_decodeList c hdecode).2
      · contradiction

theorem FixedSize.array {c : Codec α} {size : Nat} (hc : c.FixedSize size)
    (n : Nat) : (c.array n).FixedSize (n * size) := by
  intro v
  refine ⟨fun a _ => (hc a).1, ?_⟩
  simp only [Codec.array]
  rw [length_encodeList hc, Vector.length_toList]

def vec (c : Codec α) : Codec (List α) where
  Valid as := as.length < 2 ^ 32 ∧ ∀ a ∈ as, c.Valid a
  encode as := u32.encode (BitVec.ofNat 32 as.length) ++ encodeList c as
  decode bytes := do
    let (count, bytes) ← u32.decode bytes
    decodeList c count.toNat bytes
  decode_encode as rest h := by
    have hcount : (BitVec.ofNat 32 as.length).toNat = as.length := by
      rw [BitVec.toNat_ofNat, Nat.mod_eq_of_lt h.1]
    rw [List.append_assoc]
    simp only [u32.decode_encode _ _ ((word_fixedSize 4 _).1),
      Option.bind_eq_bind, Option.bind_some, hcount]
    exact decodeList_encodeList c as rest h.2
  encode_decode bytes as rest h := by
    simp only [Option.bind_eq_bind, Option.bind_eq_some_iff,
      Prod.exists] at h
    obtain ⟨count, middle, hcount, hrest⟩ := h
    obtain ⟨-, rfl⟩ := u32.encode_decode _ _ _ hcount
    obtain ⟨hlen, hvalid, rfl⟩ := encodeList_decodeList c hrest
    have hlt : as.length < 2 ^ 32 := hlen ▸ count.isLt
    refine ⟨⟨hlt, hvalid⟩, ?_⟩
    rw [hlen, BitVec.ofNat_toNat, BitVec.setWidth_eq, List.append_assoc]

end Codec

end SolBtcBridge.Foundation
