import SolBtcBridge.Foundation.Borsh

/-!
# Schema-driven serialization

A dynamically typed client has no codec for each record type.  It walks a list
of named field types, looks each field up in an object, and writes the value
according to the type.  A value that does not fit its type is an error.
-/

namespace SolBtcBridge.Foundation

inductive FieldType where
  | u8
  | u64
  /-- Any number of elements behind their 32-bit count. -/
  | array (element : FieldType)
  /-- Exactly `size` elements, without a count. -/
  | fixedArray (element : FieldType) (size : Nat)

inductive FieldValue where
  | number (value : Nat)
  | list (values : List FieldValue)

abbrev Schema := List (String × FieldType)

def serializeField : FieldType → FieldValue → Option (List U8)
  | .u8, .number value =>
      if value < 2 ^ 8 then some (leBytes 1 value) else none
  | .u64, .number value =>
      if value < 2 ^ 64 then some (leBytes 8 value) else none
  | .array element, .list values => do
      let elements ← values.mapM fun value => serializeField element value
      if values.length < 2 ^ 32 then
        some (leBytes 4 values.length ++ elements.flatten)
      else none
  | .fixedArray element size, .list values => do
      let elements ← values.mapM fun value => serializeField element value
      if values.length = size then some elements.flatten else none
  | _, _ => none

def serialize : Schema → (String → Option FieldValue) → Option (List U8)
  | [], _ => some []
  | (name, type) :: fields, object => do
      let value ← object name
      let bytes ← serializeField type value
      let rest ← serialize fields object
      some (bytes ++ rest)

variable {α : Type}

/-- A field of this type writes what the codec encodes. -/
def Writes (type : FieldType) (c : Codec α) (value : α → FieldValue) : Prop :=
  ∀ a, c.Valid a → serializeField type (value a) = some (c.encode a)

theorem writes_u8 : Writes .u8 Codec.u8 fun a => .number a.toNat := by
  intro a _
  exact if_pos a.isLt

theorem writes_u64 : Writes .u64 Codec.u64 fun a => .number a.toNat := by
  intro a _
  exact if_pos a.isLt

theorem Writes.mapM {type : FieldType} {c : Codec α} {value : α → FieldValue}
    (h : Writes type c value) (as : List α) (hvalid : ∀ a ∈ as, c.Valid a) :
    (as.map value).mapM (fun value => serializeField type value) =
      some (as.map c.encode) := by
  induction as with
  | nil => rfl
  | cons a as ih =>
      have hhead := h a (hvalid a List.mem_cons_self)
      have htail := ih fun x hx => hvalid x (List.mem_cons_of_mem a hx)
      rw [List.map_cons, List.mapM_cons, hhead, htail]
      rfl

theorem flatten_map_encode (c : Codec α) (as : List α) :
    (as.map c.encode).flatten = c.encodeList as := by
  induction as with
  | nil => rfl
  | cons a as ih => rw [List.map_cons, List.flatten_cons, ih, Codec.encodeList]

theorem Writes.array {type : FieldType} {c : Codec α} {value : α → FieldValue}
    (h : Writes type c value) :
    Writes (.array type) c.vec fun as => .list (as.map value) := by
  rintro as ⟨hlength, hvalid⟩
  simp only [serializeField, h.mapM as hvalid, Option.bind_eq_bind,
    Option.bind_some, List.length_map, if_pos hlength, flatten_map_encode]
  have hcount : (BitVec.ofNat 32 as.length).toNat = as.length := by
    rw [BitVec.toNat_ofNat, Nat.mod_eq_of_lt hlength]
  simp only [Codec.vec, Codec.u32, Codec.word, hcount]

theorem encodeList_u8 (bytes : List U8) : Codec.u8.encodeList bytes = bytes := by
  induction bytes with
  | nil => rfl
  | cons byte bytes ih =>
      have hbyte : Codec.u8.encode byte = [byte] := by
        simp [Codec.u8, Codec.word, leBytes]
      rw [Codec.encodeList, hbyte, ih, List.singleton_append]

theorem writes_word (n : Nat) : Writes (.fixedArray .u8 n) (Codec.word n)
    fun a => .list ((leBytes n a.toNat).map fun byte => .number byte.toNat) := by
  intro a _
  have helements := writes_u8.mapM (leBytes n a.toNat)
    fun byte _ => (Codec.word_fixedSize 1 byte).1
  simp only [serializeField, helements, Option.bind_eq_bind, Option.bind_some,
    List.length_map, length_leBytes, if_true, flatten_map_encode, encodeList_u8,
    Codec.word]

theorem Writes.field {type : FieldType} {c : Codec α} {value : α → FieldValue}
    (h : Writes type c value) {name : String} {fields : Schema}
    {object : String → Option FieldValue} {a : α} {rest : List U8}
    (hvalid : c.Valid a) (hname : object name = some (value a))
    (hrest : serialize fields object = some rest) :
    serialize ((name, type) :: fields) object = some (c.encode a ++ rest) := by
  simp only [serialize, hname, h a hvalid, hrest, Option.bind_eq_bind,
    Option.bind_some]

end SolBtcBridge.Foundation
