import SolBtcBridge.Runtime.Ledger

/-!
# Anchor's typed accounts

A typed account is an eight-byte discriminator followed by the borsh encoding
of its record.  Loading checks the owner and the discriminator; a record is
written back at instruction exit, over the front of the account's data.  An
account that carries no `mut`, `init` or `init_if_needed` constraint is loaded
and never written back.
-/

namespace SolBtcBridge.Runtime

open SolBtcBridge.Foundation

def anchorHeaderLen : Nat := 8

def overwrite (data bytes : List U8) : Option (List U8) :=
  if bytes.length ≤ data.length then some (bytes ++ data.drop bytes.length)
  else none

theorem overwrite_eq_some {data bytes written : List U8} :
    overwrite data bytes = some written ↔ bytes.length ≤ data.length ∧
      written = bytes ++ data.drop bytes.length := by
  unfold overwrite
  split
  · rename_i hle
    simp [hle, eq_comm]
  · rename_i hlt
    simp [hlt]

class AnchorAccount (T : Type) where
  discriminator : List U8
  codec : Codec T
  /-- The `LEN` constant of the record. -/
  len : Nat
  /-- The record a zero-filled account holds. -/
  zeroed : T
  length_discriminator : discriminator.length = anchorHeaderLen
  header_le_len : anchorHeaderLen ≤ len
  codec_fixedSize : codec.FixedSize (len - anchorHeaderLen)
  encode_zeroed : codec.encode zeroed = List.replicate (len - anchorHeaderLen) 0

section

variable {T : Type} [AnchorAccount T]

/-- `try_serialize`: the discriminator, then the fields. -/
def image (t : T) : List U8 :=
  AnchorAccount.discriminator T ++ AnchorAccount.codec.encode t

variable (T) in
def tryDeserializeUnchecked (data : List U8) : Result T := do
  let fields ← sliceOrPanic data anchorHeaderLen data.length
  let (t, _) ← orFail (.anchor .accountDidNotDeserialize)
    ((AnchorAccount.codec (T := T)).decode fields)
  return t

variable (T) in
def tryDeserialize (data : List U8) : Result T := do
  require (anchorHeaderLen ≤ data.length) (.anchor .accountDiscriminatorNotFound)
  require (data.take anchorHeaderLen = AnchorAccount.discriminator T)
    (.anchor .accountDiscriminatorMismatch)
  tryDeserializeUnchecked T data

variable (T) in
/-- `Account::try_from`: the owner check and the discriminator check. -/
def Account.load (account : Account) : Result T :=
  match account.body with
  | .bridge data => tryDeserialize T data
  | .system =>
      if account.lamports = 0 then .error (.anchor .accountNotInitialized)
      else .error (.anchor .accountOwnedByWrongProgram)
  | _ => .error (.anchor .accountOwnedByWrongProgram)

namespace Ledger

variable (T) in
def load (L : Ledger) (a : Address) : Result T := (L a).load T

variable (T) in
def fetch (L : Ledger) (a : Address) : Option T := (L.load T a).toOption

variable (T) in
def init (L : Ledger) (a : Address) (space : Nat) : Result (Ledger × T) := do
  let account ← (L a).allocate space
  let t ← tryDeserializeUnchecked T (List.replicate space 0)
  return (L.set a account, t)

variable (T) in
def initIfNeeded (L : Ledger) (a : Address) (space : Nat) :
    Result (Ledger × T) :=
  match (L a).body with
  | .system => L.init T a space
  | .bridge data => do
      let t ← tryDeserialize T data
      require (data.length = space) (.anchor .constraintSpace)
      return (L, t)
  | _ => .error (.anchor .accountOwnedByWrongProgram)

def exit (L : Ledger) (a : Address) (t : T) : Result Ledger :=
  match (L a).body with
  | .bridge data => do
      let data ← orFail (.anchor .accountDidNotSerialize)
        (overwrite data (image t))
      return L.setBody a (.bridge data)
  | _ => .error (.anchor .accountDidNotSerialize)

/--
Write a record by hand: copy the discriminator into the first eight bytes and
serialize the fields into the slice that starts after them.
-/
def serializeRaw (L : Ledger) (a : Address) (t : T) (code : ErrorCode) :
    Result Ledger :=
  match (L a).body with
  | .bridge data => do
      let data ← orFail .panicked
        (overwrite data (AnchorAccount.discriminator T))
      let fields ← orFail (.program code)
        (overwrite (data.drop anchorHeaderLen) (AnchorAccount.codec.encode t))
      return L.setBody a (.bridge (data.take anchorHeaderLen ++ fields))
  | _ => .error .panicked

end Ledger

/-! ## Reading back what was written -/

theorem length_image (t : T) : (image t).length = AnchorAccount.len T := by
  have hsize := (AnchorAccount.codec_fixedSize t).2
  have hheader := AnchorAccount.length_discriminator (T := T)
  have hle := AnchorAccount.header_le_len (T := T)
  simp only [image, List.length_append, hsize, hheader]
  omega

theorem drop_header_image (t : T) (rest : List U8) :
    (image t ++ rest).drop anchorHeaderLen =
      AnchorAccount.codec.encode t ++ rest := by
  rw [image, List.append_assoc,
    ← AnchorAccount.length_discriminator (T := T), List.drop_left]

theorem tryDeserializeUnchecked_eq_ok {data : List U8} {t : T} :
    tryDeserializeUnchecked T data = .ok t ↔ anchorHeaderLen ≤ data.length ∧
      ∃ rest, data.drop anchorHeaderLen = AnchorAccount.codec.encode t ++ rest := by
  simp only [tryDeserializeUnchecked, bind_eq_ok, orFail_eq_ok, sliceOrPanic,
    pure_eq_ok, Prod.exists]
  constructor
  · rintro ⟨fields, hslice, t', rest, hdecode, rfl⟩
    split at hslice
    · rename_i hle
      cases hslice
      rw [List.take_length] at hdecode
      exact ⟨hle.1, rest, (AnchorAccount.codec.encode_decode _ _ _ hdecode).2⟩
    · contradiction
  · rintro ⟨hle, rest, hdrop⟩
    refine ⟨_, if_pos ⟨hle, le_rfl⟩, t, rest, ?_, rfl⟩
    rw [List.take_length, hdrop]
    exact AnchorAccount.codec.decode_encode _ _
      (AnchorAccount.codec_fixedSize t).1

theorem tryDeserialize_eq_ok {data : List U8} {t : T} :
    tryDeserialize T data = .ok t ↔ ∃ rest, data = image t ++ rest := by
  simp only [tryDeserialize, bind_eq_ok, require_eq_ok, exists_and_left,
    exists_const, tryDeserializeUnchecked_eq_ok]
  constructor
  · rintro ⟨-, hheader, -, rest, hdrop⟩
    refine ⟨rest, ?_⟩
    rw [image, List.append_assoc, ← hdrop, ← hheader, List.take_append_drop]
  · rintro ⟨rest, rfl⟩
    have hlen : anchorHeaderLen ≤ (image t ++ rest).length := by
      rw [List.length_append, length_image]
      exact le_trans AnchorAccount.header_le_len (Nat.le_add_right _ _)
    refine ⟨hlen, ?_, hlen, rest, drop_header_image t rest⟩
    rw [image, List.append_assoc,
      ← AnchorAccount.length_discriminator (T := T), List.take_left]

theorem tryDeserializeUnchecked_zeros {space : Nat}
    (h : AnchorAccount.len T ≤ space) :
    tryDeserializeUnchecked T (List.replicate space 0) =
      .ok AnchorAccount.zeroed := by
  rw [tryDeserializeUnchecked_eq_ok]
  have hle := AnchorAccount.header_le_len (T := T)
  refine ⟨by simpa using hle.trans h,
    List.replicate (space - AnchorAccount.len T) 0, ?_⟩
  rw [AnchorAccount.encode_zeroed, List.drop_replicate,
    ← List.replicate_add]
  congr 1
  omega

namespace Ledger

theorem load_eq_ok {L : Ledger} {a : Address} {t : T} :
    L.load T a = .ok t ↔ ∃ rest, (L a).body = .bridge (image t ++ rest) := by
  unfold load Account.load
  cases hbody : (L a).body with
  | bridge data => simp [tryDeserialize_eq_ok]
  | system =>
      by_cases hzero : (L a).lamports = 0 <;> simp [hzero]
  | mint m => simp
  | token account => simp

theorem fetch_eq_some {L : Ledger} {a : Address} {t : T} :
    L.fetch T a = some t ↔ L.load T a = .ok t := by
  unfold fetch
  cases L.load T a <;> simp [Except.toOption]

theorem fetch_eq_none_of_system {L : Ledger} {a : Address}
    (h : (L a).body = .system) : L.fetch T a = none := by
  by_contra hne
  obtain ⟨t, ht⟩ := Option.ne_none_iff_exists'.mp hne
  obtain ⟨rest, hbody⟩ := load_eq_ok.mp (fetch_eq_some.mp ht)
  rw [h] at hbody
  contradiction

theorem fetch_congr {L L' : Ledger} {a : Address}
    (h : (L' a).body = (L a).body) : L'.fetch T a = L.fetch T a := by
  apply Option.ext
  intro t
  simp only [fetch_eq_some, load_eq_ok, h]

theorem init_eq_ok {L L' : Ledger} {a : Address} {space : Nat} {t : T}
    (hspace : AnchorAccount.len T ≤ space) :
    L.init T a space = .ok (L', t) ↔ (L a).body = .system ∧
      t = AnchorAccount.zeroed ∧
      L' = L.set a ⟨max (L a).lamports (minimumBalance space),
        .bridge (List.replicate space 0)⟩ := by
  simp only [init, bind_eq_ok, Account.allocate_eq_ok, pure_eq_ok,
    tryDeserializeUnchecked_zeros hspace, Except.ok.injEq, Prod.mk.injEq]
  constructor
  · rintro ⟨account, ⟨hbody, rfl⟩, t', rfl, rfl, rfl⟩
    exact ⟨hbody, rfl, rfl⟩
  · rintro ⟨hbody, rfl, rfl⟩
    exact ⟨_, ⟨hbody, rfl⟩, _, rfl, rfl, rfl⟩

theorem initIfNeeded_cases {L L' : Ledger} {a : Address} {t : T}
    (h : L.initIfNeeded T a (AnchorAccount.len T) = .ok (L', t)) :
    (L.fetch T a = some t ∧ L' = L) ∨
      ((L a).body = .system ∧ t = AnchorAccount.zeroed ∧
        L' = L.set a ⟨max (L a).lamports (minimumBalance (AnchorAccount.len T)),
          .bridge (List.replicate (AnchorAccount.len T) 0)⟩) := by
  unfold initIfNeeded at h
  cases hbody : (L a).body with
  | system =>
      simp only [hbody] at h
      exact .inr ⟨rfl, ((init_eq_ok le_rfl).mp h).2⟩
  | bridge data =>
      simp only [hbody, bind_eq_ok, tryDeserialize_eq_ok, require_eq_ok,
        pure_eq_ok, Prod.mk.injEq] at h
      obtain ⟨t', ⟨rest, hdata⟩, -, -, rfl, rfl⟩ := h
      exact .inl ⟨fetch_eq_some.mpr (load_eq_ok.mpr ⟨rest, hdata ▸ hbody⟩), rfl⟩
  | mint m => simp [hbody] at h
  | token account => simp [hbody] at h

theorem exit_eq_ok {L L' : Ledger} {a : Address} {t : T} :
    L.exit a t = .ok L' ↔ ∃ data, (L a).body = .bridge data ∧
      AnchorAccount.len T ≤ data.length ∧
      L' = L.setBody a
        (.bridge (image t ++ data.drop (AnchorAccount.len T))) := by
  unfold exit
  cases hbody : (L a).body with
  | bridge data =>
      simp only [bind_eq_ok, orFail_eq_ok, overwrite_eq_some, pure_eq_ok,
        length_image, AccountBody.bridge.injEq, exists_eq_left']
      constructor
      · rintro ⟨_, ⟨hle, rfl⟩, rfl⟩
        exact ⟨hle, rfl⟩
      · rintro ⟨hle, rfl⟩
        exact ⟨_, ⟨hle, rfl⟩, rfl⟩
  | system => simp
  | mint m => simp
  | token account => simp

/-- The hand-written path leaves the same bytes as Anchor's exit. -/
theorem serializeRaw_eq_ok {L L' : Ledger} {a : Address} {t : T}
    {code : ErrorCode} :
    L.serializeRaw a t code = .ok L' ↔ L.exit a t = .ok L' := by
  have hheader := AnchorAccount.length_discriminator (T := T)
  have hlen := length_image t
  have hsplit : (image t).length = anchorHeaderLen +
      (AnchorAccount.codec.encode t).length := by
    rw [image, List.length_append, hheader]
  rw [exit_eq_ok]
  unfold serializeRaw
  cases hbody : (L a).body with
  | bridge data =>
      simp only [bind_eq_ok, orFail_eq_ok, overwrite_eq_some, pure_eq_ok,
        AccountBody.bridge.injEq, exists_eq_left', hheader]
      have hdrop : (AnchorAccount.discriminator T ++
          data.drop anchorHeaderLen).drop anchorHeaderLen =
          data.drop anchorHeaderLen := by
        rw [← hheader, List.drop_left]
      have htake : (AnchorAccount.discriminator T ++
          data.drop anchorHeaderLen).take anchorHeaderLen =
          AnchorAccount.discriminator T := by
        rw [← hheader, List.take_left]
      constructor
      · rintro ⟨_, ⟨hle, rfl⟩, _, ⟨hfits, rfl⟩, rfl⟩
        rw [hdrop, List.length_drop] at hfits
        refine ⟨by omega, ?_⟩
        rw [htake, hdrop, List.drop_drop, ← hsplit, hlen, ← List.append_assoc,
          image]
      · rintro ⟨hle, rfl⟩
        refine ⟨_, ⟨by omega, rfl⟩, _, ⟨?_, rfl⟩, ?_⟩
        · rw [hdrop, List.length_drop]
          omega
        · rw [htake, hdrop, List.drop_drop, ← hsplit, hlen,
            ← List.append_assoc, image]
  | system => simp
  | mint m => simp
  | token account => simp

theorem exit_of_ne {L L' : Ledger} {a b : Address} {t : T}
    (h : L.exit a t = .ok L') (hne : b ≠ a) : L' b = L b := by
  obtain ⟨data, -, -, rfl⟩ := exit_eq_ok.mp h
  exact setBody_of_ne L _ hne

theorem fetch_exit {L L' : Ledger} {a : Address} {t : T}
    (h : L.exit a t = .ok L') : L'.fetch T a = some t := by
  obtain ⟨data, -, -, rfl⟩ := exit_eq_ok.mp h
  exact fetch_eq_some.mpr (load_eq_ok.mpr ⟨_, setBody_self _ _ _⟩)

theorem exit_fetched {L L' : Ledger} {a : Address} {t : T}
    (hfetch : L.fetch T a = some t) (h : L.exit a t = .ok L') : L' = L := by
  obtain ⟨rest, hbody⟩ := load_eq_ok.mp (fetch_eq_some.mp hfetch)
  obtain ⟨data, hdata, -, rfl⟩ := exit_eq_ok.mp h
  rw [hbody] at hdata
  cases hdata
  rw [← length_image t, List.drop_left, ← hbody]
  funext b
  by_cases hb : b = a
  · rw [hb, setBody, set_self]
  · exact setBody_of_ne L _ hb

theorem init_of_ne {L L' : Ledger} {a b : Address} {space : Nat} {t : T}
    (h : L.init T a space = .ok (L', t)) (hne : b ≠ a) : L' b = L b := by
  simp only [init, bind_eq_ok, pure_eq_ok, Prod.mk.injEq] at h
  obtain ⟨account, -, _, -, rfl, -⟩ := h
  exact set_of_ne L _ hne

theorem initIfNeeded_of_ne {L L' : Ledger} {a b : Address} {t : T}
    (h : L.initIfNeeded T a (AnchorAccount.len T) = .ok (L', t))
    (hne : b ≠ a) : L' b = L b := by
  rcases initIfNeeded_cases h with ⟨-, rfl⟩ | ⟨-, -, rfl⟩
  · rfl
  · exact set_of_ne L _ hne

end Ledger

end

end SolBtcBridge.Runtime
