import SolBtcBridge.Runtime.Anchor

/-!
# Addresses that keep one record

The program creates every typed account with exactly the length of its record.
An address that is either still vacant or holds exactly the image of a record
is said to keep that record type; loading, initialising and writing back are
then functions of the record alone.
-/

namespace SolBtcBridge.Runtime

open SolBtcBridge.Foundation

namespace Ledger

def Vacant (L : Ledger) (a : Address) : Prop := (L a).body = .system

instance (L : Ledger) (a : Address) : Decidable (L.Vacant a) :=
  inferInstanceAs (Decidable ((L a).body = .system))

section

variable {T : Type} [AnchorAccount T]

/-- The account consists of the image of the record, and nothing more. -/
def Stores (L : Ledger) (a : Address) (t : T) : Prop :=
  (L a).body = .bridge (image t)

def Keeps (L : Ledger) (a : Address) (P : T → Prop) : Prop :=
  L.Vacant a ∨ ∃ t, L.Stores a t ∧ P t

variable (T) in
/-- The account has the right size for a record, whatever it contains. -/
def Sized (L : Ledger) (a : Address) : Prop :=
  ∃ data, (L a).body = .bridge data ∧ data.length = AnchorAccount.len T

theorem image_injective : Function.Injective (image (T := T)) := by
  intro s t h
  have hfields := List.append_cancel_left h
  exact Codec.encode_injective _ (AnchorAccount.codec_fixedSize s).1
    (AnchorAccount.codec_fixedSize t).1 hfields

theorem Stores.unique {L : Ledger} {a : Address} {s t : T}
    (hs : L.Stores a s) (ht : L.Stores a t) : s = t := by
  apply image_injective
  rw [Stores, hs] at ht
  exact AccountBody.bridge.inj ht

theorem Stores.sized {L : Ledger} {a : Address} {t : T} (h : L.Stores a t) :
    L.Sized T a :=
  ⟨image t, h, length_image t⟩

theorem Stores.not_vacant {L : Ledger} {a : Address} {t : T}
    (h : L.Stores a t) : ¬ L.Vacant a := by
  intro hvacant
  rw [Stores, hvacant] at h
  contradiction

theorem Stores.load {L : Ledger} {a : Address} {t : T} (h : L.Stores a t) :
    L.load T a = .ok t :=
  load_eq_ok.mpr ⟨[], by rw [List.append_nil]; exact h⟩

theorem Stores.fetch {L : Ledger} {a : Address} {t : T} (h : L.Stores a t) :
    L.fetch T a = some t :=
  fetch_eq_some.mpr h.load

theorem Vacant.fetch {L : Ledger} {a : Address} (h : L.Vacant a) :
    L.fetch T a = none :=
  fetch_eq_none_of_system h

theorem Keeps.fetch_eq_some {L : Ledger} {a : Address} {P : T → Prop}
    (h : L.Keeps a P) {t : T} : L.fetch T a = some t ↔ L.Stores a t := by
  constructor
  · intro hfetch
    rcases h with hvacant | ⟨s, hs, -⟩
    · rw [hvacant.fetch] at hfetch
      contradiction
    · rw [hs.fetch] at hfetch
      cases hfetch
      exact hs
  · exact Stores.fetch

theorem Keeps.load {L : Ledger} {a : Address} {P : T → Prop}
    (h : L.Keeps a P) {t : T} (hload : L.load T a = .ok t) :
    L.Stores a t ∧ P t := by
  have hstores := h.fetch_eq_some.mp (Ledger.fetch_eq_some.mpr hload)
  refine ⟨hstores, ?_⟩
  rcases h with hvacant | ⟨s, hs, hP⟩
  · exact absurd hvacant hstores.not_vacant
  · rwa [hstores.unique hs]

theorem Keeps.of_stores {L : Ledger} {a : Address} {P : T → Prop}
    (h : L.Keeps a P) {t : T} (hstores : L.Stores a t) : P t :=
  (h.load hstores.load).2

theorem Keeps.of_fetch {L : Ledger} {a : Address} {P : T → Prop}
    (h : L.Keeps a P) {t : T} (hfetch : L.fetch T a = some t) : P t :=
  h.of_stores (h.fetch_eq_some.mp hfetch)

/-- The record that `init_if_needed` hands to the handler. -/
def Provides (L : Ledger) (a : Address) (t : T) : Prop :=
  L.Stores a t ∨ (L.Vacant a ∧ t = AnchorAccount.zeroed)

theorem Keeps.provides {L : Ledger} {a : Address} {P : T → Prop}
    (h : L.Keeps a P) {t : T} (hprovides : L.Provides a t) :
    P t ∨ t = AnchorAccount.zeroed := by
  rcases hprovides with hstores | ⟨-, rfl⟩
  · exact .inl (h.of_stores hstores)
  · exact .inr rfl

theorem Keeps.initIfNeeded {L L' : Ledger} {a : Address} {P : T → Prop}
    (h : L.Keeps a P) {t : T}
    (hinit : L.initIfNeeded T a (AnchorAccount.len T) = .ok (L', t)) :
    L.Provides a t ∧ L'.Sized T a ∧ ∀ b, b ≠ a → L' b = L b := by
  have hframe : ∀ b, b ≠ a → L' b = L b :=
    fun b hb => initIfNeeded_of_ne hinit hb
  rcases initIfNeeded_cases hinit with ⟨hfetch, rfl⟩ | ⟨hvacant, ht, rfl⟩
  · have hstores := h.fetch_eq_some.mp hfetch
    exact ⟨.inl hstores, hstores.sized, hframe⟩
  · exact ⟨.inr ⟨hvacant, ht⟩,
      ⟨_, by rw [set_self], List.length_replicate⟩, hframe⟩

theorem Sized.congr {L L' : Ledger} {a : Address} (h : L.Sized T a)
    (heq : L' a = L a) : L'.Sized T a := by
  rw [Sized, heq]
  exact h

theorem Stores.congr {L L' : Ledger} {a : Address} {t : T} (h : L.Stores a t)
    (heq : L' a = L a) : L'.Stores a t := by
  rw [Stores, heq]
  exact h

theorem Sized.exit {L L' : Ledger} {a : Address} (h : L.Sized T a) {t : T}
    (hexit : L.exit a t = .ok L') : L'.Stores a t := by
  obtain ⟨data, hdata, hlen⟩ := h
  obtain ⟨data', hdata', -, rfl⟩ := exit_eq_ok.mp hexit
  rw [hdata] at hdata'
  cases hdata'
  rw [Stores, setBody_self, ← hlen, List.drop_length, List.append_nil]

theorem Sized.exit_of_ne {U : Type} [AnchorAccount U] {L L' : Ledger}
    {a b : Address} {u : U} (h : L.Sized T b) (hexit : L.exit a u = .ok L')
    (hne : b ≠ a) : L'.Sized T b :=
  h.congr (Ledger.exit_of_ne hexit hne)

theorem Stores.exit_of_ne {U : Type} [AnchorAccount U] {L L' : Ledger}
    {a b : Address} {t : T} {u : U} (h : L.Stores b t)
    (hexit : L.exit a u = .ok L') (hne : b ≠ a) : L'.Stores b t :=
  h.congr (Ledger.exit_of_ne hexit hne)

/-! ## Updating one record -/

/-- `init_if_needed`, an update of the record, and the write-back. -/
def Upserts (L : Ledger) (a : Address) (update : T → T) (L' : Ledger) : Prop :=
  ∃ L₁ record, L.initIfNeeded T a (AnchorAccount.len T) = .ok (L₁, record) ∧
    L₁.exit a (update record) = .ok L'

variable {L L' : Ledger} {a : Address} {update : T → T}

theorem Upserts.of_ne (h : L.Upserts a update L') {b : Address} (hne : b ≠ a) :
    L' b = L b := by
  rcases h with ⟨L₁, record, hinit, hexit⟩
  rw [exit_of_ne hexit hne, initIfNeeded_of_ne hinit hne]

theorem Upserts.stores (h : L.Upserts a update L') {P : T → Prop}
    (hkeeps : L.Keeps a P) :
    ∃ record, L.Provides a record ∧ L'.Stores a (update record) := by
  rcases h with ⟨L₁, record, hinit, hexit⟩
  rcases hkeeps.initIfNeeded hinit with ⟨hprovides, hsized, -⟩
  exact ⟨record, hprovides, hsized.exit hexit⟩

theorem Stores.of_upserts {t : T} (hstores : L.Stores a t)
    (h : L.Upserts a update L') : L'.Stores a (update t) := by
  have hkeeps : L.Keeps a fun _ : T => True := .inr ⟨t, hstores, trivial⟩
  rcases h.stores hkeeps with ⟨record, hold | ⟨hvacant, -⟩, hstores'⟩
  · rwa [hstores.unique hold]
  · exact absurd hvacant hstores.not_vacant

theorem Upserts.map_fetch (h : L.Upserts a update L') {α : Type} {f : T → α}
    {value : α} (hset : ∀ record, f (update record) = value) :
    (L'.fetch T a).map f = some value := by
  rcases h with ⟨L₁, record, -, hexit⟩
  rw [fetch_exit hexit, Option.map_some, hset]

theorem Stores.upserts {t : T} (h : L.Stores a t) (hsame : update t = t) :
    L.Upserts a update L' ↔ L' = L := by
  have hdata : tryDeserialize T (image t) = .ok t :=
    tryDeserialize_eq_ok.mpr ⟨[], by rw [List.append_nil]⟩
  have hinit : L.initIfNeeded T a (AnchorAccount.len T) = .ok (L, t) := by
    rw [Ledger.initIfNeeded, h]
    simp only [hdata, bind_eq_ok, require_eq_ok, pure_eq_ok, length_image,
      exists_const, Except.ok.injEq, exists_eq_left', true_and]
  constructor
  · rintro ⟨L₁, record, hfirst, hexit⟩
    rw [hinit, Except.ok.injEq, Prod.mk.injEq] at hfirst
    rcases hfirst with ⟨rfl, rfl⟩
    rw [hsame] at hexit
    exact exit_fetched h.fetch hexit
  · rintro rfl
    have hwrite : ∃ L₁, L'.exit a t = .ok L₁ :=
      ⟨_, exit_eq_ok.mpr ⟨image t, h, by rw [length_image], rfl⟩⟩
    rcases hwrite with ⟨L₁, hexit⟩
    have hkept : L₁ = L' := exit_fetched h.fetch hexit
    rw [hkept] at hexit
    exact ⟨L', t, hinit, by rw [hsame]; exact hexit⟩

end

end Ledger

end SolBtcBridge.Runtime
