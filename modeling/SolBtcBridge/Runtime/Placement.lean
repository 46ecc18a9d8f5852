import SolBtcBridge.Runtime.Storage
import SolBtcBridge.Runtime.Token

/-!
# Placing data at unfunded addresses

A batch fills each of its addresses unless the address already holds lamports,
and filling one gives it lamports.  So the first placement at an address wins,
and an address that was funded before the batch keeps what it had.
-/

namespace SolBtcBridge.Runtime

open SolBtcBridge.Foundation

theorem minimumBalance_ne_zero (space : Nat) : minimumBalance space ≠ 0 := by
  unfold minimumBalance
  omega

/-- Data for an address, and what is checked when the address is filled. -/
structure Placement where
  address : Address
  data : List U8
  check : Prop

def Placement.account (p : Placement) : Account :=
  ⟨minimumBalance p.data.length, .bridge p.data⟩

namespace Ledger

/-- Fill the address if it holds no lamports. -/
def place (L : Ledger) (p : Placement) : Ledger :=
  if (L p.address).lamports = 0 then L.set p.address p.account else L

def placeAll (L : Ledger) : List Placement → Ledger
  | [] => L
  | p :: ps => (L.place p).placeAll ps

/-- If the address is filled, it is vacant and the check passes. -/
def Accepts (L : Ledger) (p : Placement) : Prop :=
  (L p.address).lamports = 0 → L.Vacant p.address ∧ p.check

def Placeable : Ledger → List Placement → Prop
  | _, [] => True
  | L, p :: ps => L.Accepts p ∧ Placeable (L.place p) ps

theorem place_of_funded {L : Ledger} {p : Placement}
    (h : (L p.address).lamports ≠ 0) : L.place p = L := if_neg h

theorem place_of_unfunded {L : Ledger} {p : Placement}
    (h : (L p.address).lamports = 0) : L.place p = L.set p.address p.account :=
  if_pos h

theorem place_of_ne (L : Ledger) {p : Placement} {a : Address}
    (h : a ≠ p.address) : L.place p a = L a := by
  unfold place
  split
  · exact set_of_ne L _ h
  · rfl

theorem place_funded (L : Ledger) (p : Placement) :
    (L.place p p.address).lamports ≠ 0 := by
  by_cases h : (L p.address).lamports = 0
  · rw [place_of_unfunded h, set_self]
    exact minimumBalance_ne_zero _
  · rwa [place_of_funded h]

theorem place_comm (L : Ledger) {p q : Placement} (h : p.address ≠ q.address) :
    (L.place p).place q = (L.place q).place p := by
  have hp : L.place q p.address = L p.address := place_of_ne L h
  have hq : L.place p q.address = L q.address := place_of_ne L h.symm
  funext a
  by_cases ha : a = p.address
  · rw [ha, place_of_ne _ h]
    by_cases hempty : (L p.address).lamports = 0
    · rw [place_of_unfunded hempty, place_of_unfunded (by rwa [hp]), set_self,
        set_self]
    · rw [place_of_funded hempty, place_of_funded (by rwa [hp]), hp]
  · rw [place_of_ne (L.place q) ha]
    by_cases ha' : a = q.address
    · rw [ha']
      by_cases hempty : (L q.address).lamports = 0
      · rw [place_of_unfunded hempty, place_of_unfunded (by rwa [hq]), set_self,
          set_self]
      · rw [place_of_funded hempty, place_of_funded (by rwa [hq]), hq]
    · rw [place_of_ne _ ha', place_of_ne _ ha, place_of_ne _ ha']

theorem place_setBody (L : Ledger) {p : Placement} {a : Address}
    (body : AccountBody) (h : p.address ≠ a) :
    (L.setBody a body).place p = (L.place p).setBody a body := by
  have hp : L.setBody a body p.address = L p.address := setBody_of_ne L body h
  have ha : L.place p a = L a := place_of_ne L h.symm
  funext b
  by_cases hb : b = a
  · rw [hb, place_of_ne _ h.symm, setBody, setBody, set_self, set_self, ha]
  · rw [setBody_of_ne _ _ hb]
    by_cases hempty : (L p.address).lamports = 0
    · rw [place_of_unfunded hempty, place_of_unfunded (by rwa [hp])]
      by_cases hb' : b = p.address
      · rw [hb', set_self, set_self]
      · rw [set_of_ne _ _ hb', set_of_ne _ _ hb', setBody_of_ne _ _ hb]
    · rw [place_of_funded hempty, place_of_funded (by rwa [hp]),
        setBody_of_ne _ _ hb]

/-- No account exists at the address: it holds no lamports and no data. -/
def Absent (L : Ledger) (a : Address) : Prop := L a = ⟨0, .system⟩

section

variable {T : Type} [AnchorAccount T] {L : Ledger} {a : Address}

theorem Absent.lamports (h : L.Absent a) : (L a).lamports = 0 := by rw [h]

theorem Absent.vacant (h : L.Absent a) : L.Vacant a := by rw [Vacant, h]

theorem Absent.initIfNeeded (h : L.Absent a) :
    L.initIfNeeded T a (AnchorAccount.len T) =
      .ok (L.set a ⟨minimumBalance (AnchorAccount.len T),
        .bridge (List.replicate (AnchorAccount.len T) 0)⟩,
        AnchorAccount.zeroed) := by
  have hinit : L.initIfNeeded T a (AnchorAccount.len T) =
      L.init T a (AnchorAccount.len T) := by
    rw [Ledger.initIfNeeded, h]
  rw [hinit, init_eq_ok le_rfl, h.lamports, Nat.zero_max]
  exact ⟨h.vacant, rfl, rfl⟩

theorem Absent.exit (h : L.Absent a) (t : T) (check : Prop) :
    (L.set a ⟨minimumBalance (AnchorAccount.len T),
        .bridge (List.replicate (AnchorAccount.len T) 0)⟩).exit a t =
      .ok (L.place ⟨a, image t, check⟩) := by
  rw [exit_eq_ok]
  refine ⟨List.replicate (AnchorAccount.len T) 0, by rw [set_self],
    by rw [List.length_replicate], ?_⟩
  have hplace : L.place ⟨a, image t, check⟩ = L.set a
      ⟨minimumBalance (image t).length, .bridge (image t)⟩ :=
    place_of_unfunded h.lamports
  rw [hplace, setBody, set_self, set_set, length_image, List.drop_replicate,
    Nat.sub_self, List.replicate_zero, List.append_nil]

theorem Absent.upserts (h : L.Absent a) {update : T → T} (check : Prop)
    {L' : Ledger} :
    L.Upserts a update L' ↔
      L' = L.place ⟨a, image (update AnchorAccount.zeroed), check⟩ := by
  have hexit := h.exit (update AnchorAccount.zeroed) check
  constructor
  · rintro ⟨L₁, record, hinit, hwrite⟩
    rw [h.initIfNeeded, Except.ok.injEq, Prod.mk.injEq] at hinit
    rcases hinit with ⟨rfl, rfl⟩
    rw [hexit] at hwrite
    exact (Except.ok.inj hwrite).symm
  · rintro rfl
    exact ⟨_, _, h.initIfNeeded, hexit⟩

theorem Upserts.sameTokens {update : T → T} {L' : Ledger}
    (h : L.Upserts a update L') : SameTokens L L' := by
  rcases h with ⟨L₁, record, hinit, hexit⟩
  exact (initIfNeeded_sameTokens hinit).trans (exit_sameTokens hexit)

end

/-! ## Batches -/

theorem placeAll_setBody (L : Ledger) {ps : List Placement} {a : Address}
    (body : AccountBody) (h : ∀ p ∈ ps, p.address ≠ a) :
    (L.setBody a body).placeAll ps = (L.placeAll ps).setBody a body := by
  induction ps generalizing L with
  | nil => rfl
  | cons p ps ih =>
      rw [placeAll, placeAll, place_setBody L body (h p List.mem_cons_self),
        ih _ fun q hq => h q (List.mem_cons_of_mem p hq)]

theorem placeAll_of_ne (L : Ledger) {ps : List Placement} {a : Address}
    (h : ∀ p ∈ ps, a ≠ p.address) : L.placeAll ps a = L a := by
  induction ps generalizing L with
  | nil => rfl
  | cons p ps ih =>
      rw [placeAll, ih (L.place p) fun q hq => h q (List.mem_cons_of_mem p hq)]
      exact place_of_ne L (h p List.mem_cons_self)

theorem placeAll_congr {L L' : Ledger} (ps : List Placement) {a : Address}
    (h : L a = L' a) : L.placeAll ps a = L'.placeAll ps a := by
  induction ps generalizing L L' with
  | nil => exact h
  | cons p ps ih =>
      apply ih
      by_cases ha : a = p.address
      · subst ha
        by_cases hempty : (L p.address).lamports = 0
        · rw [place_of_unfunded hempty, place_of_unfunded (by rwa [← h]), set_self,
            set_self]
        · rw [place_of_funded hempty, place_of_funded (by rwa [← h]), h]
      · rw [place_of_ne L ha, place_of_ne L' ha, h]

theorem placeAll_of_funded {L : Ledger} {a : Address} (ps : List Placement)
    (h : (L a).lamports ≠ 0) : L.placeAll ps a = L a := by
  induction ps generalizing L with
  | nil => rfl
  | cons p ps ih =>
      have hkept : L.place p a = L a := by
        by_cases ha : a = p.address
        · subst ha
          rw [place_of_funded h]
        · exact place_of_ne L ha
      rw [placeAll, ih (by rwa [hkept]), hkept]

theorem placeAll_of_find {L : Ledger} {a : Address} {ps : List Placement}
    {p : Placement} (hempty : (L a).lamports = 0)
    (hfind : ps.find? (fun q => q.address = a) = some p) :
    L.placeAll ps a = p.account := by
  induction ps generalizing L with
  | nil => contradiction
  | cons q ps ih =>
      by_cases hq : q.address = a
      · rw [List.find?_cons_of_pos (by simpa using hq)] at hfind
        cases hfind
        subst hq
        rw [placeAll, placeAll_of_funded ps (place_funded L p),
          place_of_unfunded hempty, set_self]
      · rw [List.find?_cons_of_neg (by simpa using hq)] at hfind
        have hkept : L.place q a = L a := place_of_ne L (Ne.symm hq)
        exact ih (by rwa [hkept]) hfind

theorem placeAll_stores {T : Type} [AnchorAccount T] {L : Ledger} {a : Address}
    {ps : List Placement} {p : Placement} {t : T} (hempty : (L a).lamports = 0)
    (hfind : ps.find? (fun q => q.address = a) = some p)
    (hdata : p.data = image t) : (L.placeAll ps).Stores a t := by
  rw [Stores, placeAll_of_find hempty hfind, Placement.account, hdata]

theorem exit_placeAll {T : Type} [AnchorAccount T] {L L' : Ledger}
    {ps : List Placement} {a : Address} {t : T} (h : ∀ p ∈ ps, p.address ≠ a) :
    (L.placeAll ps).exit a t = .ok L' ↔
      ∃ L₁, L.exit a t = .ok L₁ ∧ L' = L₁.placeAll ps := by
  have hkept : L.placeAll ps a = L a :=
    placeAll_of_ne L fun p hp => (h p hp).symm
  simp only [exit_eq_ok, hkept]
  constructor
  · rintro ⟨data, hdata, hlength, rfl⟩
    exact ⟨_, ⟨data, hdata, hlength, rfl⟩, (placeAll_setBody L _ h).symm⟩
  · rintro ⟨_, ⟨data, hdata, hlength, rfl⟩, rfl⟩
    exact ⟨data, hdata, hlength, placeAll_setBody L _ h⟩

theorem placeAll_cases {L : Ledger} {ps : List Placement} (h : L.Placeable ps)
    (a : Address) :
    L.placeAll ps a = L a ∨ ∃ p ∈ ps, a = p.address ∧ L.Vacant a ∧ p.check ∧
      L.placeAll ps a = p.account := by
  induction ps generalizing L with
  | nil => exact .inl rfl
  | cons p ps ih =>
      rcases h with ⟨hfirst, hrest⟩
      by_cases hempty : (L p.address).lamports = 0
      · rcases hfirst hempty with ⟨hvacant, hcheck⟩
        by_cases ha : a = p.address
        · subst ha
          refine .inr ⟨p, List.mem_cons_self, rfl, hvacant, hcheck, ?_⟩
          rw [placeAll, placeAll_of_funded ps (place_funded L p),
            place_of_unfunded hempty, set_self]
        · rcases ih hrest with heq | ⟨q, hq, haddress, hfree, hchecked, haccount⟩
          · exact .inl (heq.trans (place_of_ne L ha))
          · rw [Vacant, place_of_ne L ha] at hfree
            exact .inr ⟨q, List.mem_cons_of_mem p hq, haddress, hfree, hchecked,
              haccount⟩
      · rw [placeAll, place_of_funded hempty]
        rw [place_of_funded hempty] at hrest
        rcases ih hrest with heq | ⟨q, hq, hplaced⟩
        · exact .inl heq
        · exact .inr ⟨q, List.mem_cons_of_mem p hq, hplaced⟩

theorem placeAll_sameTokens {L : Ledger} {ps : List Placement}
    (h : L.Placeable ps) : SameTokens L (L.placeAll ps) := by
  have hnone : ∀ a, (L.placeAll ps a).body = (L a).body ∨
      (L.supply a = 0 ∧ L.balance a = 0) ∧
        (L.placeAll ps).supply a = 0 ∧ (L.placeAll ps).balance a = 0 := by
    intro a
    rcases placeAll_cases h a with heq | ⟨p, -, -, hvacant, -, haccount⟩
    · exact .inl (by rw [heq])
    · exact .inr ⟨no_tokens_of_system hvacant,
        no_tokens_of_bridge (by rw [haccount]; rfl)⟩
  constructor
  · intro a
    rcases hnone a with heq | ⟨hbefore, hafter⟩
    · exact supply_congr heq
    · rw [hbefore.1, hafter.1]
  · intro a
    rcases hnone a with heq | ⟨hbefore, hafter⟩
    · exact balance_congr heq
    · rw [hbefore.2, hafter.2]

/-- Only the first placement at an address is ever checked. -/
theorem placeable_iff {L : Ledger} {ps : List Placement} :
    Placeable L ps ↔ ∀ p ∈ ps, (L p.address).lamports = 0 →
      L.Vacant p.address ∧
        ∀ q, ps.find? (fun q => q.address = p.address) = some q → q.check := by
  induction ps generalizing L with
  | nil => simp [Placeable]
  | cons first ps ih =>
      have hskip : ∀ p : Placement, p.address ≠ first.address →
          (first :: ps).find? (fun q => q.address = p.address) =
            ps.find? (fun q => q.address = p.address) := by
        intro p hp
        exact List.find?_cons_of_neg (by simpa using Ne.symm hp)
      have hfirst : ∀ p : Placement, p.address = first.address →
          (first :: ps).find? (fun q => q.address = p.address) = some first := by
        intro p hp
        exact List.find?_cons_of_pos (by simpa using hp.symm)
      rw [Placeable, ih]
      constructor
      · rintro ⟨hhead, htail⟩ p hp hempty
        by_cases hsame : p.address = first.address
        · have hchecked := hhead (by rwa [← hsame])
          refine ⟨by rw [hsame]; exact hchecked.1, ?_⟩
          intro q hq
          rw [hfirst p hsame] at hq
          cases hq
          exact hchecked.2
        · have hmem : p ∈ ps := by
            rcases List.mem_cons.mp hp with rfl | hmem
            · exact absurd rfl hsame
            · exact hmem
          have hlater := htail p hmem
          rw [place_of_ne L hsame] at hlater
          rw [hskip p hsame]
          rcases hlater hempty with ⟨hvacant, hcheck⟩
          rw [Vacant, place_of_ne L hsame] at hvacant
          exact ⟨hvacant, hcheck⟩
      · intro h
        constructor
        · intro hempty
          rcases h first List.mem_cons_self hempty with ⟨hvacant, hcheck⟩
          exact ⟨hvacant, hcheck first (hfirst first rfl)⟩
        · intro p hp hempty
          by_cases hsame : p.address = first.address
          · rw [hsame] at hempty
            exact absurd hempty (place_funded L first)
          · rw [place_of_ne L hsame] at hempty
            rw [Vacant, place_of_ne L hsame, ← hskip p hsame]
            exact h p (List.mem_cons_of_mem first hp) hempty

theorem placeable_congr {L L' : Ledger} {ps : List Placement}
    (h : ∀ p ∈ ps, L' p.address = L p.address) :
    L'.Placeable ps ↔ L.Placeable ps := by
  rw [placeable_iff, placeable_iff]
  refine forall₂_congr fun p hp => ?_
  rw [Vacant, Vacant, h p hp]

end Ledger

end SolBtcBridge.Runtime
