import SolBtcBridge.Runtime.Locality
import SolBtcBridge.Runtime.Placement

/-!
# What an operation changes

An operation is followed on two ledgers at once: they agree on everything that
may be read or written, and the first has changed only where writing is
allowed.  Each operation of the runtime keeps both facts.
-/

namespace SolBtcBridge.Runtime

open SolBtcBridge.Foundation

namespace Ledger

/-- The ledgers agree on the footprint; the first differs from the base in `W` only. -/
structure Within (R W : Set Address) (base L L' : Ledger) : Prop where
  agrees : Set.EqOn L L' (R ∪ W)
  frame : Set.EqOn base L Wᶜ

def WithinPair {α : Type} (R W : Set Address) (base : Ledger)
    (x y : Ledger × α) : Prop := Within R W base x.1 y.1 ∧ x.2 = y.2

variable {R W : Set Address} {base L L' : Ledger} {a b : Address}

namespace Within

theorem start (h : Set.EqOn L L' (R ∪ W)) : Within R W L L L' where
  agrees := h
  frame := fun _ _ => rfl

theorem step (h : Within R W base L L') {x y : Result Ledger}
    (hlocal : Related (Set.EqOn · · (R ∪ W)) x y)
    (hframe : ∀ L₁, x = .ok L₁ → Set.EqOn L L₁ Wᶜ) :
    Related (Within R W base) x y :=
  hlocal.imp fun L₁ _ hx _ hagrees => ⟨hagrees, h.frame.trans (hframe L₁ hx)⟩

theorem stepPair {α : Type} (h : Within R W base L L')
    {x y : Result (Ledger × α)} (hlocal : Related (Alike (R ∪ W)) x y)
    (hframe : ∀ L₁ v, x = .ok (L₁, v) → Set.EqOn L L₁ Wᶜ) :
    Related (WithinPair R W base) x y :=
  hlocal.imp fun p _ hx _ halike =>
    ⟨⟨halike.1, h.frame.trans (hframe p.1 p.2 hx)⟩, halike.2⟩

theorem not_mem_ne {c : Address} (ha : a ∈ W) (hc : c ∈ Wᶜ) : c ≠ a :=
  fun heq => hc (heq ▸ ha)

section

variable {T : Type} [AnchorAccount T]

theorem load (h : Within R W base L L') (ha : a ∈ R ∪ W) :
    L'.load T a = L.load T a := load_local h.agrees ha

theorem init (h : Within R W base L L') (ha : a ∈ W) (space : Nat) :
    Related (WithinPair R W base) (L.init T a space) (L'.init T a space) :=
  h.stepPair (init_local h.agrees (.inr ha) space) fun _ _ hinit _ hc =>
    (init_of_ne hinit (not_mem_ne ha hc)).symm

theorem initIfNeeded (h : Within R W base L L') (ha : a ∈ W) :
    Related (WithinPair R W base)
      (L.initIfNeeded T a (AnchorAccount.len T))
      (L'.initIfNeeded T a (AnchorAccount.len T)) :=
  h.stepPair (initIfNeeded_local h.agrees (.inr ha) _) fun _ _ hinit _ hc =>
    (initIfNeeded_of_ne hinit (not_mem_ne ha hc)).symm

theorem exit (h : Within R W base L L') (ha : a ∈ W) (t : T) :
    Related (Within R W base) (L.exit a t) (L'.exit a t) :=
  h.step (exit_local h.agrees (.inr ha) t) fun _ hexit _ hc =>
    (exit_of_ne hexit (not_mem_ne ha hc)).symm

end

theorem initTokenAccount (h : Within R W base L L') (ha : a ∈ W)
    (hb : b ∈ R ∪ W) (owner : Address) :
    Related (Within R W base) (L.initTokenAccount a b owner)
      (L'.initTokenAccount a b owner) :=
  h.step (initTokenAccount_local h.agrees (.inr ha) hb owner)
    fun _ hinit c hc =>
      ((initTokenAccount_spec hinit).2.2 c (not_mem_ne ha hc)).symm

theorem mintTo (h : Within R W base L L') (ha : a ∈ W) (hb : b ∈ W)
    (authority : Address) (amount : U64) :
    Related (Within R W base) (L.mintTo a b authority amount)
      (L'.mintTo a b authority amount) :=
  h.step (mintTo_local h.agrees (.inr ha) (.inr hb) authority amount)
    fun _ hmint c hc => ((mintTo_spec hmint).2.2.2.2 c (not_mem_ne ha hc)
      (not_mem_ne hb hc)).symm

theorem transfer (h : Within R W base L L') (ha : a ∈ W) (hb : b ∈ W)
    (authority : Address) (amount : U64) :
    Related (Within R W base) (L.transfer a b authority amount)
      (L'.transfer a b authority amount) :=
  h.step (transfer_local h.agrees (.inr ha) (.inr hb) authority amount)
    fun _ htransfer c hc => ((transfer_spec htransfer).2.2.2.2 c
      (not_mem_ne ha hc) (not_mem_ne hb hc)).symm

theorem burn (h : Within R W base L L') (ha : a ∈ W) (hb : b ∈ W)
    (authority : Address) (amount : U64) :
    Related (Within R W base) (L.burn a b authority amount)
      (L'.burn a b authority amount) :=
  h.step (burn_local h.agrees (.inr ha) (.inr hb) authority amount)
    fun _ hburn c hc => ((burn_spec hburn).2.2.2.2 c (not_mem_ne ha hc)
      (not_mem_ne hb hc)).symm

theorem set (h : Within R W base L L') (ha : a ∈ W) (account : Account) :
    Within R W base (L.set a account) (L'.set a account) where
  agrees := eqOn_set h.agrees account
  frame := h.frame.trans fun _ hc =>
    (set_of_ne L account (not_mem_ne ha hc)).symm

theorem placeAll (h : Within R W base L L') {ps : List Placement}
    (hps : ∀ p ∈ ps, p.address ∈ W) :
    Within R W base (L.placeAll ps) (L'.placeAll ps) where
  agrees := fun _ hc => placeAll_congr ps (h.agrees hc)
  frame := h.frame.trans fun _ hc =>
    (placeAll_of_ne L fun p hp => not_mem_ne (hps p hp) hc).symm

theorem placeable (h : Within R W base L L') {ps : List Placement}
    (hps : ∀ p ∈ ps, p.address ∈ W) : L'.Placeable ps ↔ L.Placeable ps :=
  placeable_congr fun p hp => (h.agrees (.inr (hps p hp))).symm

end Within

end Ledger

end SolBtcBridge.Runtime
