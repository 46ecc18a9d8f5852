import SolBtcBridge.Runtime.Storage
import SolBtcBridge.Runtime.Token

/-!
# When the runtime does what it is asked

The specifications say what an operation did if it succeeded.  Here are
conditions under which it does succeed: writing back needs room, and the token
program needs the right mint, the right authority and sums that fit a word.
-/

namespace SolBtcBridge.Runtime

open SolBtcBridge.Foundation

theorem exists_checkedAdd {w : Nat} {a b : BitVec w}
    (h : a.toNat + b.toNat < 2 ^ w) : ∃ c, checkedAdd a b = some c :=
  ⟨a + b, checkedAdd_eq_some.mpr (BitVec.toNat_add_of_lt h)⟩

theorem exists_checkedSub {w : Nat} {a b : BitVec w} (h : b.toNat ≤ a.toNat) :
    ∃ c, checkedSub a b = some c := by
  refine ⟨a - b, checkedSub_eq_some.mpr ?_⟩
  rw [BitVec.toNat_sub_of_le (BitVec.le_def.mpr h)]
  omega

namespace Ledger

section

variable {L : Ledger} {a mint source destination authority : Address}
  {m : Mint} {account sender receiver : TokenAccount} {amount : U64}

theorem exit_isOk {T : Type} [AnchorAccount T] {data : List U8} (t : T)
    (hdata : (L a).body = .bridge data)
    (hroom : AnchorAccount.len T ≤ data.length) : ∃ L', L.exit a t = .ok L' :=
  ⟨_, exit_eq_ok.mpr ⟨data, hdata, hroom, rfl⟩⟩

theorem Sized.exit_isOk {T : Type} [AnchorAccount T] (h : L.Sized T a) (t : T) :
    ∃ L', L.exit a t = .ok L' := by
  rcases h with ⟨data, hdata, hlength⟩
  exact Ledger.exit_isOk t hdata (by rw [hlength])

theorem Keeps.initIfNeeded_isOk {T : Type} [AnchorAccount T] {P : T → Prop}
    (h : L.Keeps a P) :
    ∃ L' t, L.initIfNeeded T a (AnchorAccount.len T) = .ok (L', t) ∧
      L.Provides a t ∧ L'.Sized T a ∧ ∀ b, b ≠ a → L' b = L b := by
  have hok : ∃ out, L.initIfNeeded T a (AnchorAccount.len T) = .ok out := by
    rcases h with hvacant | ⟨t, hstores, -⟩
    · rw [Ledger.initIfNeeded, hvacant]
      exact ⟨_, (init_eq_ok le_rfl).mpr ⟨hvacant, rfl, rfl⟩⟩
    · have hdata : tryDeserialize T (image t) = .ok t :=
        tryDeserialize_eq_ok.mpr ⟨[], by rw [List.append_nil]⟩
      rw [Ledger.initIfNeeded, hstores]
      simp only [hdata, bind_eq_ok, require_eq_ok, pure_eq_ok]
      exact ⟨_, t, rfl, (), length_image t, rfl⟩
  rcases hok with ⟨⟨L', t⟩, hinit⟩
  rcases h.initIfNeeded hinit with ⟨hprovides, hsized, hkept⟩
  exact ⟨L', t, hinit, hprovides, hsized, hkept⟩

theorem supply_lt (L : Ledger) (a : Address) : L.supply a < 2 ^ 64 := by
  unfold supply
  split
  · exact BitVec.isLt _
  · decide

theorem mintTo_isOk (hmint : (L mint).body = .mint m)
    (haccount : (L a).body = .token account) (hsame : account.mint = mint)
    (hauthority : m.mintAuthority = authority)
    (hsupply : m.supply.toNat + amount.toNat < 2 ^ 64)
    (hbalance : account.amount.toNat + amount.toNat < 2 ^ 64) :
    ∃ L', L.mintTo mint a authority amount = .ok L' := by
  rcases exists_checkedAdd hsupply with ⟨supply, hsupply⟩
  rcases exists_checkedAdd hbalance with ⟨balance, hbalance⟩
  simp only [mintTo, hmint, haccount, bind_eq_ok, require_eq_ok, orFail_eq_ok,
    pure_eq_ok]
  exact ⟨_, (), ⟨hsame, hauthority⟩, supply, hsupply, balance, hbalance, rfl⟩

theorem transfer_isOk (hsource : (L source).body = .token sender)
    (hdestination : (L destination).body = .token receiver)
    (hne : source ≠ destination) (hsame : sender.mint = receiver.mint)
    (howner : sender.owner = authority)
    (hfunds : amount.toNat ≤ sender.amount.toNat)
    (hroom : receiver.amount.toNat + amount.toNat < 2 ^ 64) :
    ∃ debited credited : U64,
      debited.toNat + amount.toNat = sender.amount.toNat ∧
      credited.toNat = receiver.amount.toNat + amount.toNat ∧
      L.transfer source destination authority amount = .ok
        ((L.setBody source (.token { sender with amount := debited })).setBody
          destination (.token { receiver with amount := credited })) := by
  rcases exists_checkedSub hfunds with ⟨debited, hdebited⟩
  rcases exists_checkedAdd hroom with ⟨credited, hcredited⟩
  refine ⟨debited, credited, (checkedSub_eq_some.mp hdebited).symm,
    checkedAdd_eq_some.mp hcredited, ?_⟩
  simp only [transfer, hsource, hdestination, bind_eq_ok, require_eq_ok,
    orFail_eq_ok, pure_eq_ok, exists_and_left, exists_const, if_neg hne]
  exact ⟨⟨hsame, howner⟩, debited, hdebited, credited, hcredited, rfl⟩

theorem burn_isOk (hmint : (L mint).body = .mint m)
    (haccount : (L a).body = .token account) (hsame : account.mint = mint)
    (howner : account.owner = authority)
    (hbalance : amount.toNat ≤ account.amount.toNat)
    (hsupply : amount.toNat ≤ m.supply.toNat) :
    ∃ L', L.burn mint a authority amount = .ok L' := by
  rcases exists_checkedSub hbalance with ⟨balance, hbalance⟩
  rcases exists_checkedSub hsupply with ⟨supply, hsupply⟩
  simp only [burn, hmint, haccount, bind_eq_ok, require_eq_ok, orFail_eq_ok,
    pure_eq_ok]
  exact ⟨_, (), ⟨hsame, howner⟩, balance, hbalance, supply, hsupply, rfl⟩

end

end Ledger

end SolBtcBridge.Runtime
