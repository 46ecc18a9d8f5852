import SolBtcBridge.Runtime.Placement

/-!
# Lamports and rent

An account pays for the space it takes.  Nothing here takes lamports out of an
account, so what is paid for once stays paid for, and an address without
lamports has no account.
-/

namespace SolBtcBridge.Runtime

open SolBtcBridge.Foundation

def AccountBody.space : AccountBody → Option Nat
  | .system => none
  | .bridge data => some data.length
  | .mint _ => some 82
  | .token _ => some 165

def Account.RentExempt (account : Account) : Prop :=
  ∀ space, account.body.space = some space →
    minimumBalance space ≤ account.lamports

structure Account.Funds (before after : Account) : Prop where
  lamports : before.lamports ≤ after.lamports
  rent : before.RentExempt → after.RentExempt

namespace Ledger

/-- No account loses lamports or comes to owe rent. -/
def Funds (L L' : Ledger) : Prop := ∀ a, (L a).Funds (L' a)

theorem vacant_of_unfunded {L : Ledger} {a : Address}
    (hrent : (L a).RentExempt) (h : (L a).lamports = 0) : L.Vacant a := by
  have hpaid : ∀ space, (L a).body.space = some space → False := by
    intro space hspace
    have hle := hrent space hspace
    rw [h, Nat.le_zero] at hle
    exact minimumBalance_ne_zero space hle
  unfold Vacant
  cases hbody : (L a).body with
  | system => rfl
  | _ => exact (hpaid _ (by rw [hbody]; rfl)).elim

namespace Funds

variable {L L' L'' : Ledger} {a : Address}

theorem refl (L : Ledger) : L.Funds L := fun _ => ⟨le_rfl, id⟩

theorem trans (h : L.Funds L') (h' : L'.Funds L'') : L.Funds L'' := fun a =>
  ⟨(h a).lamports.trans (h' a).lamports, (h' a).rent ∘ (h a).rent⟩

theorem of_set {account : Account} (h : (L a).Funds account) :
    L.Funds (L.set a account) := by
  intro b
  by_cases hb : b = a
  · subst hb
    rwa [set_self]
  · rw [set_of_ne L _ hb]
    exact refl L b

theorem of_created {space : Nat} {body : AccountBody}
    (h : body.space = some space) :
    L.Funds (L.set a ⟨max (L a).lamports (minimumBalance space), body⟩) := by
  refine of_set ⟨Nat.le_max_left _ _, fun _ n hn => ?_⟩
  rw [h, Option.some.injEq] at hn
  rw [← hn]
  exact Nat.le_max_right _ _

theorem of_setBody {body : AccountBody} (h : body.space = (L a).body.space) :
    L.Funds (L.setBody a body) := by
  refine of_set ⟨le_rfl, fun hrent space hspace => hrent space ?_⟩
  rw [← h]
  exact hspace

theorem setBody_space {body : AccountBody} (h : body.space = (L a).body.space)
    (b : Address) : (L.setBody a body b).body.space = (L b).body.space := by
  by_cases hb : b = a
  · subst hb
    rw [setBody_self, h]
  · rw [setBody_of_ne L _ hb]

theorem of_setBodies {b : Address} {body body' : AccountBody}
    (h : body.space = (L a).body.space) (h' : body'.space = (L b).body.space) :
    L.Funds ((L.setBody a body).setBody b body') :=
  (of_setBody h).trans (of_setBody (by rw [setBody_space h, h']))

section

variable {T : Type} [AnchorAccount T] {t : T}

theorem of_exit (h : L.exit a t = .ok L') : L.Funds L' := by
  rcases exit_eq_ok.mp h with ⟨data, hdata, hlen, rfl⟩
  apply of_setBody
  rw [hdata, AccountBody.space, AccountBody.space, List.length_append,
    length_image, List.length_drop]
  congr 1
  omega

theorem of_init {space : Nat} (hspace : AnchorAccount.len T ≤ space)
    (h : L.init T a space = .ok (L', t)) : L.Funds L' := by
  rcases (init_eq_ok hspace).mp h with ⟨-, -, rfl⟩
  exact of_created (by rw [AccountBody.space, List.length_replicate])

theorem of_initIfNeeded
    (h : L.initIfNeeded T a (AnchorAccount.len T) = .ok (L', t)) :
    L.Funds L' := by
  rcases initIfNeeded_cases h with ⟨-, rfl⟩ | ⟨-, -, rfl⟩
  · exact refl L'
  · exact of_created (by rw [AccountBody.space, List.length_replicate])

end

theorem of_initMint {mint authority : Address}
    (h : L.initMint mint authority = .ok L') : L.Funds L' := by
  rcases initMint_eq_ok.mp h with ⟨-, rfl⟩
  exact of_created rfl

theorem of_initTokenAccount {mint owner : Address}
    (h : L.initTokenAccount a mint owner = .ok L') : L.Funds L' := by
  rcases initTokenAccount_eq_ok.mp h with ⟨-, -, rfl⟩
  exact of_created rfl

theorem of_mintTo {mint target authority : Address} {amount : U64}
    (h : L.mintTo mint target authority amount = .ok L') : L.Funds L' := by
  unfold mintTo at h
  split at h
  · rename_i m account hmint htarget
    simp only [bind_eq_ok, orFail_eq_ok, pure_eq_ok] at h
    rcases h with ⟨_, -, supply, -, balance, -, rfl⟩
    exact of_setBodies (by rw [hmint]; rfl) (by rw [htarget]; rfl)
  · cases h

theorem of_burn {mint source authority : Address} {amount : U64}
    (h : L.burn mint source authority amount = .ok L') : L.Funds L' := by
  unfold burn at h
  split at h
  · rename_i m account hmint hsource
    simp only [bind_eq_ok, orFail_eq_ok, pure_eq_ok] at h
    rcases h with ⟨_, -, balance, -, supply, -, rfl⟩
    exact of_setBodies (by rw [hmint]; rfl) (by rw [hsource]; rfl)
  · cases h

theorem of_transfer {source destination authority : Address} {amount : U64}
    (h : L.transfer source destination authority amount = .ok L') :
    L.Funds L' := by
  unfold transfer at h
  split at h
  · rename_i sender receiver hsource hdestination
    simp only [bind_eq_ok, orFail_eq_ok] at h
    rcases h with ⟨_, -, debited, -, h⟩
    split at h
    · cases h
      exact refl L
    · simp only [bind_eq_ok, orFail_eq_ok, pure_eq_ok] at h
      rcases h with ⟨credited, -, rfl⟩
      exact of_setBodies (by rw [hsource]; rfl) (by rw [hdestination]; rfl)
  · cases h

theorem of_place (L : Ledger) (p : Placement) : L.Funds (L.place p) := by
  by_cases h : (L p.address).lamports = 0
  · rw [place_of_unfunded h]
    refine of_set ⟨by rw [h]; exact Nat.zero_le _, fun _ n hn => ?_⟩
    cases hn
    exact le_rfl
  · rw [place_of_funded h]
    exact refl L

theorem of_placeAll (L : Ledger) (ps : List Placement) :
    L.Funds (L.placeAll ps) := by
  induction ps generalizing L with
  | nil => exact refl L
  | cons p ps ih => exact (of_place L p).trans (ih _)

end Funds

end Ledger

end SolBtcBridge.Runtime
