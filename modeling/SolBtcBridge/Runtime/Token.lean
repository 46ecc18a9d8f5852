import SolBtcBridge.Runtime.Anchor
import Mathlib.Tactic.Common

/-!
# The SPL token program

Minting, transferring and burning move exactly the given amount or fail.  The
bridge observes the token program only through the supply of a mint and the
balance of a token account, so each operation is specified by what it does to
those two and by the accounts it leaves alone.
-/

namespace SolBtcBridge.Runtime

open SolBtcBridge.Foundation

namespace Ledger

def supply (L : Ledger) (mint : Address) : Nat :=
  match (L mint).body with
  | .mint m => m.supply.toNat
  | _ => 0

def balance (L : Ledger) (a : Address) : Nat :=
  match (L a).body with
  | .token account => account.amount.toNat
  | _ => 0

theorem supply_congr {L L' : Ledger} {a : Address}
    (h : (L' a).body = (L a).body) : L'.supply a = L.supply a := by
  simp only [supply, h]

theorem balance_congr {L L' : Ledger} {a : Address}
    (h : (L' a).body = (L a).body) : L'.balance a = L.balance a := by
  simp only [balance, h]

/-- No supply and no balance differs between the two ledgers. -/
structure SameTokens (L L' : Ledger) : Prop where
  supply : ∀ b, L'.supply b = L.supply b
  balance : ∀ b, L'.balance b = L.balance b

theorem SameTokens.trans {L₁ L₂ L₃ : Ledger} (h : SameTokens L₁ L₂)
    (h' : SameTokens L₂ L₃) : SameTokens L₁ L₃ where
  supply b := (h'.supply b).trans (h.supply b)
  balance b := (h'.balance b).trans (h.balance b)

theorem sameTokens_of_ne {L L' : Ledger} {a : Address}
    (hbefore : L.supply a = 0 ∧ L.balance a = 0)
    (hafter : L'.supply a = 0 ∧ L'.balance a = 0)
    (hother : ∀ b, b ≠ a → L' b = L b) : SameTokens L L' where
  supply b := by
    by_cases hb : b = a
    · rw [hb, hbefore.1, hafter.1]
    · exact supply_congr (by rw [hother b hb])
  balance b := by
    by_cases hb : b = a
    · rw [hb, hbefore.2, hafter.2]
    · exact balance_congr (by rw [hother b hb])

theorem no_tokens_of_system {L : Ledger} {a : Address}
    (h : (L a).body = .system) : L.supply a = 0 ∧ L.balance a = 0 := by
  simp [supply, balance, h]

theorem no_tokens_of_bridge {L : Ledger} {a : Address} {data : List U8}
    (h : (L a).body = .bridge data) : L.supply a = 0 ∧ L.balance a = 0 := by
  simp [supply, balance, h]

theorem sameTokens_set {L : Ledger} {a : Address} {account : Account}
    (hsystem : (L a).body = .system)
    (hafter : (L.set a account).supply a = 0 ∧ (L.set a account).balance a = 0) :
    SameTokens L (L.set a account) :=
  sameTokens_of_ne (no_tokens_of_system hsystem) hafter
    fun _ hb => set_of_ne L account hb

section

variable {T : Type} [AnchorAccount T]

theorem exit_sameTokens {L L' : Ledger} {a : Address} {t : T}
    (h : L.exit a t = .ok L') : SameTokens L L' := by
  have hother : ∀ b, b ≠ a → L' b = L b := fun b hb => exit_of_ne h hb
  obtain ⟨data, hdata, -, rfl⟩ := exit_eq_ok.mp h
  exact sameTokens_of_ne (no_tokens_of_bridge hdata)
    (no_tokens_of_bridge (setBody_self _ _ _)) hother

theorem init_sameTokens {L L' : Ledger} {a : Address} {space : Nat} {t : T}
    (hspace : AnchorAccount.len T ≤ space)
    (h : L.init T a space = .ok (L', t)) : SameTokens L L' := by
  rcases (init_eq_ok hspace).mp h with ⟨hbody, -, rfl⟩
  exact sameTokens_set hbody (no_tokens_of_bridge (by rw [set_self]))

theorem initIfNeeded_sameTokens {L L' : Ledger} {a : Address} {t : T}
    (h : L.initIfNeeded T a (AnchorAccount.len T) = .ok (L', t)) :
    SameTokens L L' := by
  rcases initIfNeeded_cases h with ⟨-, rfl⟩ | ⟨hbody, -, rfl⟩
  · exact ⟨fun _ => rfl, fun _ => rfl⟩
  · exact sameTokens_set hbody (no_tokens_of_bridge (by rw [set_self]))

end

def initMint (L : Ledger) (mint authority : Address) : Result Ledger :=
  match (L mint).body with
  | .system =>
      .ok (L.set mint ⟨max (L mint).lamports (minimumBalance 82),
        .mint ⟨authority, 0⟩⟩)
  | _ => .error .invocation

def initTokenAccount (L : Ledger) (a mint owner : Address) : Result Ledger :=
  match (L mint).body, (L a).body with
  | .mint _, .system =>
      .ok (L.set a ⟨max (L a).lamports (minimumBalance 165),
        .token ⟨mint, owner, 0⟩⟩)
  | _, _ => .error .invocation

def mintTo (L : Ledger) (mint target authority : Address) (amount : U64) :
    Result Ledger :=
  match (L mint).body, (L target).body with
  | .mint m, .token account => do
      require (account.mint = mint ∧ m.mintAuthority = authority) .invocation
      let supply ← orFail .invocation (checkedAdd m.supply amount)
      let balance ← orFail .invocation (checkedAdd account.amount amount)
      return (L.setBody mint (.mint { m with supply })).setBody target
        (.token { account with amount := balance })
  | _, _ => .error .invocation

def transfer (L : Ledger) (source destination authority : Address)
    (amount : U64) : Result Ledger :=
  match (L source).body, (L destination).body with
  | .token sender, .token receiver => do
      require (sender.mint = receiver.mint ∧ sender.owner = authority) .invocation
      let debited ← orFail .invocation (checkedSub sender.amount amount)
      if source = destination then return L
      else
        let credited ← orFail .invocation (checkedAdd receiver.amount amount)
        return (L.setBody source (.token { sender with amount := debited })).setBody
          destination (.token { receiver with amount := credited })
  | _, _ => .error .invocation

def burn (L : Ledger) (mint source authority : Address) (amount : U64) :
    Result Ledger :=
  match (L mint).body, (L source).body with
  | .mint m, .token account => do
      require (account.mint = mint ∧ account.owner = authority) .invocation
      let balance ← orFail .invocation (checkedSub account.amount amount)
      let supply ← orFail .invocation (checkedSub m.supply amount)
      return (L.setBody mint (.mint { m with supply })).setBody source
        (.token { account with amount := balance })
  | _, _ => .error .invocation

/-! ## Specifications -/

theorem initMint_eq_ok {L L' : Ledger} {mint authority : Address} :
    L.initMint mint authority = .ok L' ↔ (L mint).body = .system ∧
      L' = L.set mint ⟨max (L mint).lamports (minimumBalance 82),
        .mint ⟨authority, 0⟩⟩ := by
  unfold initMint
  cases (L mint).body <;> simp [eq_comm]

theorem initTokenAccount_eq_ok {L L' : Ledger} {a mint owner : Address} :
    L.initTokenAccount a mint owner = .ok L' ↔
      (∃ m, (L mint).body = .mint m) ∧ (L a).body = .system ∧
      L' = L.set a ⟨max (L a).lamports (minimumBalance 165),
        .token ⟨mint, owner, 0⟩⟩ := by
  unfold initTokenAccount
  cases (L mint).body <;> cases (L a).body <;> simp [eq_comm]

private theorem setBody_mint_token {L : Ledger} {mint a : Address} {m : Mint}
    {account : TokenAccount} (m' : Mint) (account' : TokenAccount)
    (hmint : (L mint).body = .mint m) (ha : (L a).body = .token account) :
    let L' := (L.setBody mint (.mint m')).setBody a (.token account')
    L'.supply mint = m'.supply.toNat ∧ L'.balance a = account'.amount.toNat ∧
      (∀ b, b ≠ mint → L'.supply b = L.supply b) ∧
      (∀ b, b ≠ a → L'.balance b = L.balance b) ∧
      (∀ b, b ≠ mint → b ≠ a → L' b = L b) := by
  have hne : mint ≠ a := by
    rintro rfl
    rw [hmint] at ha
    contradiction
  have hother : ∀ b, b ≠ mint → b ≠ a →
      ((L.setBody mint (.mint m')).setBody a (.token account')) b = L b := by
    intro b hb hb'
    rw [setBody_of_ne _ _ hb', setBody_of_ne _ _ hb]
  refine ⟨?_, ?_, ?_, ?_, hother⟩
  · simp [Ledger.supply, setBody_of_ne _ _ hne]
  · simp [Ledger.balance]
  · intro b hb
    by_cases hb' : b = a
    · simp [Ledger.supply, hb', ha]
    · exact supply_congr (by rw [hother b hb hb'])
  · intro b hb
    by_cases hb' : b = mint
    · simp [Ledger.balance, hb', setBody_of_ne _ _ hne, hmint]
    · exact balance_congr (by rw [hother b hb' hb])

theorem mintTo_spec {L L' : Ledger} {mint target authority : Address}
    {amount : U64} (h : L.mintTo mint target authority amount = .ok L') :
    L'.supply mint = L.supply mint + amount.toNat ∧
      L'.balance target = L.balance target + amount.toNat ∧
      (∀ b, b ≠ mint → L'.supply b = L.supply b) ∧
      (∀ b, b ≠ target → L'.balance b = L.balance b) ∧
      (∀ b, b ≠ mint → b ≠ target → L' b = L b) := by
  unfold mintTo at h
  cases hmint : (L mint).body with
  | mint m =>
      cases htarget : (L target).body with
      | token account =>
          simp only [hmint, htarget, bind_eq_ok, require_eq_ok, orFail_eq_ok,
            pure_eq_ok, checkedAdd_eq_some, exists_and_left, exists_const] at h
          obtain ⟨-, supply, hsupply, balance, hbalance, rfl⟩ := h
          have hwrite := setBody_mint_token { m with supply }
            { account with amount := balance } hmint htarget
          simp only [hsupply, hbalance] at hwrite
          simpa only [Ledger.supply, Ledger.balance, hmint, htarget] using hwrite
      | _ => simp [hmint, htarget] at h
  | _ => simp [hmint] at h

theorem burn_spec {L L' : Ledger} {mint source authority : Address}
    {amount : U64} (h : L.burn mint source authority amount = .ok L') :
    L.supply mint = L'.supply mint + amount.toNat ∧
      L.balance source = L'.balance source + amount.toNat ∧
      (∀ b, b ≠ mint → L'.supply b = L.supply b) ∧
      (∀ b, b ≠ source → L'.balance b = L.balance b) ∧
      (∀ b, b ≠ mint → b ≠ source → L' b = L b) := by
  unfold burn at h
  cases hmint : (L mint).body with
  | mint m =>
      cases hsource : (L source).body with
      | token account =>
          simp only [hmint, hsource, bind_eq_ok, require_eq_ok, orFail_eq_ok,
            pure_eq_ok, checkedSub_eq_some, exists_and_left, exists_const] at h
          obtain ⟨-, balance, hbalance, supply, hsupply, rfl⟩ := h
          obtain ⟨hpost, hpost', hrest⟩ := setBody_mint_token { m with supply }
            { account with amount := balance } hmint hsource
          refine ⟨?_, ?_, hrest⟩
          · rw [hpost]
            simpa only [Ledger.supply, hmint] using hsupply
          · rw [hpost']
            simpa only [Ledger.balance, hsource] using hbalance
      | _ => simp [hmint, hsource] at h
  | _ => simp [hmint] at h

theorem transfer_spec {L L' : Ledger} {source destination authority : Address}
    {amount : U64}
    (h : L.transfer source destination authority amount = .ok L') :
    amount.toNat ≤ L.balance source ∧
      (source ≠ destination →
        L.balance source = L'.balance source + amount.toNat ∧
        L'.balance destination = L.balance destination + amount.toNat) ∧
      (source = destination → L' = L) ∧
      (∀ b, L'.supply b = L.supply b) ∧
      (∀ b, b ≠ source → b ≠ destination → L' b = L b) := by
  unfold transfer at h
  cases hsource : (L source).body with
  | token sender =>
      cases hdest : (L destination).body with
      | token receiver =>
          simp only [hsource, hdest, bind_eq_ok, require_eq_ok, orFail_eq_ok,
            checkedSub_eq_some, exists_and_left, exists_const] at h
          obtain ⟨-, debited, hdebited, h⟩ := h
          have hle : amount.toNat ≤ L.balance source := by
            simp only [Ledger.balance, hsource]
            omega
          by_cases hsame : source = destination
          · rw [if_pos hsame, pure_eq_ok] at h
            subst h
            exact ⟨hle, fun hne => absurd hsame hne, fun _ => rfl,
              fun _ => rfl, fun _ _ _ => rfl⟩
          · simp only [if_neg hsame, bind_eq_ok, orFail_eq_ok, pure_eq_ok,
              checkedAdd_eq_some] at h
            obtain ⟨credited, hcredited, rfl⟩ := h
            have hother : ∀ b, b ≠ source → b ≠ destination →
                ((L.setBody source (.token { sender with amount := debited })).setBody
                  destination (.token { receiver with amount := credited })) b =
                    L b := by
              intro b hb hb'
              rw [setBody_of_ne _ _ hb', setBody_of_ne _ _ hb]
            refine ⟨hle, fun _ => ⟨?_, ?_⟩, fun heq => absurd heq hsame, ?_,
              hother⟩
            · simp [Ledger.balance, setBody_of_ne _ _ hsame, hsource, hdebited]
            · simp [Ledger.balance, hdest, hcredited]
            · intro b
              by_cases hb : b = destination
              · simp [Ledger.supply, hb, hdest]
              · by_cases hb' : b = source
                · simp [Ledger.supply, hb', setBody_of_ne _ _ hsame, hsource]
                · exact supply_congr (by rw [hother b hb' hb])
      | _ => simp [hsource, hdest] at h
  | _ => simp [hsource] at h

theorem initTokenAccount_spec {L L' : Ledger} {a mint owner : Address}
    (h : L.initTokenAccount a mint owner = .ok L') :
    (L a).body = .system ∧ SameTokens L L' ∧ ∀ b, b ≠ a → L' b = L b := by
  rcases initTokenAccount_eq_ok.mp h with ⟨-, hsystem, rfl⟩
  refine ⟨hsystem, sameTokens_set hsystem ?_, fun b hb => set_of_ne L _ hb⟩
  simp [supply, balance]

theorem mintTo_bodies {L L' : Ledger} {mint target authority : Address}
    {amount : U64} (h : L.mintTo mint target authority amount = .ok L') :
    (∃ m, (L mint).body = .mint m) ∧ (∃ m, (L' mint).body = .mint m) ∧
      (∃ account, (L target).body = .token account) := by
  unfold mintTo at h
  cases hmint : (L mint).body with
  | mint m =>
      cases htarget : (L target).body with
      | token account =>
          simp only [hmint, htarget, bind_eq_ok, require_eq_ok, orFail_eq_ok,
            pure_eq_ok, exists_and_left, exists_const] at h
          obtain ⟨-, supply, -, balance, -, rfl⟩ := h
          have hne : mint ≠ target := by
            rintro rfl
            rw [hmint] at htarget
            contradiction
          refine ⟨⟨m, rfl⟩, ⟨{ m with supply }, ?_⟩, account, rfl⟩
          rw [setBody_of_ne _ _ hne, setBody_self]
      | _ => simp [hmint, htarget] at h
  | _ => simp [hmint] at h

theorem burn_bodies {L L' : Ledger} {mint source authority : Address}
    {amount : U64} (h : L.burn mint source authority amount = .ok L') :
    (∃ m, (L mint).body = .mint m) ∧ (∃ m, (L' mint).body = .mint m) ∧
      (∃ account, (L source).body = .token account) := by
  unfold burn at h
  cases hmint : (L mint).body with
  | mint m =>
      cases hsource : (L source).body with
      | token account =>
          simp only [hmint, hsource, bind_eq_ok, require_eq_ok, orFail_eq_ok,
            pure_eq_ok, exists_and_left, exists_const] at h
          obtain ⟨-, balance, -, supply, -, rfl⟩ := h
          have hne : mint ≠ source := by
            rintro rfl
            rw [hmint] at hsource
            contradiction
          refine ⟨⟨m, rfl⟩, ⟨{ m with supply }, ?_⟩, account, rfl⟩
          rw [setBody_of_ne _ _ hne, setBody_self]
      | _ => simp [hmint, hsource] at h
  | _ => simp [hmint] at h

theorem transfer_bodies {L L' : Ledger} {source destination authority : Address}
    {amount : U64}
    (h : L.transfer source destination authority amount = .ok L') :
    (∃ account, (L source).body = .token account) ∧
      ∃ account, (L destination).body = .token account := by
  unfold transfer at h
  cases hsource : (L source).body with
  | token sender =>
      cases hdest : (L destination).body with
      | token receiver => exact ⟨⟨sender, rfl⟩, receiver, rfl⟩
      | _ => simp [hsource, hdest] at h
  | _ => simp [hsource] at h

end Ledger

end SolBtcBridge.Runtime
