import SolBtcBridge.Effects.Tokens

/-!
# Where accounts live and what they keep

Records live at program-derived addresses, mints at those of the bridges and
token accounts at associated addresses or wallet keys.  No step closes an
account, turns it into another kind, resizes a record or changes the mint or
the owner of a token account.
-/

namespace SolBtcBridge.Effects

open SolBtcBridge.Foundation
open SolBtcBridge.Runtime
open SolBtcBridge.Program

/-- Which account may be opened at an address. -/
def MayOpen (a : Address) : Address ⊕ Address × Address → Prop
  | .inl authority => (∃ b, a = (Pda.sbtcMint b).address) ∧ authority = a
  | .inr (mint, owner) => ∃ key, owner = .wallet key ∧
      (a = getAssociatedTokenAddress key mint ∨ a.isWallet = true)

private theorem openIfEmpty_mayOpen {L : Ledger} {owner : Pubkey}
    {mint : Address} :
    ∀ move ∈ openIfEmpty L (.wallet owner) mint
      (getAssociatedTokenAddress owner mint), ∀ x ∈ Bank.opens move,
        MayOpen x.1 x.2 := by
  unfold openIfEmpty
  split
  · simp only [List.mem_singleton, forall_eq, Bank.opens, Option.mem_some_iff,
      forall_eq']
    exact ⟨owner, rfl, .inl rfl⟩
  · exact fun _ h => absurd h List.not_mem_nil

private theorem step_mayOpen {host : Host} {e : BridgeRecord}
    (hstep : IsStep (step host) e) :
    ∀ move ∈ tokenMoves e.pre e.input, ∀ x ∈ Bank.opens move,
      MayOpen x.1 x.2 := by
  obtain ⟨L, input, events, L'⟩ := e
  simp only [IsStep] at hstep ⊢
  cases input with
  | createBridgeConfig ctx payer chainId =>
      simp only [tokenMoves, List.mem_singleton, forall_eq, Bank.opens,
        Option.mem_some_iff, forall_eq']
      exact ⟨⟨chainId, rfl⟩, rfl⟩
  | mintSbtcWithSignatures ctx submitter signatures msg =>
      simp only [tokenMoves, List.forall_mem_append, List.mem_singleton,
        forall_eq]
      exact ⟨openIfEmpty_mayOpen, fun _ h => absurd h (Option.not_mem_none _)⟩
  | withdrawBtc ctx user msg =>
      simp only [tokenMoves]
      split
      · simp only [List.forall_mem_append, List.forall_mem_cons]
        exact ⟨openIfEmpty_mayOpen, fun _ h => absurd h (Option.not_mem_none _),
          fun _ h => absurd h (Option.not_mem_none _),
          fun _ h => absurd h List.not_mem_nil⟩
      · exact fun _ h => absurd h List.not_mem_nil
  | openTokenAccount target owner mint =>
      simp only [step, bind_eq_ok, require_eq_ok, exists_and_left,
        exists_const] at hstep
      simp only [tokenMoves, List.mem_singleton, forall_eq, Bank.opens,
        Option.mem_some_iff, forall_eq']
      exact ⟨owner, rfl, hstep.1⟩
  | sendTokens source destination authority amount =>
      simp only [tokenMoves, List.mem_singleton, forall_eq]
      exact fun _ h => absurd h (Option.not_mem_none _)
  | _ => exact fun _ h => absurd h List.not_mem_nil

structure Orderly (L : Ledger) : Prop where
  records : ∀ a data, (L a).body = .bridge data → ∃ p : Pda, a = p.address
  opened : ∀ a account, L.bank a = some account →
    MayOpen a (Bank.identity account)
  sound : L.bank.Sound

theorem orderly_empty : Orderly Ledger.empty where
  records := fun _ _ h => by cases h
  opened := fun _ _ h => by cases h
  sound := Bank.sound_empty

theorem orderly_step {host : Host} {e : BridgeRecord} (h : Orderly e.pre)
    (hstep : IsStep (step host) e) : Orderly e.post where
  records := by
    intro a data hdata
    rcases (step_moves hstep).placed a data hdata with hpda | ⟨before, hbefore⟩
    · exact hpda
    · exact h.records a before hbefore
  opened := Bank.path_opened (step_moves hstep).path (step_mayOpen hstep) h.opened
  sound := Bank.path_sound (step_moves hstep).path h.sound

theorem execute_orderly (host : Host) (inputs : List Input) :
    Orderly (execute host inputs).state :=
  run_invariant orderly_empty (fun _ h hstep => orderly_step h hstep) inputs

section

variable {L : Ledger} {a : Address}

theorem Orderly.mint (h : Orderly L) {m : Mint} (hbody : (L a).body = .mint m) :
    (∃ b, a = (Pda.sbtcMint b).address) ∧ m.mintAuthority = a :=
  h.opened a (.mint m.mintAuthority m.supply.toNat) (by rw [Ledger.bank, hbody]; rfl)

theorem Orderly.token (h : Orderly L) {account : TokenAccount}
    (hbody : (L a).body = .token account) :
    (∃ key, account.owner = .wallet key ∧
      (a = getAssociatedTokenAddress key account.mint ∨ a.isWallet = true)) ∧
    (∃ b, account.mint = (Pda.sbtcMint b).address) ∧
    ∃ m, (L account.mint).body = .mint m := by
  have hbank : L.bank a = some (.holding account.mint account.owner
      account.amount.toNat) := by
    rw [Ledger.bank, hbody]
    rfl
  refine ⟨h.opened a _ hbank, ?_⟩
  rcases h.sound.issued hbank with ⟨authority, supply, hmint⟩
  cases hmintBody : (L account.mint).body with
  | mint m => exact ⟨(h.mint hmintBody).1, m, rfl⟩
  | _ =>
      rw [Ledger.bank, hmintBody] at hmint
      cases hmint

theorem Orderly.ata (h : Orderly L) (owner : Pubkey) (mint : Address) :
    L.Vacant (getAssociatedTokenAddress owner mint) ∨
      ∃ amount, (L (getAssociatedTokenAddress owner mint)).body =
        .token ⟨mint, .wallet owner, amount⟩ := by
  cases hbody : (L (getAssociatedTokenAddress owner mint)).body with
  | system => exact .inl hbody
  | bridge data =>
      rcases h.records _ data hbody with ⟨p, hp⟩
      exact absurd hp getAssociatedTokenAddress_ne_pda
  | mint m =>
      rcases (h.mint hbody).1 with ⟨b, hb⟩
      exact absurd hb getAssociatedTokenAddress_ne_pda
  | token account =>
      rcases (h.token hbody).1 with ⟨key, howner, hata | hwallet⟩
      · right
        simp only [getAssociatedTokenAddress, Address.ata.injEq,
          Address.wallet.injEq] at hata
        refine ⟨account.amount, ?_⟩
        rw [hata.1, hata.2, ← howner]
      · simp [getAssociatedTokenAddress, Address.isWallet] at hwallet

end

/-- The account stays open, of the same kind and with the same identity. -/
def Persists : AccountBody → AccountBody → Prop
  | .system, _ => True
  | .bridge data, .bridge data' => data'.length = data.length
  | .mint m, .mint m' => m'.mintAuthority = m.mintAuthority
  | .token account, .token account' =>
      account'.mint = account.mint ∧ account'.owner = account.owner
  | _, _ => False

theorem Moves.persists {L L' : Ledger} {moves : List (Move Address)}
    (h : Moves L moves L') (a : Address) :
    Persists (L a).body (L' a).body := by
  have hextends := Bank.path_extends h.path a
  simp only [Ledger.bank] at hextends
  cases hbody : (L a).body with
  | system => trivial
  | bridge data =>
      rcases h.kept a data hbody with ⟨after, hafter, hlength⟩
      rw [hafter]
      exact hlength
  | mint m =>
      rcases hextends _ (by rw [hbody]; rfl) with ⟨account, haccount, hsame⟩
      cases hbody' : (L' a).body with
      | mint m' =>
          rw [hbody'] at haccount
          cases haccount
          exact Sum.inl.inj hsame
      | token account' =>
          rw [hbody'] at haccount
          cases haccount
          cases hsame
      | _ =>
          rw [hbody'] at haccount
          cases haccount
  | token account =>
      rcases hextends _ (by rw [hbody]; rfl) with ⟨account', haccount, hsame⟩
      cases hbody' : (L' a).body with
      | token holding =>
          rw [hbody'] at haccount
          cases haccount
          exact Prod.mk.inj (Sum.inr.inj hsame)
      | mint m' =>
          rw [hbody'] at haccount
          cases haccount
          cases hsame
      | _ =>
          rw [hbody'] at haccount
          cases haccount

end SolBtcBridge.Effects
