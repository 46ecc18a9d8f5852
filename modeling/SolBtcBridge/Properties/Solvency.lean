import SolBtcBridge.Effects.Custody
import SolBtcBridge.Properties.Backing

/-!
# Solvency and custody

The holders of a bridge's sBTC together own exactly what was minted there and
not unlocked since.  Tokens leave an account only when its owner sends or
withdraws them, and accounts stay what they were opened as.
-/

namespace SolBtcBridge.Properties

open SolBtcBridge.Foundation
open SolBtcBridge.Runtime
open SolBtcBridge.Program
open SolBtcBridge.Effects

def holding (L : Ledger) (mint a : Address) : Nat :=
  match (L a).body with
  | .token account => if account.mint = mint then account.amount.toNat else 0
  | _ => 0

private theorem bank_share (L : Ledger) (mint a : Address) :
    Bank.share mint (L.bank a) = holding L mint a := by
  rw [Ledger.bank, holding]
  cases (L a).body <;> rfl

private theorem bank_held (L : Ledger) (mint : Address) :
    L.bank.held mint = ∑ᶠ a, holding L mint a :=
  finsum_congr (bank_share L mint)

private theorem finite_tokens {L : Ledger} (h : Orderly L) :
    {a | ∃ account, (L a).body = .token account}.Finite := by
  apply h.sound.finite.subset
  rintro a ⟨account, hbody⟩ hnone
  rw [Ledger.bank, hbody] at hnone
  cases hnone

private theorem supply_balance (host : Host) (inputs : List Input) (b : U8) :
    (execute host inputs).state.supply (Pda.sbtcMint b).address +
        ((execute host inputs).log.map (unlockedOn b)).sum =
      ((execute host inputs).log.map (mintedOn b)).sum := by
  have hbalance : (execute host inputs).state.supply (Pda.sbtcMint b).address +
      ((execute host inputs).log.map (unlockedOn b)).sum =
      Ledger.empty.supply (Pda.sbtcMint b).address +
        ((execute host inputs).log.map (mintedOn b)).sum :=
    run_balance (f := fun L => L.supply (Pda.sbtcMint b).address) (mintedOn b)
      (unlockedOn b) wellFormed_empty (fun _ hwf hstep =>
        ⟨wellFormed_step hwf hstep, supply_step b hwf hstep⟩) inputs
  rwa [show Ledger.empty.supply (Pda.sbtcMint b).address = 0 from rfl,
    Nat.zero_add] at hbalance

/-- All holders together own what was minted and not yet unlocked. -/
theorem holders_solvent (host : Host) (inputs : List Input) :
    {a | ∃ account, ((execute host inputs).state a).body =
        .token account}.Finite ∧
      (∀ mint, ∑ᶠ a, holding (execute host inputs).state mint a =
        (execute host inputs).state.supply mint) ∧
      ∀ b, ∑ᶠ a, holding (execute host inputs).state (Pda.sbtcMint b).address a +
          ((execute host inputs).log.map (unlockedOn b)).sum =
        ((execute host inputs).log.map (mintedOn b)).sum := by
  have horderly := execute_orderly host inputs
  have hsum : ∀ mint, ∑ᶠ a, holding (execute host inputs).state mint a =
      (execute host inputs).state.supply mint := by
    intro mint
    rw [← bank_held, horderly.sound.backed, Ledger.bank_supply]
  refine ⟨finite_tokens horderly, hsum, fun b => ?_⟩
  rw [hsum]
  exact supply_balance host inputs b

/-! ## Statements of account -/

/-- The tokens an input takes out of an account. -/
def spent : Input → Address → Nat
  | .sendTokens source _ _ amount, a => if source = a then amount.toNat else 0
  | .withdrawBtc _ _ msg, a => if userSbtcAta msg = a then msg.amount.toNat else 0
  | _, _ => 0

def spender : Input → Option Address
  | .sendTokens _ _ authority _ => some authority
  | .withdrawBtc _ user _ => some (.wallet user)
  | _ => none

/-- The tokens a step puts into an account: minted, sent, or paid as a fee. -/
def received (e : BridgeRecord) (a : Address) : Nat :=
  ((tokenMoves e.pre e.input).map (Bank.credit · a)).sum

private theorem sum_debit_openIfEmpty (L : Ledger) (owner mint b a : Address) :
    ((openIfEmpty L owner mint b).map (Bank.debit · a)).sum = 0 := by
  unfold openIfEmpty
  split <;> rfl

private theorem sum_debit {host : Host} {e : BridgeRecord}
    (hwf : WellFormed e.pre) (hstep : IsStep (step host) e) (a : Address) :
    ((tokenMoves e.pre e.input).map (Bank.debit · a)).sum = spent e.input a := by
  obtain ⟨L, input, events, L'⟩ := e
  simp only [IsStep] at hwf hstep ⊢
  cases input with
  | mintSbtcWithSignatures ctx submitter signatures msg =>
      simp only [tokenMoves, List.map_append, List.sum_append,
        sum_debit_openIfEmpty]
      rfl
  | withdrawBtc ctx user msg =>
      rcases withdrawEffect_of_ok hwf hstep with ⟨effect⟩
      have hsplit := effect.split
      simp only [tokenMoves, effect.bridgeStored.fetch, effect.tokenStored.fetch]
      rw [List.map_append, List.sum_append, sum_debit_openIfEmpty]
      simp only [List.map_cons, List.map_nil, List.sum_cons, List.sum_nil,
        Bank.debit, spent]
      split_ifs <;> omega
  | sendTokens source destination authority amount =>
      simp [tokenMoves, Bank.debit, spent]
  | _ => rfl

private theorem balance_step {host : Host} {e : BridgeRecord}
    (hwf : WellFormed e.pre) (hstep : IsStep (step host) e) (a : Address) :
    e.post.balance a + spent e.input a = e.pre.balance a + received e a := by
  have hstatement := Bank.path_statement (step_moves hstep).path a
  rwa [sum_debit hwf hstep, Ledger.bank_amount, Ledger.bank_amount]
    at hstatement

private theorem signed_of_spent {host : Host} {e : BridgeRecord}
    (hwf : WellFormed e.pre)
    (horderly : Orderly e.pre) (hstep : IsStep (step host) e) {a : Address}
    (hspent : spent e.input a ≠ 0) :
    ∃ account, (e.pre a).body = .token account ∧
      spender e.input = some account.owner := by
  obtain ⟨L, input, events, L'⟩ := e
  simp only [IsStep] at hwf horderly hstep hspent ⊢
  cases input with
  | withdrawBtc ctx user msg =>
      obtain ⟨rfl, hamount⟩ := ite_ne_right_iff.mp hspent
      rcases withdrawEffect_of_ok hwf hstep with ⟨effect⟩
      have huser := effect.userBalance
      rcases horderly.ata msg.fromAddress (Pda.sbtcMint msg.chainId).address with
        hvacant | ⟨amount, hbody⟩
      · have hempty := (Ledger.no_tokens_of_system hvacant).2
        simp only [userSbtcAta] at huser
        omega
      · exact ⟨_, hbody, by rw [spender, effect.fromUser]⟩
  | sendTokens source destination authority amount =>
      obtain ⟨rfl, hamount⟩ := ite_ne_right_iff.mp hspent
      simp only [step, bind_eq_ok, pure_eq_ok, Prod.mk.injEq] at hstep
      obtain ⟨L₁, htransfer, -, -⟩ := hstep
      rcases Ledger.transfer_bodies htransfer with ⟨⟨account, hbody⟩, -⟩
      have hdebit : Bank.debit (.transfer source destination authority
          amount.toNat) source ≠ 0 := by
        rwa [Bank.debit, if_pos rfl]
      rcases (Ledger.transfer_bank htransfer).signed hdebit with
        ⟨mint, owner, held, hheld, hsigner⟩
      rw [Ledger.bank, hbody] at hheld
      cases hheld
      exact ⟨account, hbody, hsigner⟩
  | _ => exact absurd rfl hspent

private theorem orderly_pre {host : Host} {inputs : List Input}
    {e : BridgeRecord} (h : e ∈ (execute host inputs).log) : Orderly e.pre :=
  run_invariant_pre orderly_empty (fun _ h hstep => orderly_step h hstep) h

/-- Every balance is what came in less what its owner spent. -/
theorem statement_of_account (host : Host) (inputs : List Input) (a : Address) :
    (execute host inputs).state.balance a +
        ((execute host inputs).log.map fun e => spent e.input a).sum =
      ((execute host inputs).log.map fun e => received e a).sum ∧
    ∀ e ∈ (execute host inputs).log, spent e.input a ≠ 0 →
      ∃ account, (e.pre a).body = .token account ∧
        spender e.input = some account.owner := by
  constructor
  · have hbalance : (execute host inputs).state.balance a +
        ((execute host inputs).log.map fun e => spent e.input a).sum =
        Ledger.empty.balance a +
          ((execute host inputs).log.map fun e => received e a).sum :=
      run_balance (f := fun L => L.balance a) (received · a)
        (fun e => spent e.input a) wellFormed_empty (fun _ hwf hstep =>
          ⟨wellFormed_step hwf hstep, balance_step hwf hstep a⟩) inputs
    rwa [show Ledger.empty.balance a = 0 from rfl, Nat.zero_add] at hbalance
  · intro e he
    exact signed_of_spent (wellFormed_pre he) (orderly_pre he) (isStep_of_mem he)

/-- What may live at an address, and under whose authority. -/
def Belongs (L : Ledger) (a : Address) : AccountBody → Prop
  | .system => True
  | .bridge _ => ∃ p : Pda, a = p.address
  | .mint m => (∃ b, a = (Pda.sbtcMint b).address) ∧ m.mintAuthority = a
  | .token account =>
      (∃ key, account.owner = .wallet key ∧
        (a = getAssociatedTokenAddress key account.mint ∨ a.isWallet = true)) ∧
      (∃ b, account.mint = (Pda.sbtcMint b).address) ∧
      ∃ m, (L account.mint).body = .mint m

end SolBtcBridge.Properties
