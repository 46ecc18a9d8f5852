import SolBtcBridge.Properties.MintTotals
import Mathlib.Algebra.BigOperators.Fin

/-!
# Chain totals and token totals

The total of a chain and the totals of its tokens live in separate accounts.
Only a mint changes them, and it adds its amount to the chain's total and to
the total of one of the chain's tokens.
-/

namespace SolBtcBridge.Properties

open SolBtcBridge.Foundation
open SolBtcBridge.Runtime
open SolBtcBridge.Program
open SolBtcBridge.Effects

def tokenTotals (c : U8) (L : Ledger) : Nat :=
  ∑ t : Fin (2 ^ 8), tokenTotal c (BitVec.ofFin t) L

theorem chainTotal_of_vacant {c : U8} {L : Ledger}
    (h : L.Vacant (Pda.supportedChain c).address) : chainTotal c L = 0 := by
  rw [chainTotal, h.fetch]
  rfl

theorem chainTotal_congr {c : U8} {L L' : Ledger}
    (h : (L' (Pda.supportedChain c).address).body =
      (L (Pda.supportedChain c).address).body) :
    chainTotal c L' = chainTotal c L := by
  rw [chainTotal, chainTotal, Ledger.fetch_congr h]

/-- The record still exists, with the same mint total. -/
def KeepsChainTotal (c : U8) (L L' : Ledger) : Prop :=
  ∀ record, L.fetch SupportedChainConfig (Pda.supportedChain c).address =
      some record →
    ∃ record', L'.fetch SupportedChainConfig (Pda.supportedChain c).address =
      some record' ∧ record'.mintTotal = record.mintTotal

def KeepsTokenTotal (c t : U8) (L L' : Ledger) : Prop :=
  ∀ record, L.fetch TokenConfig (Pda.tokenConfig c t).address = some record →
    ∃ record', L'.fetch TokenConfig (Pda.tokenConfig c t).address =
      some record' ∧ record'.mintTotal = record.mintTotal

private theorem keepsChainTotal_step {host : Host} {e : BridgeRecord} (c : U8)
    (hwf : WellFormed e.pre) (hstep : IsStep (step host) e)
    (hno : mintMessage e.input = none) : KeepsChainTotal c e.pre e.post := by
  rcases e with ⟨L, input, events, L'⟩
  intro record hrecord
  rcases step_evolves hwf hstep (.supportedChain c) with heq | hchange
  · exact ⟨record, by rw [Ledger.fetch_congr heq, hrecord], rfl⟩
  · have hstored := (Ledger.Keeps.fetch_eq_some (hwf (.supportedChain c))).mp hrecord
    cases hchange with
    | chainListed _ hvacant _ => exact absurd hvacant hstored.not_vacant
    | chainSet hprovides hstores =>
        rcases hprovides with hold | ⟨hvacant, -⟩
        · obtain rfl := hold.unique hstored
          have hinit := (Ledger.Keeps.of_stores (hwf (.supportedChain c)) hold).1
          refine ⟨_, hstores.fetch, ?_⟩
          simp [SupportedChainConfig.addOrUpdate, hinit]
        · exact absurd hvacant hstored.not_vacant
    | chainMinted => simp [mintMessage] at hno

private theorem keepsTokenTotal_step {host : Host} {e : BridgeRecord} (c t : U8)
    (hwf : WellFormed e.pre) (hstep : IsStep (step host) e)
    (hno : mintMessage e.input = none) : KeepsTokenTotal c t e.pre e.post := by
  rcases e with ⟨L, input, events, L'⟩
  intro record hrecord
  rcases step_evolves hwf hstep (.tokenConfig c t) with heq | hchange
  · exact ⟨record, by rw [Ledger.fetch_congr heq, hrecord], rfl⟩
  · have hstored := (Ledger.Keeps.fetch_eq_some (hwf (.tokenConfig c t))).mp hrecord
    cases hchange with
    | tokenListed _ _ hvacant _ => exact absurd hvacant hstored.not_vacant
    | tokenSet _ hprovides hstores =>
        rcases hprovides with hold | ⟨hvacant, -⟩
        · obtain rfl := hold.unique hstored
          have hinit := (Ledger.Keeps.of_stores (hwf (.tokenConfig c t)) hold).1
          refine ⟨_, hstores.fetch, ?_⟩
          simp [TokenConfig.addOrUpdate, hinit]
        · exact absurd hvacant hstored.not_vacant
    | tokenMinted => simp [mintMessage] at hno

theorem chainTotal_kept {host : Host} {e : BridgeRecord} (c : U8)
    (hwf : WellFormed e.pre) (hstep : IsStep (step host) e)
    (hno : mintMessage e.input = none) :
    chainTotal c e.post = chainTotal c e.pre := by
  have hkeeps := keepsChainTotal_step c hwf hstep hno
  rcases hwf (.supportedChain c) with hvacant | ⟨record, hstored, -⟩
  · rcases e with ⟨L, input, events, L'⟩
    have hpre := chainTotal_of_vacant hvacant
    rcases step_evolves hwf hstep (.supportedChain c) with heq | hchange
    · exact chainTotal_congr heq
    · cases hchange with
      | chainListed _ _ hstores =>
          rw [hpre, chainTotal_of_stores hstores]
          rfl
      | chainSet hprovides hstores =>
          rcases hprovides with hold | ⟨-, rfl⟩
          · exact absurd hvacant hold.not_vacant
          · rw [hpre, chainTotal_of_stores hstores]
            rfl
      | chainMinted => simp [mintMessage] at hno
  · rcases hkeeps record hstored.fetch with ⟨record', hrecord', htotal⟩
    rw [chainTotal_of_stores hstored, chainTotal, hrecord', Option.map_some,
      Option.getD_some, htotal]

theorem sum_mintedAmount (c : U8) (e : BridgeRecord) :
    ∑ t : Fin (2 ^ 8), mintedAmount c (BitVec.ofFin t) e =
      ((mintMessage e.input).map fun msg =>
        if msg.sourceChainId = c then msg.amount.toNat else 0).getD 0 := by
  unfold mintedAmount
  cases mintMessage e.input with
  | none => simp only [Finset.sum_const_zero, Option.map_none, Option.getD_none]
  | some msg =>
      simp only [Option.map_some, Option.getD_some]
      by_cases hc : msg.sourceChainId = c
      · have htoken : ∀ t : Fin (2 ^ 8), msg.sourceTokenId = BitVec.ofFin t ↔
            msg.sourceTokenId.toFin = t := by
          intro t
          constructor
          · intro h
            rw [h]
          · rintro rfl
            rfl
        simp only [hc, true_and, if_true, htoken]
        rw [Finset.sum_ite_eq, if_pos (Finset.mem_univ _)]
      · simp only [hc, false_and, if_false, Finset.sum_const_zero]

theorem chainTotal_step {host : Host} {e : BridgeRecord} (c : U8)
    (hwf : WellFormed e.pre) (hstep : IsStep (step host) e) :
    chainTotal c e.post = chainTotal c e.pre +
      ∑ t : Fin (2 ^ 8), mintedAmount c (BitVec.ofFin t) e := by
  rw [sum_mintedAmount]
  cases stepEffect_of_ok hwf hstep with
  | @mint ctx submitter signatures msg hinput effect =>
      simp only [hinput, mintMessage, Option.map_some, Option.getD_some]
      by_cases hc : msg.sourceChainId = c
      · obtain rfl := hc
        rw [if_pos rfl, chainTotal_of_stores effect.chainStored,
          chainTotal_of_stores effect.chainStored']
        exact effect.chainTotal
      · rw [if_neg hc, Nat.add_zero]
        exact chainTotal_congr (by rw [effect.frame _ (by simp [Ne.symm hc])])
  | withdraw hinput effect =>
      have hno : mintMessage e.input = none := by rw [hinput]; rfl
      rw [chainTotal_kept c hwf hstep hno, hno, Option.map_none, Option.getD_none,
        Nat.add_zero]
  | neutral hneutral =>
      rw [chainTotal_kept c hwf hstep hneutral.noMint, hneutral.noMint,
        Option.map_none, Option.getD_none, Nat.add_zero]

private theorem tokenTotals_step {host : Host} {e : BridgeRecord} (c : U8)
    (hwf : WellFormed e.pre) (hstep : IsStep (step host) e) :
    tokenTotals c e.post = tokenTotals c e.pre +
      ∑ t : Fin (2 ^ 8), mintedAmount c (BitVec.ofFin t) e := by
  rw [tokenTotals, tokenTotals, ← Finset.sum_add_distrib]
  exact Finset.sum_congr rfl fun t _ => tokenTotal_step c _ hwf hstep

theorem execute_agree (host : Host) (inputs : List Input) (c : U8) :
    chainTotal c (execute host inputs).state =
      tokenTotals c (execute host inputs).state := by
  refine (run_invariant (I := fun L => WellFormed L ∧
    chainTotal c L = tokenTotals c L) ⟨wellFormed_empty, ?_⟩ ?_ inputs).2
  · have htokens : ∀ t : Fin (2 ^ 8),
        tokenTotal c (BitVec.ofFin t) Ledger.empty = 0 :=
      fun t => tokenTotal_of_vacant (L := Ledger.empty) rfl
    rw [tokenTotals, chainTotal_of_vacant (L := Ledger.empty) rfl]
    simp only [htokens, Finset.sum_const_zero]
  · rintro e ⟨hwf, hagree⟩ hstep
    refine ⟨wellFormed_step hwf hstep, ?_⟩
    rw [chainTotal_step c hwf hstep, tokenTotals_step c hwf hstep, hagree]

/-- Chain totals agree with token totals, and only mints change either. -/
theorem chain_totals_agree (host : Host) (inputs : List Input) :
    (∀ c, chainTotal c (execute host inputs).state =
      tokenTotals c (execute host inputs).state) ∧
    ∀ e ∈ (execute host inputs).log, mintMessage e.input = none →
      ∀ c, KeepsChainTotal c e.pre e.post ∧
        ∀ t, KeepsTokenTotal c t e.pre e.post := by
  constructor
  · exact execute_agree host inputs
  · intro e he hno c
    have hwf := wellFormed_pre he
    have hstep := isStep_of_mem he
    exact ⟨keepsChainTotal_step c hwf hstep hno,
      fun t => keepsTokenTotal_step c t hwf hstep hno⟩

end SolBtcBridge.Properties
