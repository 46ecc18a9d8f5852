import SolBtcBridge.Properties.ClientTransactions

/-!
# Holders can leave

A withdrawal changes neither the bridge, the chain nor the token record, and
the mint total that it is compared with never falls.  So as long as one route
is open a holder of any size can leave along it, in as many withdrawals as it
takes, and nothing on the way is refused.
-/

namespace SolBtcBridge.Properties

open SolBtcBridge.Foundation
open SolBtcBridge.Runtime
open SolBtcBridge.Program
open SolBtcBridge.Effects

/-- Who leaves which bridge, and along which chain and token. -/
structure ExitRoute where
  user : Pubkey
  feeRecipient : Pubkey
  chainId : U8
  toChainId : U8
  toTokenId : U8
  toAddress : List U8

namespace ExitRoute

variable (route : ExitRoute)

def message (amount : U64) : WithdrawBtcMessage :=
  ⟨route.toChainId, route.toTokenId, route.toAddress, route.chainId, route.user,
    amount⟩

/-- The transaction of the client, behind which the runtime puts its own values. -/
def input (instruction : SolanaInstruction) (unixTimestamp : Int) (amount : U64) :
    Input :=
  (withdrawBtcTx [] route.user route.feeRecipient
    (route.message amount)).input instruction unixTimestamp

def account : Address :=
  getAssociatedTokenAddress route.user (Pda.sbtcMint route.chainId).address

/-- Withdrawals between the minimum and the total are let through. -/
structure Open (L : Ledger) (minimum total : Nat) : Prop where
  bridge : ∃ r : BridgeConfig, L.Stores (Pda.bridgeConfig route.chainId).address r ∧
    r.feeRecipient = route.feeRecipient
  notRecipient : route.user ≠ route.feeRecipient
  otherChain : route.chainId ≠ route.toChainId
  chain : ∃ r : SupportedChainConfig,
    L.Stores (Pda.supportedChain route.toChainId).address r ∧ r.supported = true
  token : ∃ r : TokenConfig,
    L.Stores (Pda.tokenConfig route.toChainId route.toTokenId).address r ∧
      r.withdrawPaused = false ∧ r.tokenMinAmount.toNat ≤ minimum ∧
      total ≤ r.mintTotal.toNat
  toAddress : route.toAddress.length ≤ Constants.maxStringLength

end ExitRoute

section

variable {host : Host} {L : Ledger} {route : ExitRoute} {minimum total : Nat}
  {instruction : SolanaInstruction} {unixTimestamp : Int} {amount : U64}

private theorem exit_open (hcon : Consistent host L)
    (h : route.Open L minimum total) (hmin : minimum ≤ amount.toNat)
    (htotal : amount.toNat ≤ total) (hpos : 0 < amount.toNat)
    (hfunds : amount.toNat ≤ L.balance route.account)
    (hcounter : counter .tokenTransfer L + 1 < 2 ^ 64) :
    WithdrawOpen L route.user (route.message amount) route.feeRecipient where
  fromUser := rfl
  otherChain := h.otherChain
  chain := h.chain
  token := by
    rcases h.token with ⟨r, hstores, hpaused, hminimum, hcovers⟩
    exact ⟨r, hstores, hpaused, hminimum.trans hmin, htotal.trans hcovers⟩
  toAddress := h.toAddress
  nonce := hcounter
  bridge := h.bridge
  notRecipient := h.notRecipient
  funds := by
    rcases hcon.ataReady route.user (Pda.sbtcMint route.chainId).address with
      hvacant | ⟨held, hheld⟩
    · rw [Ledger.balance, ExitRoute.account, hvacant] at hfunds
      exact absurd hfunds (by simp only; omega)
    · rw [Ledger.balance, ExitRoute.account, hheld] at hfunds
      exact ⟨_, hheld, hfunds⟩

theorem exit_isOk (hcon : Consistent host L)
    (h : WithdrawOpen L route.user (route.message amount) route.feeRecipient) :
    ∃ out, step host L (route.input instruction unixTimestamp amount) =
      .ok out := by
  have hadmissible : ∃ recipient, WithdrawAdmissible L
      ⟨[].map getCommitteePda ++
        [(Pda.sbtcMint route.chainId).address, route.account,
          .wallet route.user,
          getAssociatedTokenAddress route.feeRecipient
            (Pda.sbtcMint route.chainId).address, .wallet route.feeRecipient],
        [setComputeUnitLimit 1000000] ++ [instruction], unixTimestamp⟩
      route.user (route.message amount) recipient :=
    withdraw_admissible_iff.mpr h
  rcases hadmissible with ⟨recipient, hadmissible⟩
  exact withdraw_isOk_of_admissible hcon hadmissible

theorem ExitRoute.Open.kept {L' : Ledger} (h : route.Open L minimum total)
    (hframe : ∀ p : Pda, p ∉ [.operationNonce .tokenTransfer,
      .sbtcMint route.chainId] → L' p.address = L p.address) :
    route.Open L' minimum total where
  bridge := by
    rcases h.bridge with ⟨r, hstores, hfee⟩
    exact ⟨r, hstores.congr (hframe _ (by simp)), hfee⟩
  notRecipient := h.notRecipient
  otherChain := h.otherChain
  chain := by
    rcases h.chain with ⟨r, hstores, hsupported⟩
    exact ⟨r, hstores.congr (hframe _ (by simp)), hsupported⟩
  token := by
    rcases h.token with ⟨r, hstores, hchecks⟩
    exact ⟨r, hstores.congr (hframe _ (by simp)), hchecks⟩
  toAddress := h.toAddress

private theorem exit_step (instruction : SolanaInstruction)
    (unixTimestamp : Int) (hcon : Consistent host L)
    (h : route.Open L minimum total) (hmin : minimum ≤ amount.toNat)
    (htotal : amount.toNat ≤ total) (hpos : 0 < amount.toNat)
    (hfunds : amount.toNat ≤ L.balance route.account)
    (hcounter : counter .tokenTransfer L + 1 < 2 ^ 64) :
    ∃ L' events, step host L (route.input instruction unixTimestamp amount) =
        .ok (L', events) ∧ route.Open L' minimum total ∧
      L'.balance route.account + amount.toNat = L.balance route.account ∧
      counter .tokenTransfer L' = counter .tokenTransfer L + 1 := by
  have hopen := exit_open hcon h hmin htotal hpos hfunds hcounter
  rcases exit_isOk hcon hopen with ⟨⟨L', events⟩, hstep⟩
  obtain ⟨effect⟩ := withdrawEffect_of_ok hcon.wellFormed hstep
  refine ⟨L', events, hstep, h.kept effect.frame, effect.userBalance.symm, ?_⟩
  rw [counter_of_stores effect.nonceStored',
    counter_of_provides effect.nonceProvided, effect.nextNonce]

end

/-! ## Leaving in several withdrawals -/

/-- Amounts that the route lets through one by one. -/
def Divides (minimum total : Nat) (amounts : List U64) (x : Nat) : Prop :=
  (∀ amount ∈ amounts,
    minimum ≤ amount.toNat ∧ amount.toNat ≤ total ∧ 0 < amount.toNat) ∧
    (amounts.map BitVec.toNat).sum = x

private theorem exists_divides {minimum total : Nat} (htotal : 0 < total)
    (htwice : 2 * minimum ≤ total) (x : Nat) (hmin : minimum ≤ x)
    (hfits : x < 2 ^ 64) : ∃ amounts, Divides minimum total amounts x := by
  have hword : ∀ y < 2 ^ 64, (BitVec.ofNat 64 y).toNat = y := fun y hy => by
    rw [BitVec.toNat_ofNat, Nat.mod_eq_of_lt hy]
  induction x using Nat.strongRecOn with
  | ind x ih =>
      rcases Nat.eq_zero_or_pos x with rfl | hpos
      · exact ⟨[], by simp, rfl⟩
      · by_cases hsmall : x ≤ total
        · refine ⟨[BitVec.ofNat 64 x], ?_, ?_⟩
          · rw [List.forall_mem_singleton, hword x hfits]
            exact ⟨hmin, hsmall, hpos⟩
          · rw [List.map_singleton, List.sum_singleton, hword x hfits]
        · -- the first amount leaves at least the minimum for the rest
          have hpiece : ∃ p, minimum ≤ p ∧ p ≤ total ∧ 0 < p ∧ p < x ∧
              minimum ≤ x - p := by
            refine ⟨min total (x - minimum), ?_, ?_, ?_, ?_, ?_⟩ <;> omega
          rcases hpiece with ⟨p, hle, hge, hp, hlt, hrest⟩
          rcases ih (x - p) (by omega) hrest (by omega) with
            ⟨amounts, hamounts, hsum⟩
          have hp64 := hword p (by omega)
          refine ⟨BitVec.ofNat 64 p :: amounts, ?_, ?_⟩
          · rw [List.forall_mem_cons, hp64]
            exact ⟨⟨hle, hge, hp⟩, hamounts⟩
          · rw [List.map_cons, List.sum_cons, hsum, hp64]
            omega

private theorem Divides.length_le {minimum total x : Nat} {amounts : List U64}
    (h : Divides minimum total amounts x) : amounts.length ≤ x := by
  induction amounts generalizing x with
  | nil => exact Nat.zero_le x
  | cons amount amounts ih =>
      rcases h with ⟨hamounts, rfl⟩
      rw [List.forall_mem_cons] at hamounts
      have hrest := ih ⟨hamounts.2, rfl⟩
      have hpos := hamounts.1.2.2
      rw [List.length_cons, List.map_cons, List.sum_cons]
      omega

section

variable {host : Host} {route : ExitRoute} {minimum total : Nat}

private theorem exit_run (instruction : SolanaInstruction) (unixTimestamp : Int)
    {amounts : List U64} {x : Nat} (inputs : List Input)
    (hopen : route.Open (execute host inputs).state minimum total)
    (hdivides : Divides minimum total amounts x)
    (hfunds : x ≤ (execute host inputs).state.balance route.account)
    (hcounter : counter .tokenTransfer (execute host inputs).state +
      amounts.length < 2 ^ 64) :
    let t := run (step host) (execute host inputs).state
      (amounts.map (route.input instruction unixTimestamp))
    t.log.map Record.input =
        amounts.map (route.input instruction unixTimestamp) ∧
      t.state.balance route.account + x =
        (execute host inputs).state.balance route.account := by
  induction amounts generalizing inputs x with
  | nil =>
      rcases hdivides with ⟨-, rfl⟩
      exact ⟨rfl, rfl⟩
  | cons amount amounts ih =>
      rcases hdivides with ⟨hamounts, rfl⟩
      rw [List.forall_mem_cons] at hamounts
      rcases hamounts with ⟨⟨hmin, htotal, hpos⟩, hamounts⟩
      rw [List.map_cons, List.sum_cons] at hfunds
      rw [List.length_cons] at hcounter
      rcases exit_step instruction unixTimestamp
        (execute_consistent host inputs) hopen hmin htotal hpos (by omega)
        (by omega) with ⟨L', events, hstep, hopen', hbalance, hcount⟩
      have hstate : (execute host (inputs ++
          [route.input instruction unixTimestamp amount])).state = L' := by
        rw [execute, run_concat]
        exact congrArg Trace.state (advance_of_ok hstep)
      have hrest := ih (x := (amounts.map BitVec.toNat).sum)
        (inputs ++ [route.input instruction unixTimestamp amount])
      rw [hstate] at hrest
      rcases hrest hopen' ⟨hamounts, rfl⟩ (by omega) (by omega) with
        ⟨hlog, hfinal⟩
      rw [List.map_cons, run_cons_of_ok _ hstep]
      refine ⟨?_, ?_⟩
      · rw [List.map_cons, hlog]
      · rw [List.map_cons, List.sum_cons]
        simp only at hfinal ⊢
        omega

end

/--
Along an open route whose total is twice the minimum a holder of at least the
minimum can withdraw everything, with every transaction on the way accepted.
-/
theorem holders_can_exit (host : Host) (inputs : List Input) (route : ExitRoute)
    (minimum total : Nat) (instruction : SolanaInstruction) (unixTimestamp : Int)
    (hopen : route.Open (execute host inputs).state minimum total)
    (htotal : 0 < total) (htwice : 2 * minimum ≤ total)
    (hmin : minimum ≤ (execute host inputs).state.balance route.account)
    (hcounter : counter .tokenTransfer (execute host inputs).state +
      (execute host inputs).state.balance route.account < 2 ^ 64) :
    ∃ amounts : List U64,
      let t := run (step host) (execute host inputs).state
        (amounts.map (route.input instruction unixTimestamp))
      t.log.map Record.input =
          amounts.map (route.input instruction unixTimestamp) ∧
        t.state.balance route.account = 0 ∧
        (amounts.map BitVec.toNat).sum =
          (execute host inputs).state.balance route.account := by
  rcases exists_divides htotal htwice _ hmin (by omega) with ⟨amounts, hdivides⟩
  have hlength := hdivides.length_le
  rcases exit_run instruction unixTimestamp inputs hopen hdivides le_rfl
    (by omega) with ⟨hlog, hbalance⟩
  exact ⟨amounts, hlog, Nat.add_eq_right.mp hbalance, hdivides.2⟩

def sampleRoute : ExitRoute :=
  ⟨sampleUser, sampleFeeRecipient, 1, 2, 0, []⟩

private theorem sampleRoute_open :
    sampleRoute.Open (execute sampleHost sampleDeposits).state 100 300 := by
  have hwf := execute_wellFormed sampleHost sampleDeposits
  have hbridge : ((execute sampleHost sampleDeposits).state.fetch BridgeConfig
      (Pda.bridgeConfig 1).address).map BridgeConfig.feeRecipient =
        some sampleFeeRecipient := by
    decide +kernel
  have hchain : ((execute sampleHost sampleDeposits).state.fetch
      SupportedChainConfig (Pda.supportedChain 2).address).map
        SupportedChainConfig.supported = some true := by
    decide +kernel
  have htoken : ((execute sampleHost sampleDeposits).state.fetch TokenConfig
      (Pda.tokenConfig 2 0).address).map
        (fun r => (r.withdrawPaused, r.tokenMinAmount, r.mintTotal)) =
      some (false, 0, 1000) := by
    decide +kernel
  rw [Option.map_eq_some_iff] at hbridge hchain htoken
  rcases hbridge with ⟨bridge, hbridge, hfee⟩
  rcases hchain with ⟨chain, hchain, hsupported⟩
  rcases htoken with ⟨token, htoken, hvalues⟩
  rw [Prod.mk.injEq, Prod.mk.injEq] at hvalues
  exact
    { bridge := ⟨bridge, (hwf (.bridgeConfig 1)).fetch_eq_some.mp hbridge, hfee⟩
      notRecipient := by decide
      otherChain := by decide
      chain := ⟨chain, (hwf (.supportedChain 2)).fetch_eq_some.mp hchain,
        hsupported⟩
      token := ⟨token, (hwf (.tokenConfig 2 0)).fetch_eq_some.mp htoken,
        hvalues.1, by rw [hvalues.2.1]; decide, by rw [hvalues.2.2]; decide⟩
      toAddress := by decide }

theorem holders_can_exit_sample :
    (execute sampleHost sampleDeposits).state.balance sampleRoute.account = 1000 ∧
      ∃ amounts : List U64,
        let t := run (step sampleHost) (execute sampleHost sampleDeposits).state
          (amounts.map (sampleRoute.input ⟨7, [], []⟩ 0))
        t.log.map Record.input =
            amounts.map (sampleRoute.input ⟨7, [], []⟩ 0) ∧
          t.state.balance sampleRoute.account = 0 ∧
          (amounts.map BitVec.toNat).sum =
            (execute sampleHost sampleDeposits).state.balance
              sampleRoute.account := by
  have hbalance : (execute sampleHost sampleDeposits).state.balance
      sampleRoute.account = 1000 := by
    decide +kernel
  have hcounter : counter .tokenTransfer
      (execute sampleHost sampleDeposits).state = 0 := by
    decide +kernel
  exact ⟨hbalance, holders_can_exit sampleHost sampleDeposits sampleRoute 100 300
    ⟨7, [], []⟩ 0 sampleRoute_open (by decide) (by decide)
    (by rw [hbalance]; decide) (by rw [hbalance, hcounter]; decide)⟩

end SolBtcBridge.Properties
