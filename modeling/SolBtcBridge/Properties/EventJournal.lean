import SolBtcBridge.Properties.Backing
import SolBtcBridge.Properties.ChainTotals
import SolBtcBridge.Properties.TotalsBound
import SolBtcBridge.Properties.Nonces

/-!
# The books of an observer

The relayers see the events of the program.  From them alone an observer can
keep books on the supply of every bridge, on the minted totals, on the mint
nonces that are used up and on both counters, and the books are always right.
The totals that a withdrawal announces must not be posted, because the program
does not store them, and an update of a limit does not say which limiter it
changed.
-/

namespace SolBtcBridge.Properties

open SolBtcBridge.Foundation
open SolBtcBridge.Runtime
open SolBtcBridge.Program
open SolBtcBridge.Effects

@[ext] structure Books where
  supply : U8 → Nat
  chainTotal : U8 → Nat
  tokenTotal : U8 × U8 → Nat
  usedNonces : Set (U8 × U64)
  withdrawals : Nat
  limitUpdates : Nat

namespace Books

def blank : Books := ⟨fun _ => 0, fun _ => 0, fun _ => 0, ∅, 0, 0⟩

def post (books : Books) : Event → Books
  | .mintSbtc event =>
      { books with
        supply := Function.update books.supply event.toChainId
          (books.supply event.toChainId + event.amount.toNat)
        chainTotal := Function.update books.chainTotal event.sourceChainId
          event.chainMintTotal.toNat
        tokenTotal := Function.update books.tokenTotal
          (event.sourceChainId, event.sourceTokenId) event.tokenMintTotal.toNat
        usedNonces := insert (event.sourceChainId, event.nonce)
          books.usedNonces }
  | .withdrawBtc event =>
      { books with
        supply := Function.update books.supply event.chainId
          (books.supply event.chainId - event.amount.toNat)
        withdrawals := event.nonce.toNat }
  | .limitUpdated event => { books with limitUpdates := event.nonce.toNat }
  | .limit _ => books

end Books

/-- What the ledger itself says. -/
def booksOf (L : Ledger) : Books where
  supply b := L.supply (Pda.sbtcMint b).address
  chainTotal c := chainTotal c L
  tokenTotal p := tokenTotal p.1 p.2 L
  usedNonces := {p | p.2 ∈ usedNonces p.1 L}
  withdrawals := counter .tokenTransfer L
  limitUpdates := counter .updateBridgeLimit L

section

variable {host : Host} {e : BridgeRecord}

private theorem silent_of_other (hwf : WellFormed e.pre)
    (hstep : IsStep (step host) e) (hmint : mintMessage e.input = none)
    (hwithdraw : withdrawMessage e.input = none)
    (hlimit : limiterUpdate e = none) : e.output = [] := by
  rcases e with ⟨L, input, events, L'⟩
  simp only [IsStep] at hwf hstep
  cases input with
  | createBridgeConfig => exact (createBridgeConfig_spec hstep).silent
  | addOrUpdateChain => exact (addOrUpdateChain_spec hwf hstep).silent
  | addOrUpdateChainToken => exact (addOrUpdateChainToken_spec hwf hstep).silent
  | createBridgeCommittee => exact (createBridgeCommittee_spec hwf hstep).silent
  | addOrUpdateCommittee => exact (addOrUpdateCommittee_spec hwf hstep).silent
  | addOrUpdateSubmitter => exact (addOrUpdateSubmitter_spec hwf hstep).silent
  | mintSbtcWithSignatures => cases hmint
  | withdrawBtc => cases hwithdraw
  | addOrUpdateLimiterWithSignatures => cases hlimit
  | sendLamports => exact (Prod.mk.inj (Except.ok.inj hstep)).2.symm
  | openTokenAccount =>
      simp only [step, bind_eq_ok, require_eq_ok, pure_eq_ok, Prod.mk.injEq,
        exists_and_left, exists_const] at hstep
      obtain ⟨-, _, -, -, rfl⟩ := hstep
      rfl
  | sendTokens =>
      simp only [step, bind_eq_ok, pure_eq_ok, Prod.mk.injEq] at hstep
      obtain ⟨_, -, -, rfl⟩ := hstep
      rfl

/-! ## One step -/

private theorem usedNonces_congr {L L' : Ledger} {c : U8} {n : U64}
    (h : (L' (Pda.mintNonce c n).address).body =
      (L (Pda.mintNonce c n).address).body) :
    n ∈ usedNonces c L' ↔ n ∈ usedNonces c L := by
  show ¬ L'.Vacant _ ↔ ¬ L.Vacant _
  rw [Ledger.Vacant, Ledger.Vacant, h]

private theorem booksOf_kept (hwf : WellFormed e.pre)
    (hstep : IsStep (step host) e) (hmint : mintMessage e.input = none)
    (hwithdraw : withdrawMessage e.input = none) :
    booksOf e.post = { booksOf e.pre with
      limitUpdates := counter .updateBridgeLimit e.post } := by
  have hnoWithdrawal : withdrawal e = none := by
    unfold withdrawal
    split
    · rename_i hinput
      rw [hinput] at hwithdraw
      cases hwithdraw
    · rfl
  have hnoNonce : ∀ c n, mintsNonce c n e = false := by
    intro c n
    unfold mintsNonce
    split
    · rename_i hinput
      rw [hinput] at hmint
      cases hmint
    · rfl
  ext x
  · cases stepEffect_of_ok hwf hstep with
    | mint hinput => rw [hinput] at hmint; cases hmint
    | withdraw hinput => rw [hinput] at hwithdraw; cases hwithdraw
    | neutral hneutral => exact hneutral.supply _
  · exact chainTotal_kept x hwf hstep hmint
  · have htotal := tokenTotal_step x.1 x.2 hwf hstep
    rwa [mintedAmount, hmint, Nat.add_zero] at htotal
  · exact usedNonces_congr (mintNonce_kept hwf hstep (hnoNonce _ _))
  · exact counter_congr (withdrawNonce_kept hwf hstep hnoWithdrawal)
  · rfl

private theorem booksOf_mint {ctx : Context} {submitter : Pubkey}
    {signatures : U8} {msg : MintSbtcMessage}
    (effect : MintEffect e.pre ctx submitter signatures msg e.post e.output) :
    booksOf e.post = e.output.foldl Books.post (booksOf e.pre) := by
  rw [effect.events_eq]
  simp only [List.foldl_cons, List.foldl_nil, Books.post]
  refine Books.ext ?_ ?_ ?_ ?_ ?_ ?_
  · refine Function.eq_update_iff.mpr ⟨effect.supply, fun b hb => ?_⟩
    exact effect.otherSupply _ (by simpa using hb)
  · refine Function.eq_update_iff.mpr
      ⟨chainTotal_of_stores effect.chainStored', fun c hc => ?_⟩
    exact chainTotal_congr (by rw [effect.frame _ (by simp [hc])])
  · refine Function.eq_update_iff.mpr
      ⟨tokenTotal_of_stores effect.tokenStored', fun p hp => ?_⟩
    have hother : ¬ (p.1 = msg.sourceChainId ∧ p.2 = msg.sourceTokenId) :=
      fun h => hp (Prod.ext h.1 h.2)
    exact tokenTotal_congr (by rw [effect.frame _ (by simpa using hother)])
  · ext ⟨c, n⟩
    rw [Set.mem_insert_iff]
    by_cases hsame : (c, n) = (msg.sourceChainId, msg.nonce)
    · obtain ⟨rfl, rfl⟩ := Prod.mk.inj hsame
      obtain ⟨data, hdata⟩ := effect.nonceTaken
      refine iff_of_true ?_ (.inl rfl)
      intro hvacant
      rw [Ledger.Vacant, hdata] at hvacant
      cases hvacant
    · rw [or_iff_right hsame]
      have hother : ¬ (c = msg.sourceChainId ∧ n = msg.nonce) :=
        fun h => hsame (Prod.ext h.1 h.2)
      exact usedNonces_congr (by rw [effect.frame _ (by simpa using hother)])
  · exact counter_congr (by rw [effect.frame _ (by simp)])
  · exact counter_congr (by rw [effect.frame _ (by simp)])

private theorem booksOf_withdraw {user : Pubkey} {msg : WithdrawBtcMessage}
    (effect : WithdrawEffect e.pre user msg e.post e.output) :
    booksOf e.post = e.output.foldl Books.post (booksOf e.pre) := by
  rw [effect.events_eq]
  simp only [List.foldl_cons, List.foldl_nil, Books.post]
  refine Books.ext ?_ ?_ ?_ ?_ ?_ ?_
  · have hsupply := effect.supply
    refine Function.eq_update_iff.mpr ⟨?_, fun b hb => ?_⟩
    · simp only [booksOf]
      omega
    · exact effect.otherSupply _ (by simpa using hb)
  · ext c
    exact chainTotal_congr (by rw [effect.frame _ (by simp)])
  · ext p
    exact tokenTotal_congr (by rw [effect.frame _ (by simp)])
  · ext p
    exact usedNonces_congr (by rw [effect.frame _ (by simp)])
  · exact counter_of_stores effect.nonceStored'
  · exact counter_congr (by rw [effect.frame _ (by simp)])

/-- After every step the books with its events posted are those of the ledger. -/
private theorem booksOf_step (hwf : WellFormed e.pre)
    (hstep : IsStep (step host) e) :
    booksOf e.post = e.output.foldl Books.post (booksOf e.pre) := by
  cases stepEffect_of_ok hwf hstep with
  | mint _ effect => exact booksOf_mint effect
  | withdraw _ effect => exact booksOf_withdraw effect
  | neutral hneutral =>
      rw [booksOf_kept hwf hstep hneutral.noMint hneutral.noWithdrawal]
      cases hlimit : limiterUpdate e with
      | none =>
          rw [silent_of_other hwf hstep hneutral.noMint hneutral.noWithdrawal
            hlimit, List.foldl_nil,
            counter_congr (limiterNonce_kept hwf hstep hlimit)]
          rfl
      | some msg =>
          rcases e with ⟨L, input, events, L'⟩
          cases input with
          | addOrUpdateLimiterWithSignatures =>
              obtain ⟨effect⟩ := limitEffect_of_ok hwf hstep
              rw [effect.events_eq, counter_of_stores effect.nonceStored']
              rfl
          | _ => cases hlimit

end

private theorem booksOf_empty : booksOf Ledger.empty = Books.blank := by
  refine Books.ext rfl ?_ ?_ ?_ (counter_empty .tokenTransfer)
    (counter_empty .updateBridgeLimit)
  · ext c
    show chainTotal c Ledger.empty = 0
    exact chainTotal_of_vacant rfl
  · ext p
    show tokenTotal p.1 p.2 Ledger.empty = 0
    exact tokenTotal_of_vacant rfl
  · ext p
    exact iff_of_false (fun h => h rfl) id

/-- The events of a run are enough to rebuild the books of the ledger. -/
theorem books_of_events (host : Host) (inputs : List Input) :
    ((execute host inputs).log.flatMap Record.output).foldl Books.post
      Books.blank = booksOf (execute host inputs).state := by
  rw [← booksOf_empty]
  exact (run_journal id Books.post wellFormed_empty (fun _ hwf hstep =>
    ⟨wellFormed_step hwf hstep, booksOf_step hwf hstep⟩) inputs).symm

end SolBtcBridge.Properties
