import SolBtcBridge.Effects.Bridges
import SolBtcBridge.Effects.Lookup
import SolBtcBridge.Properties.TotalsBound
import SolBtcBridge.Runtime.Success

/-!
# What a handler can count on

A handler that is run in a reachable state finds every record initialised,
every mint beside its bridge record, every associated address vacant or held
by its owner, and totals with room for another amount.  `Consistent` collects
these facts; the acceptance theorems need nothing else about the past.
-/

namespace SolBtcBridge.Properties

open SolBtcBridge.Foundation
open SolBtcBridge.Runtime
open SolBtcBridge.Program
open SolBtcBridge.Effects

structure Consistent (host : Host) (L : Ledger) : Prop where
  wellFormed : WellFormed L
  orderly : Orderly L
  established : Established host L
  chainRoom : ∀ c, chainTotal c L ≤ maxAmount * 2 ^ 64
  tokenRoom : ∀ c t, tokenTotal c t L ≤ maxAmount * 2 ^ 64
  agree : ∀ c, chainTotal c L = tokenTotals c L

theorem execute_consistent (host : Host) (inputs : List Input) :
    Consistent host (execute host inputs).state where
  wellFormed := execute_wellFormed host inputs
  orderly := execute_orderly host inputs
  established := execute_established host inputs
  chainRoom := chainTotal_le host inputs
  tokenRoom := tokenTotal_le host inputs
  agree := execute_agree host inputs

section

variable {host : Host} {L : Ledger}

theorem Consistent.bridge (h : Consistent host L) {b : U8}
    (hbridge : ¬ L.Vacant (Pda.bridgeConfig b).address) :
    ∃ admin feeRecipient m,
      L.Stores (Pda.bridgeConfig b).address
        (createdConfig host b admin feeRecipient) ∧
      (L (Pda.sbtcMint b).address).body = .mint m ∧
      m.mintAuthority = (Pda.sbtcMint b).address := by
  rcases h.wellFormed (.bridgeConfig b) with hvacant | ⟨r, hstores, -⟩
  · exact absurd hvacant hbridge
  · rcases h.established b r hstores with ⟨⟨admin, fee, rfl⟩, m, hmint⟩
    exact ⟨admin, fee, m, hstores, hmint, (h.orderly.mint hmint).2⟩

theorem Consistent.chain_room (h : Consistent host L) {c : U8}
    {record : SupportedChainConfig}
    (hstores : L.Stores (Pda.supportedChain c).address record) :
    record.mintTotal.toNat ≤ maxAmount * 2 ^ 64 := by
  rw [← chainTotal_of_stores hstores]
  exact h.chainRoom c

theorem Consistent.token_room (h : Consistent host L) {c t : U8}
    {record : TokenConfig}
    (hstores : L.Stores (Pda.tokenConfig c t).address record) :
    record.mintTotal.toNat ≤ maxAmount * 2 ^ 64 := by
  rw [← tokenTotal_of_stores hstores]
  exact h.tokenRoom c t

theorem Consistent.token_le_chain (h : Consistent host L) {c t : U8}
    {chain : SupportedChainConfig} {token : TokenConfig}
    (hchain : L.Stores (Pda.supportedChain c).address chain)
    (htoken : L.Stores (Pda.tokenConfig c t).address token) :
    token.mintTotal.toNat ≤ chain.mintTotal.toNat := by
  rw [← chainTotal_of_stores hchain, ← tokenTotal_of_stores htoken, h.agree,
    tokenTotals]
  exact Finset.single_le_sum (f := fun i => tokenTotal c (BitVec.ofFin i) L)
    (fun _ _ => Nat.zero_le _) (Finset.mem_univ t.toFin)

end

section

variable {L : Ledger} {owner : Pubkey} {mint : Address} {m : Mint}

/-- Vacant, or a token account that its owner holds for the mint. -/
def AtaReady (L : Ledger) (owner : Pubkey) (mint : Address) : Prop :=
  L.Vacant (getAssociatedTokenAddress owner mint) ∨
    ∃ amount, (L (getAssociatedTokenAddress owner mint)).body =
      .token ⟨mint, .wallet owner, amount⟩

theorem AtaReady.congr {L' : Ledger} (h : AtaReady L owner mint)
    (heq : L' (getAssociatedTokenAddress owner mint) =
      L (getAssociatedTokenAddress owner mint)) : AtaReady L' owner mint := by
  rw [AtaReady, Ledger.Vacant, heq]
  exact h

theorem AtaReady.opens (h : AtaReady L owner mint)
    (hmint : (L mint).body = .mint m) :
    ∃ L' amount, createAssociatedTokenAccountIfnInit L (.wallet owner) mint
        (getAssociatedTokenAddress owner mint) = .ok L' ∧
      (L' (getAssociatedTokenAddress owner mint)).body =
        .token ⟨mint, .wallet owner, amount⟩ ∧
      amount.toNat = L.balance (getAssociatedTokenAddress owner mint) := by
  rcases h with hvacant | ⟨amount, hbody⟩
  · refine ⟨L.set (getAssociatedTokenAddress owner mint)
      ⟨max (L (getAssociatedTokenAddress owner mint)).lamports
        (minimumBalance 165), .token ⟨mint, .wallet owner, 0⟩⟩, 0, ?_, ?_, ?_⟩
    · unfold createAssociatedTokenAccountIfnInit
      rw [dataIsEmpty, hvacant, if_pos rfl]
      simp only [bind_eq_ok, require_eq_ok, exists_const]
      exact ⟨rfl, Ledger.initTokenAccount_eq_ok.mpr ⟨⟨m, hmint⟩, hvacant, rfl⟩⟩
    · rw [Ledger.set_self]
    · rw [Ledger.balance, hvacant]
      rfl
  · refine ⟨L, amount, ?_, hbody, ?_⟩
    · unfold createAssociatedTokenAccountIfnInit
      rw [dataIsEmpty, hbody]
      rfl
    · rw [Ledger.balance, hbody]

end

section

variable {host : Host} {L : Ledger}

theorem Consistent.ataReady (h : Consistent host L) (owner : Pubkey)
    (mint : Address) : AtaReady L owner mint :=
  h.orderly.ata owner mint

theorem AtaReady.share {owner : Pubkey} {mint : Address}
    (h : AtaReady L owner mint) :
    Bank.share mint (L.bank (getAssociatedTokenAddress owner mint)) =
      L.balance (getAssociatedTokenAddress owner mint) := by
  rcases h with hvacant | ⟨amount, hbody⟩
  · rw [Ledger.bank, Ledger.balance, hvacant]
    rfl
  · rw [Ledger.bank, Ledger.balance, hbody]
    exact if_pos rfl

theorem Consistent.ata_le (h : Consistent host L) (owner : Pubkey)
    (mint : Address) :
    L.balance (getAssociatedTokenAddress owner mint) ≤ L.supply mint := by
  rw [← (h.ataReady owner mint).share, ← Ledger.bank_supply]
  exact h.orderly.sound.share_le mint _

theorem Consistent.atas_le (h : Consistent host L) {owner other : Pubkey}
    (mint : Address) (hne : owner ≠ other) :
    L.balance (getAssociatedTokenAddress owner mint) +
        L.balance (getAssociatedTokenAddress other mint) ≤ L.supply mint := by
  rw [← (h.ataReady owner mint).share, ← (h.ataReady other mint).share,
    ← Ledger.bank_supply]
  apply h.orderly.sound.share_add_le mint
  simpa [getAssociatedTokenAddress] using hne.symm

end

/-! ## Approval -/

section

variable {T : Type} [DecidableEq T] [HasMessageType T] [HasPayload T]
  [DeserializeMessage T] {F : Type} [NoncesTrait F]

/--
Distinct members of the committee approve the message, one for each signature,
with at least the threshold and less than `u16::MAX + 1` stake.
-/
def Approved (accounts : List Address) (L : Ledger)
    (instructions : List SolanaInstruction) (numberOfSignatures : U8) (msg : T)
    (op : Operation) (nonceConfig : F) : Prop :=
  (1 ≤ numberOfSignatures.toNat ∧ numberOfSignatures.toNat < 255) ∧
    ∃ approvals, List.Forall₂
        (Approves accounts L instructions msg op nonceConfig)
        (List.range' 1 numberOfSignatures.toNat) approvals ∧
      (approvals.map fun a => a.record.index).Nodup ∧
      (grantedStake op).toNat ≤ approvedStake approvals ∧
      approvedStake approvals < 2 ^ 16

variable {accounts : List Address} {L : Ledger}
  {instructions : List SolanaInstruction} {numberOfSignatures : U8} {msg : T}
  {op : Operation} {nonceConfig nonceConfig' : F}

omit [HasPayload T] in
theorem checks_of_approvals {approvals : List Approval}
    (hone : 1 ≤ numberOfSignatures.toNat)
    (hforall : List.Forall₂
      (Approves accounts L instructions msg op nonceConfig)
      (List.range' 1 numberOfSignatures.toNat) approvals) :
    Operation.tryFrom (messageType msg) = some op ∧
      nonceEqual nonceConfig (HasMessageType.nonce msg) = true := by
  cases approvals with
  | nil =>
      have hlength := hforall.length_eq
      rw [List.length_range', List.length_nil] at hlength
      omega
  | cons first rest =>
      rcases List.forall₂_cons_right_iff.mp hforall with ⟨_, _, hfirst, -, -⟩
      exact ⟨hfirst.operation, hfirst.nonce⟩

theorem verify_eq_ok_iff_approved (hop : op ≠ .emergencyOp) :
    verify accounts L instructions numberOfSignatures msg op nonceConfig =
        .ok nonceConfig' ↔
      incrementNonce nonceConfig = .ok nonceConfig' ∧
        Approved accounts L instructions numberOfSignatures msg op
          nonceConfig := by
  rw [verify_eq_ok, Approved]
  constructor
  · rintro ⟨⟨hone, hlt⟩, hnext, approvals, hforall, hnodup, hfits, required,
      hrequired, hle⟩
    refine ⟨hnext, ⟨hone, hlt⟩, approvals, hforall, hnodup, ?_, hfits⟩
    rcases requiredStake_eq_ok.mp hrequired with ⟨op', hop', -, rfl⟩
    have hsame := hop'.symm.trans (checks_of_approvals hone hforall).1
    rw [← Option.some.inj hsame]
    exact hle
  · rintro ⟨hnext, ⟨hone, hlt⟩, approvals, hforall, hnodup, hle, hfits⟩
    refine ⟨⟨hone, hlt⟩, hnext, approvals, hforall, hnodup, hfits,
      grantedStake op, ?_, hle⟩
    exact requiredStake_eq_ok.mpr ⟨op, (checks_of_approvals hone hforall).1,
      fun h => absurd h hop, rfl⟩

end

end SolBtcBridge.Properties
