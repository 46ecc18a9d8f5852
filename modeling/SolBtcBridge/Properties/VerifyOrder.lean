import SolBtcBridge.Properties.VerifyCompleteness
import Mathlib.Data.List.Perm.Basic

/-!
# The order of signatures and accounts

Acceptance has an explanation that mentions no order: one approval for each
signature instruction, of distinct members with enough stake.  Two transactions
with the same signature instructions and the same accounts are therefore
accepted together, and the nonce record is advanced in the same way.
-/

namespace SolBtcBridge.Properties

open SolBtcBridge.Foundation
open SolBtcBridge.Runtime
open SolBtcBridge.Program
open SolBtcBridge.Effects

def signatureInstructions (instructions : List SolanaInstruction)
    (numberOfSignatures : U8) : List (Option SolanaInstruction) :=
  (List.range' 1 numberOfSignatures.toNat).map fun index => instructions[index]?

/-- The same instructions stand at the indices 1 to n, in some order. -/
def Reordered (numberOfSignatures : U8)
    (instructions instructions' : List SolanaInstruction) : Prop :=
  (signatureInstructions instructions numberOfSignatures).Perm
    (signatureInstructions instructions' numberOfSignatures)

def SameAccounts (accounts accounts' : List Address) : Prop :=
  ∀ a, a ∈ accounts ↔ a ∈ accounts'

theorem Reordered.symm {numberOfSignatures : U8}
    {instructions instructions' : List SolanaInstruction}
    (h : Reordered numberOfSignatures instructions instructions') :
    Reordered numberOfSignatures instructions' instructions :=
  List.Perm.symm h

theorem SameAccounts.symm {accounts accounts' : List Address}
    (h : SameAccounts accounts accounts') : SameAccounts accounts' accounts :=
  fun a => (h a).symm

private theorem signatureInstructions_cons {first : SolanaInstruction}
    {signers rest : List SolanaInstruction} {numberOfSignatures : U8}
    (hcount : signers.length = numberOfSignatures.toNat) :
    signatureInstructions (first :: (signers ++ rest)) numberOfSignatures =
      signers.map some := by
  apply List.ext_getElem
  · simp [signatureInstructions, hcount]
  · intro i hi hi'
    rw [List.length_map] at hi'
    simp [signatureInstructions, Nat.add_comm 1 i, List.getElem?_append_left hi']

private theorem reordered_of_perm {first first' : SolanaInstruction}
    {signers signers' rest rest' : List SolanaInstruction}
    {numberOfSignatures : U8} (hcount : signers.length = numberOfSignatures.toNat)
    (hperm : signers.Perm signers') :
    Reordered numberOfSignatures (first :: (signers ++ rest))
      (first' :: (signers' ++ rest')) := by
  have hcount' : signers'.length = numberOfSignatures.toNat := by
    rw [← hperm.length_eq, hcount]
  rw [Reordered, signatureInstructions_cons hcount,
    signatureInstructions_cons hcount']
  exact hperm.map some

private theorem approvedStake_perm {approvals approvals' : List Approval}
    (h : approvals'.Perm approvals) :
    approvedStake approvals' = approvedStake approvals :=
  (h.map _).sum_eq

section

variable {T : Type} [DecidableEq T] [HasMessageType T] [DeserializeMessage T]
  {F : Type} [NoncesTrait F] {accounts accounts' : List Address} {L : Ledger}
  {instructions instructions' : List SolanaInstruction} {msg : T}
  {op : Operation} {nonceConfig : F}

/-- The approval that one entry of the transaction stands for, wherever it is. -/
def Vouches (accounts : List Address) (L : Ledger) (msg : T) (op : Operation)
    (nonceConfig : F) (entry : Option SolanaInstruction)
    (approval : Approval) : Prop :=
  Approves accounts L entry.toList msg op nonceConfig 0 approval

omit [HasMessageType T] in
private theorem resolveEd25519WithIndex_congr {index index' : Nat}
    (h : instructions'[index']? = instructions[index]?) :
    resolveEd25519WithIndex instructions' index' msg =
      resolveEd25519WithIndex instructions index msg := by
  simp only [resolveEd25519WithIndex, loadInstructionAtChecked, h]

private theorem approves_congr {index index' : Nat} {approval : Approval}
    (h : Approves accounts L instructions msg op nonceConfig index approval)
    (haccounts : SameAccounts accounts accounts')
    (hentry : instructions'[index']? = instructions[index]?) :
    Approves accounts' L instructions' msg op nonceConfig index' approval where
  resolved := by
    rw [resolveEd25519WithIndex_congr hentry]
    exact h.resolved
  operation := h.operation
  nonce := h.nonce
  listed := (haccounts _).mp h.listed
  record := h.record
  notBlocklisted := h.notBlocklisted
  isInitialized := h.isInitialized

private theorem vouches_iff {index : Nat} {approval : Approval} :
    Vouches accounts L msg op nonceConfig instructions[index]? approval ↔
      Approves accounts L instructions msg op nonceConfig index approval := by
  have hentry : instructions[index]?.toList[0]? = instructions[index]? := by
    cases instructions[index]? <;> rfl
  have hsame : SameAccounts accounts accounts := fun _ => Iff.rfl
  exact ⟨fun h => approves_congr h hsame hentry.symm,
    fun h => approves_congr h hsame hentry⟩

private theorem forall₂_vouches {numberOfSignatures : U8}
    {approvals : List Approval} :
    List.Forall₂ (Vouches accounts L msg op nonceConfig)
        (signatureInstructions instructions numberOfSignatures) approvals ↔
      List.Forall₂ (Approves accounts L instructions msg op nonceConfig)
        (List.range' 1 numberOfSignatures.toNat) approvals := by
  rw [signatureInstructions, List.forall₂_map_left_iff]
  simp only [vouches_iff]

private theorem approvals_of_reordered {numberOfSignatures : U8}
    {approvals : List Approval}
    (hinstructions : Reordered numberOfSignatures instructions instructions')
    (haccounts : SameAccounts accounts accounts')
    (h : List.Forall₂ (Approves accounts L instructions msg op nonceConfig)
      (List.range' 1 numberOfSignatures.toNat) approvals) :
    ∃ approvals', approvals'.Perm approvals ∧
      List.Forall₂ (Approves accounts' L instructions' msg op nonceConfig)
        (List.range' 1 numberOfSignatures.toNat) approvals' := by
  rcases List.perm_comp_forall₂ (List.Perm.symm hinstructions)
    (forall₂_vouches.mpr h) with ⟨approvals', hforall, hperm⟩
  refine ⟨approvals', hperm, forall₂_vouches.mp (hforall.imp ?_)⟩
  intro entry approval hvouches
  exact approves_congr hvouches haccounts rfl

variable [HasPayload T]

private theorem verify_of_reordered {numberOfSignatures : U8} {nonceConfig' : F}
    (hinstructions : Reordered numberOfSignatures instructions instructions')
    (haccounts : SameAccounts accounts accounts')
    (h : verify accounts L instructions numberOfSignatures msg op nonceConfig =
      .ok nonceConfig') :
    verify accounts' L instructions' numberOfSignatures msg op nonceConfig =
      .ok nonceConfig' := by
  rcases verify_eq_ok.mp h with ⟨hcount, hnonce, approvals, hforall, hnodup, hfits,
    required, hrequired, hle⟩
  rcases approvals_of_reordered hinstructions haccounts hforall with
    ⟨approvals', hperm, hforall'⟩
  have hstake : approvedStake approvals' = approvedStake approvals :=
    approvedStake_perm hperm
  have hnodup' : (approvals'.map fun a => a.record.index).Nodup :=
    (hperm.map _).nodup_iff.mpr hnodup
  exact verify_eq_ok.mpr ⟨hcount, hnonce, approvals', hforall', hnodup',
    by rw [hstake]; exact hfits, required, hrequired, by rw [hstake]; exact hle⟩

/--
In every ledger, reordered signatures and accounts are accepted together, and
leave the same nonce record.
-/
theorem verify_order_irrelevant (L : Ledger) (accounts accounts' : List Address)
    (instructions instructions' : List SolanaInstruction)
    (numberOfSignatures : U8) (msg : T) (op : Operation) (nonceConfig : F)
    (hinstructions : Reordered numberOfSignatures instructions instructions')
    (haccounts : SameAccounts accounts accounts') (nonceConfig' : F) :
    verify accounts L instructions numberOfSignatures msg op nonceConfig =
        .ok nonceConfig' ↔
      verify accounts' L instructions' numberOfSignatures msg op nonceConfig =
        .ok nonceConfig' := by
  constructor
  · exact verify_of_reordered hinstructions haccounts
  · exact verify_of_reordered hinstructions.symm haccounts.symm

end

theorem verify_order_irrelevant_sample :
    verify (memberAccounts.reverse ++ memberAccounts) jointLedger
      (⟨0, [], []⟩ :: (jointSigners.reverse ++ [])) 2 sampleMintMessage
      .tokenTransfer NoncesDummy.mk = .ok NoncesDummy.mk := by
  have hinstructions : Reordered 2 (⟨0, [], []⟩ :: (jointSigners ++ []))
      (⟨0, [], []⟩ :: (jointSigners.reverse ++ [])) :=
    reordered_of_perm rfl jointSigners.reverse_perm.symm
  have haccounts : SameAccounts memberAccounts
      (memberAccounts.reverse ++ memberAccounts) := by
    intro a
    rw [List.mem_append, List.mem_reverse, or_self]
  exact (verify_order_irrelevant jointLedger memberAccounts
    (memberAccounts.reverse ++ memberAccounts)
    (⟨0, [], []⟩ :: (jointSigners ++ []))
    (⟨0, [], []⟩ :: (jointSigners.reverse ++ [])) 2 sampleMintMessage
    .tokenTransfer NoncesDummy.mk hinstructions haccounts NoncesDummy.mk).mp
    (by decide +kernel)

end SolBtcBridge.Properties
