import SolBtcBridge.Effects.Step
import SolBtcBridge.Foundation.Lists

/-!
# Stake soundness of committee verification

Duplicate signers are detected through the index stored in each committee
record.  In every reachable ledger that index is the key of the record's own
address, so distinct indices are distinct signers.
-/

namespace SolBtcBridge.Properties

open SolBtcBridge.Foundation
open SolBtcBridge.Runtime
open SolBtcBridge.Program
open SolBtcBridge.Effects

/-- The instructions at 1 to n carry signatures of enough distinct members. -/
structure Quorum {T : Type} [DecidableEq T] [HasMessageType T] [HasPayload T]
    [DeserializeMessage T] (L : Ledger) (instructions : List SolanaInstruction)
    (numberOfSignatures : U8) (msg : T) (op : Operation)
    (approvals : List Approval) : Prop where
  nonempty : 1 ≤ numberOfSignatures.toNat
  resolved : List.Forall₂
    (fun i a => resolveEd25519WithIndex instructions i msg = .ok a.signer)
    (List.range' 1 numberOfSignatures.toNat) approvals
  distinct : (approvals.map Approval.signer).Nodup
  members : ∀ a ∈ approvals,
    L.fetch Committee (Pda.committee a.signer).address = some a.record ∧
      a.record.isInitialized = true ∧ a.record.isBlocklisted = false
  operation : Operation.tryFrom (messageType msg) = some op
  stake : ∃ required, requiredStake msg = .ok required ∧
    required.toNat ≤ approvedStake approvals

section

variable {T : Type} [DecidableEq T] [HasMessageType T] [HasPayload T]
  [DeserializeMessage T] {F : Type} [NoncesTrait F]

omit [HasPayload T] in
theorem approves_member {accounts : List Address} {L : Ledger}
    {instructions : List SolanaInstruction} {msg : T} {op : Operation}
    {nonceConfig : F} {i : Nat} {a : Approval} (hwf : WellFormed L)
    (h : Approves accounts L instructions msg op nonceConfig i a) :
    L.Stores (Pda.committee a.signer).address a.record ∧
      a.record.index = a.signer := by
  have hkeeps : L.Keeps (Pda.committee a.signer).address
      (fun r : Committee => r.isInitialized = true ∧ r.index = a.signer) :=
    hwf (.committee a.signer)
  have hstores := (readCommittee_of_keeps hkeeps).mp h.record
  exact ⟨hstores, (hkeeps.load hstores.load).2.2⟩

private theorem quorum_of_verify {accounts : List Address} {L : Ledger}
    {instructions : List SolanaInstruction} {numberOfSignatures : U8} {msg : T}
    {op : Operation} {nonceConfig nonceConfig' : F} (hwf : WellFormed L)
    (h : verify accounts L instructions numberOfSignatures msg op nonceConfig =
      .ok nonceConfig') :
    nonceEqual nonceConfig (HasMessageType.nonce msg) = true ∧
      ∃ approvals,
        Quorum L instructions numberOfSignatures msg op approvals := by
  obtain ⟨⟨hone, -⟩, -, approvals, hforall, hnodup, -, hstake⟩ :=
    verify_eq_ok.mp h
  have happroves : ∀ a ∈ approvals, ∃ i,
      Approves accounts L instructions msg op nonceConfig i a :=
    fun a ha => exists_of_forall₂ hforall ha
  have hsigners : approvals.map Approval.signer =
      approvals.map fun a => a.record.index := by
    apply List.map_congr_left
    intro a ha
    obtain ⟨i, hi⟩ := happroves a ha
    exact (approves_member hwf hi).2.symm
  have hlen : approvals.length = numberOfSignatures.toNat := by
    rw [← hforall.length_eq, List.length_range']
  obtain ⟨first, hfirst⟩ := List.exists_mem_of_length_pos
    (by omega : 0 < approvals.length)
  obtain ⟨i, hi⟩ := happroves first hfirst
  refine ⟨hi.nonce, approvals, hone, ?_, ?_, ?_, hi.operation, hstake⟩
  · exact hforall.imp fun _ _ hia => hia.resolved
  · rw [hsigners]
    exact hnodup
  · intro a ha
    obtain ⟨j, hj⟩ := happroves a ha
    exact ⟨(approves_member hwf hj).1.fetch, hj.isInitialized, hj.notBlocklisted⟩

/-- Whatever verification accepts in a reachable ledger has a quorum behind it. -/
theorem verify_sound (host : Host) (inputs : List Input)
    (accounts : List Address) (instructions : List SolanaInstruction)
    (numberOfSignatures : U8) (msg : T) (op : Operation)
    (nonceConfig nonceConfig' : F)
    (h : verify accounts (execute host inputs).state instructions
      numberOfSignatures msg op nonceConfig = .ok nonceConfig') :
    nonceEqual nonceConfig (HasMessageType.nonce msg) = true ∧
      ∃ approvals, Quorum (execute host inputs).state instructions
        numberOfSignatures msg op approvals :=
  quorum_of_verify (execute_wellFormed host inputs) h

end

/-! ### A small deployment -/

def sampleHost : Host where
  programAddress := fun seeds => BitVec.ofNat 256 (ofLeBytes seeds)
  createMetadataAccountsV3 := fun _ _ _ => true

def sampleMember : Pubkey :=
  0x1a5107f7681a02af2523a6daf372e10e3a0764c9d3fe4bd5b70ab18201985ad7

def sampleAdmin : Pubkey := 7

def sampleSubmitter : Pubkey := 8

def sampleUser : Pubkey := 9

def sampleFeeRecipient : Pubkey := 5

def sampleContext (accounts : List Address)
    (signatures : List SolanaInstruction) (unixTimestamp : Int) : Context where
  remainingAccounts := accounts
  instructions := ⟨0, [], []⟩ :: signatures
  unixTimestamp := unixTimestamp

/-- Bridge 1 supports token 0 of chain 2, with a fee of one tenth of a percent. -/
def sampleBridge : Input :=
  .createBridgeConfig
    (sampleContext [(Pda.tokenConfig 2 0).address, (Pda.supportedChain 2).address]
      [] 0)
    Constants.supperAdmin 1 "sBTC" "sBTC" "" sampleAdmin sampleFeeRecipient [0]
    [2] [1000] [0]

def sampleCommittee : Input :=
  .createBridgeCommittee
    (sampleContext [(Pda.committee sampleMember).address] [] 0) sampleAdmin 1
    sampleSubmitter [sampleMember] [10000]

def sampleLimit : UpdateLimiterMsg where
  messageType := 3
  version := 1
  nonce := 0
  chainId := 1
  targetChainId := 2
  tokenId := 0
  totalLimit := 1000000

def sampleLimitSignature : List U8 :=
  keyBytes 0x84faee103b838950f7305cecc8e8de60c9be53304651464d20f495f3bcf75c8b ++
    keyBytes 0x00633b12b2b7bf9b5a11553162ac7642075d001fe8a40349754641f86164e24a

def sampleLimitInstruction : SolanaInstruction :=
  createInstructionWithPublicKey sampleMember sampleLimitSignature
    (encodeMessage sampleLimit)

def sampleMintMessage : MintSbtcMessage where
  messageType := 0
  version := 1
  nonce := 0
  sourceChainId := 2
  sourceTokenId := 0
  fromAddress := []
  toChainId := 1
  toAddress := sampleUser
  amount := 1000

def sampleMintSignature : List U8 :=
  keyBytes 0x42c8597aa9ad87001a735291a72395427e241f8146eb668350be1200d0f703f0 ++
    keyBytes 0x050f5dd935e7002dcd7e2d358fff26fb0094cb88969826818c6f285a8ce0e580

def sampleMintInstruction : SolanaInstruction :=
  createInstructionWithPublicKey sampleMember sampleMintSignature
    (encodeMessage sampleMintMessage)

def secondMember : Pubkey :=
  0x94b3c98f5b0ff65da237eeb4918a8dcbcc7e4cc36654a3565f177da80e773981

def secondMintSignature : List U8 :=
  keyBytes 0xcf2706841df32db78a8bcb720a4c71be3c356fd51aebff2ef2cc6d30b43d0d75 ++
    keyBytes 0xe898d95692da108561baf401eb649e78fd2cef59f7d3d6e45ea44fafdd20745

def memberAccounts : List Address :=
  [(Pda.committee sampleMember).address, (Pda.committee secondMember).address]

/-- Two members, neither of whom has enough stake alone. -/
def jointCommittee : Input :=
  .createBridgeCommittee (sampleContext memberAccounts [] 0) sampleAdmin 1
    sampleSubmitter [sampleMember, secondMember] [4000, 3000]

def jointLedger : Ledger :=
  (execute sampleHost [sampleBridge, jointCommittee]).state

def jointSigners : List SolanaInstruction :=
  [sampleMintInstruction, createInstructionWithPublicKey secondMember
    secondMintSignature (encodeMessage sampleMintMessage)]

theorem verify_sound_sample :
    nonceEqual NoncesDummy.mk (HasMessageType.nonce sampleMintMessage) = true ∧
      ∃ approvals, Quorum
        jointLedger (⟨0, [], []⟩ :: jointSigners) 2 sampleMintMessage
        .tokenTransfer approvals :=
  verify_sound sampleHost [sampleBridge, jointCommittee] memberAccounts
    (⟨0, [], []⟩ :: jointSigners) 2 sampleMintMessage .tokenTransfer
    NoncesDummy.mk NoncesDummy.mk (by decide +kernel)

end SolBtcBridge.Properties
