import SolBtcBridge.Program.Sdk
import SolBtcBridge.Program.Step

/-!
# The transactions of the TypeScript client

`createTx` puts the compute budget first and one Ed25519 instruction for each
signature behind it, calls the program last, and lists the accounts that the
handler will look for.  Addresses are arguments of `createTx`; the functions
`mintSBtc`, `updateLimiter` and `withdrawBtc` of the tests fill them in.
-/

namespace SolBtcBridge.Program

open SolBtcBridge.Foundation
open SolBtcBridge.Runtime

def computeBudgetProgramId : Pubkey :=
  0x403a9b432c6b12f7c5bbe58cbce79bc372baadecff321721e56f460603

def setComputeUnitLimit (units : U32) : SolanaInstruction where
  programId := computeBudgetProgramId
  accounts := []
  data := 2 :: leBytes 4 units.toNat

structure CommitteeSignature where
  encoded : List U8
  signature : Vector U8 64
  publicKey : Pubkey

/-- `nacl.sign.detached` with the secret key that belongs to a public key. -/
abbrev SignDetached := Pubkey → List U8 → Vector U8 64

def createSignature {T : Type} [BaseMsg T] (signDetached : SignDetached) (msg : T)
    (signer : Pubkey) : Option CommitteeSignature := do
  let encoded ← BaseMsg.serialize msg
  return ⟨encoded, signDetached signer encoded, signer⟩

def ixEd25519Programs (signatures : List CommitteeSignature) :
    List SolanaInstruction :=
  signatures.map fun signature =>
    createInstructionWithPublicKey signature.publicKey
      signature.signature.toList signature.encoded

structure ClientTransaction where
  call : Context → Input
  remainingAccounts : List Address
  preInstructions : List SolanaInstruction

/-- What the program receives; its own instruction is the last one. -/
def ClientTransaction.input (tx : ClientTransaction)
    (instruction : SolanaInstruction) (unixTimestamp : Int) : Input :=
  tx.call ⟨tx.remainingAccounts, tx.preInstructions ++ [instruction],
    unixTimestamp⟩

/-- The precompile accepts the signatures, and the program its own instruction. -/
def ClientTransaction.Lands (host : Host) (verifies : SignedBytes → Bool)
    (L : Ledger) (tx : ClientTransaction) (instruction : SolanaInstruction)
    (unixTimestamp : Int) : Prop :=
  (∀ ix ∈ tx.preInstructions, ix.programId = ed25519ProgramId →
    PrecompileAccepts verifies (tx.preInstructions ++ [instruction]) ix.data) ∧
    ∃ out, step host L (tx.input instruction unixTimestamp) = .ok out

def getCommitteePda (committeeAddress : Pubkey) : Address :=
  (Pda.committee committeeAddress).address

structure MintSbtcMessageTxnDetails where
  signatures : List CommitteeSignature
  msg : MintSbtcMessage
  numberOfSignatures : U8
  submitter : Pubkey
  committeePdas : List Address
  sbtcMint : Address
  userSbtcAta : Address
  user : Pubkey

def MintSbtcMessageTxnDetails.createTx (details : MintSbtcMessageTxnDetails) :
    ClientTransaction where
  call ctx := .mintSbtcWithSignatures ctx details.submitter
    details.numberOfSignatures details.msg
  remainingAccounts := details.committeePdas ++
    [details.sbtcMint, details.userSbtcAta, .wallet details.user]
  preInstructions :=
    setComputeUnitLimit 10000000 :: ixEd25519Programs details.signatures

def numberOfSignatures (committeeKeypairs : List Pubkey) : Option U8 :=
  if committeeKeypairs.length < 2 ^ 8 then
    some (BitVec.ofNat 8 committeeKeypairs.length)
  else none

def mintSBtc (signDetached : SignDetached) (submitter : Pubkey)
    (committeeKeypairs : List Pubkey) (msg : MintSbtcMessage) :
    Option ClientTransaction := do
  let signatures ← committeeKeypairs.mapM (createSignature signDetached msg)
  let numberOfSignatures ← numberOfSignatures committeeKeypairs
  let details : MintSbtcMessageTxnDetails :=
    { signatures, msg, numberOfSignatures, submitter
      committeePdas := committeeKeypairs.map getCommitteePda
      sbtcMint := (Pda.sbtcMint msg.toChainId).address
      userSbtcAta := getAssociatedTokenAddress msg.toAddress
        (Pda.sbtcMint msg.toChainId).address
      user := msg.toAddress }
  return details.createTx

structure UpdateLimiterMsgTxnDetails where
  signatures : List CommitteeSignature
  msg : UpdateLimiterMsg
  numberOfSignatures : U8
  submitter : Pubkey
  committeePdas : List Address

def UpdateLimiterMsgTxnDetails.createTx (details : UpdateLimiterMsgTxnDetails) :
    ClientTransaction where
  call ctx := .addOrUpdateLimiterWithSignatures ctx details.submitter
    details.numberOfSignatures details.msg
  remainingAccounts := details.committeePdas
  preInstructions :=
    setComputeUnitLimit 10000000 :: ixEd25519Programs details.signatures

def updateLimiterTx (signDetached : SignDetached) (submitter : Pubkey)
    (committeeKeypairs : List Pubkey) (msg : UpdateLimiterMsg) :
    Option ClientTransaction := do
  let signatures ← committeeKeypairs.mapM (createSignature signDetached msg)
  let numberOfSignatures ← numberOfSignatures committeeKeypairs
  let details : UpdateLimiterMsgTxnDetails :=
    { signatures, msg, numberOfSignatures, submitter
      committeePdas := committeeKeypairs.map getCommitteePda }
  return details.createTx

structure WithdrawBtcMessageTxnDetails where
  msg : WithdrawBtcMessage
  committeePdas : List Address
  sbtcMint : Address
  userSbtcAta : Address
  user : Pubkey
  feeRecipientSbtcAta : Address
  feeRecipient : Pubkey

def WithdrawBtcMessageTxnDetails.createTx
    (details : WithdrawBtcMessageTxnDetails) : ClientTransaction where
  call ctx := .withdrawBtc ctx details.user details.msg
  remainingAccounts := details.committeePdas ++
    [details.sbtcMint, details.userSbtcAta, .wallet details.user,
      details.feeRecipientSbtcAta, .wallet details.feeRecipient]
  preInstructions := [setComputeUnitLimit 1000000]

def withdrawBtcTx (committeeKeypairs : List Pubkey) (user feeRecipient : Pubkey)
    (msg : WithdrawBtcMessage) : ClientTransaction :=
  let details : WithdrawBtcMessageTxnDetails :=
    { msg
      committeePdas := committeeKeypairs.map getCommitteePda
      sbtcMint := (Pda.sbtcMint msg.chainId).address
      userSbtcAta := getAssociatedTokenAddress user
        (Pda.sbtcMint msg.chainId).address
      user
      feeRecipientSbtcAta := getAssociatedTokenAddress feeRecipient
        (Pda.sbtcMint msg.chainId).address
      feeRecipient }
  details.createTx

/-! ## Setting up a bridge -/

structure CreateBridgeConfigTxnDetails where
  chainId : U8
  payerAdmin : Pubkey
  chainIds : List U8
  tokenIds : List U8
  tokenFeePercentages : List U64
  tokenMinAmounts : List U64
  feeRecipient : Pubkey
  tokenConfigPdas : List Address
  supportedChainsPdas : List Address

/-- The payer becomes the administrator; name, symbol and uri are fixed. -/
def CreateBridgeConfigTxnDetails.createTx
    (details : CreateBridgeConfigTxnDetails) : ClientTransaction where
  call ctx := .createBridgeConfig ctx details.payerAdmin details.chainId "SBTC"
    "SBTC" "https://app.sbtc.ai/logo.svg" details.payerAdmin
    details.feeRecipient details.tokenIds details.chainIds
    details.tokenFeePercentages details.tokenMinAmounts
  remainingAccounts := details.tokenConfigPdas ++ details.supportedChainsPdas
  preInstructions := []

def createBridgeConfigTx (payerAdmin feeRecipient : Pubkey) (chainId : U8)
    (supportedChains supportedTokensIndex : List U8)
    (tokenFeePercentages tokenMinAmounts : List U64) : ClientTransaction :=
  let details : CreateBridgeConfigTxnDetails :=
    { chainId
      payerAdmin
      chainIds := supportedChains
      tokenIds := supportedTokensIndex
      tokenFeePercentages
      tokenMinAmounts
      feeRecipient
      tokenConfigPdas := supportedTokensIndex.zipWith
        (fun tokenId chainId => (Pda.tokenConfig chainId tokenId).address)
        supportedChains
      supportedChainsPdas := supportedChains.map fun chainId =>
        (Pda.supportedChain chainId).address }
  details.createTx

/-- `createCommitteeConfig` of the tests. -/
def createCommitteeConfigTx (payer : Pubkey) (chainId : U8) (submitter : Pubkey)
    (committeeKeypairs : List Pubkey) (stakes : List U16) : ClientTransaction where
  call ctx := .createBridgeCommittee ctx payer chainId submitter
    committeeKeypairs stakes
  remainingAccounts := committeeKeypairs.map getCommitteePda
  preInstructions := []

end SolBtcBridge.Program
