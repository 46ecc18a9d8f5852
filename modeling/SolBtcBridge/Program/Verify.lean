import SolBtcBridge.Program.Ed25519
import SolBtcBridge.Program.Seeds

/-!
# Committee verification

`verify` walks the Ed25519 instructions at indices 1 to n, looks up the
committee record of each signer, and compares the accumulated stake with the
threshold of the operation.
-/

namespace SolBtcBridge.Program

open SolBtcBridge.Foundation
open SolBtcBridge.Runtime

def transferStakeRequired : U16 := 6666

def freezingStakeRequired : U16 := 450

def unfreezingStakeRequired : U16 := 5001

def upgradeStakeRequired : U16 := 5001

def blocklistStakeRequired : U16 := 5001

def bridgeLimitStakeRequired : U16 := 5001

def updateTokenPriceStakeRequired : U16 := 5001

def addEvmTokensStakeRequired : U16 := 5001

def updateChainidStakeRequired : U16 := 5001

/-- `true` for a freeze, which is code 0. -/
def decodeEmergencyOpPayload (payload : List U8) : Result Bool :=
  match payload with
  | [emergencyOpCode] =>
      if 1 < emergencyOpCode.toNat then .error (.program .invalidOpCode)
      else .ok (emergencyOpCode = 0)
  | _ => .error (.program .invalidPayloadLength)

def requiredStake {T : Type} [HasMessageType T] [HasPayload T] (message : T) :
    Result U16 := do
  let op ← orFail (.program .invalidMessageType)
    (Operation.tryFrom (messageType message))
  match op with
  | .tokenTransfer => return transferStakeRequired
  | .blocklist => return blocklistStakeRequired
  | .emergencyOp =>
      -- the decoded payload is dropped and the constant is tested instead
      let isFreezing := true
      let _ ← decodeEmergencyOpPayload (payload message)
      if isFreezing then return freezingStakeRequired
      else return unfreezingStakeRequired
  | .updateBridgeLimit => return bridgeLimitStakeRequired
  | .updateTokenPrice => return updateTokenPriceStakeRequired
  | .upgrade => return upgradeStakeRequired
  | .addEvmTokens => return addEvmTokensStakeRequired
  | .updateChainId => return updateChainidStakeRequired

def findAtaInAccounts (remainingAccounts : List Address) (key : Address) :
    Option Address :=
  remainingAccounts.find? fun account => account = key

def getCommiteeAccount (remainingAccounts : List Address)
    (committeeAddress : Pubkey) : Result Address :=
  orFail (.program .committeeConfigAddressMissing)
    (findAtaInAccounts remainingAccounts (Pda.committee committeeAddress).address)

/-- The raw data of an account; the bytes of foreign accounts are never read. -/
def borrowData (account : Account) : List U8 :=
  match account.body with
  | .bridge data => data
  | _ => []

/-- `Committee::try_from_slice` over everything after the header. -/
def readCommittee (account : Account) : Result Committee := do
  let data := borrowData account
  let fields ← sliceOrPanic data anchorHeaderLen data.length
  orFail (.program .invalidSigner) (Committee.codec.tryFromSlice fields)

/-! ## The signature loop -/

section

variable {T : Type} [DecidableEq T] [HasMessageType T] [HasPayload T]
  [DeserializeMessage T] {F : Type} [NoncesTrait F]

def verifySigner (remainingAccounts : List Address) (L : Ledger)
    (instructions : List SolanaInstruction) (msg : T) (opType : Operation)
    (nonceConfig : F) (index : Nat) (seenIndices : List Pubkey)
    (approvalStake : U16) : Result (List Pubkey × U16) := do
  let signerPubkey ← resolveEd25519WithIndex instructions index msg
  require (Operation.tryFrom (messageType msg) = some opType)
    (.program .messageOpTypeMismatch)
  require (nonceEqual nonceConfig (HasMessageType.nonce msg) = true)
    (.program .invalidNonce)
  let pda ← getCommiteeAccount remainingAccounts signerPubkey
  let committeeConfig ← readCommittee (L pda)
  require (¬ committeeConfig.isBlocklisted ∧ committeeConfig.isInitialized)
    (.program .invalidCommittee)
  require (committeeConfig.index ∉ seenIndices) (.program .duplicateSignature)
  let approvalStake ← addOrPanic approvalStake committeeConfig.stakeAmount
  return (committeeConfig.index :: seenIndices, approvalStake)

def verifyLoop (remainingAccounts : List Address) (L : Ledger)
    (instructions : List SolanaInstruction) (msg : T) (opType : Operation)
    (nonceConfig : F) : List Nat → List Pubkey → U16 → Result U16
  | [], _, approvalStake => .ok approvalStake
  | index :: indices, seenIndices, approvalStake => do
      let (seenIndices, approvalStake) ← verifySigner remainingAccounts L
        instructions msg opType nonceConfig index seenIndices approvalStake
      verifyLoop remainingAccounts L instructions msg opType nonceConfig
        indices seenIndices approvalStake

/-- Returns the nonce record as the caller writes it back. -/
def verify (remainingAccounts : List Address) (L : Ledger)
    (instructions : List SolanaInstruction) (numberOfSignatures : U8)
    (msg : T) (opType : Operation) (nonceConfig : F) : Result F := do
  require (1 ≤ numberOfSignatures.toNat) (.program .insufficientSignatures)
  -- the loop bound `number_of_signatures + 1` is itself a checked `u8`
  let stop ← addOrPanic numberOfSignatures 1
  let approvalStake ← verifyLoop remainingAccounts L instructions msg opType
    nonceConfig (List.range' 1 (stop.toNat - 1)) [] 0
  let nonceConfig ← incrementNonce nonceConfig
  let required ← requiredStake msg
  require (required.toNat ≤ approvalStake.toNat) (.program .insufficientStake)
  return nonceConfig

end

end SolBtcBridge.Program
