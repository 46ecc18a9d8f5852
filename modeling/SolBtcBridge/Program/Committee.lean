import SolBtcBridge.Program.Config

/-!
# Committee members and submitters
-/

namespace SolBtcBridge.Program

open SolBtcBridge.Foundation
open SolBtcBridge.Runtime

def listedMember (committeeAddress : Pubkey) (stake : U16) : Committee where
  isInitialized := true
  index := committeeAddress
  stakeAmount := stake
  isBlocklisted := false
  padding := Vector.replicate 10 0

def createMember (L : Ledger) (remainingAccounts : List Address)
    (committeeAddress : Pubkey) (stake : U16) : Result Ledger := do
  let pda ← getCommiteeAccount remainingAccounts committeeAddress
  if (L pda).lamports = 0 then
    let L ← createAccountIfnExist L pda (AnchorAccount.len Committee)
    L.serializeRaw pda (listedMember committeeAddress stake)
      .bridgeCommitteeSerializationError
  else .ok L

def createMembers (remainingAccounts : List Address) :
    Ledger → List (Pubkey × U16) → Result Ledger
  | L, [] => .ok L
  | L, (committeeAddress, stake) :: members => do
      let L ← createMember L remainingAccounts committeeAddress stake
      createMembers remainingAccounts L members

/-- The submitter's part of `create_bridge_committee`; the flag is never set. -/
def Submitter.create (submitter : Pubkey) (record : Submitter) : Submitter :=
  if ¬ record.isInitialized then { record with submitter, isSubmitter := true }
  else record

def createBridgeCommittee (L : Ledger) (ctx : Context) (payer : Pubkey)
    (chainId : U8) (submitter : Pubkey) (committee : List Pubkey)
    (stake : List U16) : Result (Ledger × List Event) := do
  let pda := (Pda.submitter submitter).address
  let bridgeConfig ← L.load BridgeConfig (Pda.bridgeConfig chainId).address
  let (L, record) ← L.initIfNeeded Submitter pda (AnchorAccount.len Submitter)
  require (bridgeConfig.admin = payer) (.program .invalidAdminAddress)
  require (committee.length < 256) (.program .committeeLengthExceedsLimit)
  require (committee.length = stake.length)
    (.program .committeeAndStakeLengthMismatch)
  let L ← createMembers ctx.remainingAccounts L (committee.zip stake)
  let L ← L.exit pda (record.create submitter)
  return (L, [])

def Committee.addOrUpdate (committee : Pubkey) (stake : U16)
    (isBlocklisted : Bool) (record : Committee) : Committee :=
  if ¬ record.isInitialized then
    { record with
      isInitialized := true
      index := committee
      stakeAmount := stake
      isBlocklisted := isBlocklisted }
  else
    { record with
      index := committee
      stakeAmount := stake
      isBlocklisted := isBlocklisted }

def addOrUpdateCommittee (L : Ledger) (payer : Pubkey) (chainId : U8)
    (committee : Pubkey) (stake : U16) (isBlocklisted : Bool) :
    Result (Ledger × List Event) := do
  let pda := (Pda.committee committee).address
  let bridgeConfig ← L.load BridgeConfig (Pda.bridgeConfig chainId).address
  let (L, record) ← L.initIfNeeded Committee pda (AnchorAccount.len Committee)
  require (bridgeConfig.admin = payer) (.program .invalidAdminAddress)
  let L ← L.exit pda (record.addOrUpdate committee stake isBlocklisted)
  return (L, [])

def Submitter.addOrUpdate (submitter : Pubkey) (isSubmitter : Bool)
    (record : Submitter) : Submitter :=
  if ¬ record.isInitialized then { record with submitter, isSubmitter }
  else { record with isSubmitter }

def addOrUpdateSubmitter (L : Ledger) (payer : Pubkey) (chainId : U8)
    (submitter : Pubkey) (isSubmitter : Bool) : Result (Ledger × List Event) := do
  let pda := (Pda.submitter submitter).address
  let bridgeConfig ← L.load BridgeConfig (Pda.bridgeConfig chainId).address
  let (L, record) ← L.initIfNeeded Submitter pda (AnchorAccount.len Submitter)
  require (bridgeConfig.admin = payer) (.program .invalidAdminAddress)
  let L ← L.exit pda (record.addOrUpdate submitter isSubmitter)
  return (L, [])

end SolBtcBridge.Program
