import SolBtcBridge.Program.Verify
import SolBtcBridge.Runtime.Token

/-!
# Bridge, chain and token configuration

`create_bridge_config` writes a batch of records by hand into accounts it
creates itself; the two `add_or_update` instructions go through typed accounts.
Accounts that exist are loaded first, then missing ones are created, and only
then the constraints are checked.
-/

namespace SolBtcBridge.Program

open SolBtcBridge.Foundation
open SolBtcBridge.Runtime

/-- `create_account_ifn_exist`: an address without lamports gets a fresh account. -/
def createAccountIfnExist (L : Ledger) (target : Address) (space : Nat) :
    Result Ledger :=
  if (L target).lamports = 0 then do
    let account ← (L target).allocate space
    return L.set target account
  else .ok L

/-- One position of the four argument vectors of `create_bridge_config`. -/
structure TokenEntry where
  supportedChainId : U8
  tokenId : U8
  tokenFeePercentage : U64
  tokenMinAmount : U64

def tokenEntries (tokenIds supportedChains : List U8)
    (tokenFeePercentages tokenMinAmount : List U64) : List TokenEntry :=
  (supportedChains.zip (tokenIds.zip (tokenFeePercentages.zip tokenMinAmount))).map
    fun (c, t, f, m) => ⟨c, t, f, m⟩

def TokenEntry.tokenConfig (entry : TokenEntry) : TokenConfig where
  isInitialized := true
  withdrawPaused := false
  tokenId := entry.tokenId
  chainId := entry.supportedChainId
  native := false
  tokenFeePercentage := entry.tokenFeePercentage
  tokenMinAmount := entry.tokenMinAmount
  mintTotal := 0
  padding := Vector.replicate 10 0

def listedChain (supportedChainId : U8) : SupportedChainConfig where
  isInitialized := true
  chainId := supportedChainId
  supported := true
  mintTotal := 0
  padding := Vector.replicate 10 0

def createTokenConfig (L : Ledger) (remainingAccounts : List Address)
    (entry : TokenEntry) : Result Ledger := do
  let pda ← orFail (.program .tokenConfigAddressMissing)
    (findAtaInAccounts remainingAccounts
      (Pda.tokenConfig entry.supportedChainId entry.tokenId).address)
  if (L pda).lamports = 0 then
    let L ← createAccountIfnExist L pda (AnchorAccount.len TokenConfig)
    require (entry.tokenFeePercentage.toNat < Constants.feeDenominator)
      (.program .biggerThanFeeDenominator)
    L.serializeRaw pda entry.tokenConfig .bridgeConfigSerializationError
  else .ok L

def createSupportedChain (L : Ledger) (remainingAccounts : List Address)
    (supportedChainId : U8) : Result Ledger := do
  let pda ← orFail (.program .supportedChainAddressMissing)
    (findAtaInAccounts remainingAccounts
      (Pda.supportedChain supportedChainId).address)
  if (L pda).lamports = 0 then
    let L ← createAccountIfnExist L pda (AnchorAccount.len SupportedChainConfig)
    L.serializeRaw pda (listedChain supportedChainId)
      .supportedChainSerializationError
  else .ok L

def createEntries (remainingAccounts : List Address) (bridgeConfig : BridgeConfig)
    (chainId : U8) : Ledger → List TokenEntry → Result Ledger
  | L, [] => .ok L
  | L, entry :: entries => do
      require (entry.supportedChainId ≠ chainId)
        (.program .chainIdShouldDiffFromSolanaChainId)
      let L ← createTokenConfig L remainingAccounts entry
      require (entry.supportedChainId ≠ bridgeConfig.chainId)
        (.program .cannotSupportSelf)
      let L ← createSupportedChain L remainingAccounts entry.supportedChainId
      createEntries remainingAccounts bridgeConfig chainId L entries

def createBridgeConfig (host : Host) (L : Ledger) (ctx : Context) (payer : Pubkey)
    (chainId : U8) (tokenName tokenSymbol tokenUri : String)
    (administrator feeRecipient : Pubkey) (tokenIds supportedChains : List U8)
    (tokenFeePercentages tokenMinAmount : List U64) :
    Result (Ledger × List Event) := do
  let bridgePda := (Pda.bridgeConfig chainId).address
  let mintPda := (Pda.sbtcMint chainId).address
  let (L, bridgeConfig) ← L.init BridgeConfig bridgePda
    (AnchorAccount.len BridgeConfig)
  let L ← L.initMint mintPda mintPda
  require (payer = Constants.supperAdmin) (.program .invalidAdminAddress)
  require (tokenIds.length = supportedChains.length) (.program .invalidTokenIds)
  require (tokenIds.length = tokenFeePercentages.length)
    (.program .invalidTokenFeePercentage)
  require (tokenIds.length = tokenMinAmount.length)
    (.program .invalidTokenMinimumAmount)
  require (feeRecipient ≠ 0) (.program .invalidFeeRecipientAddress)
  require (administrator ≠ 0) (.program .invalidAdminAddress)
  let bridgeConfig : BridgeConfig :=
    { bridgeConfig with
      isInitialized := true
      chainId := chainId
      admin := administrator
      feeRecipient := feeRecipient
      sbtcMint := host.programAddress (Pda.sbtcMint chainId).seedBytes }
  let L ← createEntries ctx.remainingAccounts bridgeConfig chainId L
    (tokenEntries tokenIds supportedChains tokenFeePercentages tokenMinAmount)
  require (host.createMetadataAccountsV3 tokenName tokenSymbol tokenUri = true)
    .invocation
  let L ← L.exit bridgePda bridgeConfig
  return (L, [])

def SupportedChainConfig.addOrUpdate (supportedChainId : U8) (supported : Bool)
    (record : SupportedChainConfig) : SupportedChainConfig :=
  if ¬ record.isInitialized then
    { record with
      chainId := supportedChainId
      mintTotal := 0
      supported := supported
      isInitialized := true }
  else { record with supported := supported }

def addOrUpdateChain (L : Ledger) (payer : Pubkey) (chainId supportedChainId : U8)
    (supported : Bool) : Result (Ledger × List Event) := do
  let pda := (Pda.supportedChain supportedChainId).address
  let bridgeConfig ← L.load BridgeConfig (Pda.bridgeConfig chainId).address
  let (L, record) ← L.initIfNeeded SupportedChainConfig pda
    (AnchorAccount.len SupportedChainConfig)
  require (bridgeConfig.admin = payer) (.program .invalidAdminAddress)
  require (bridgeConfig.chainId ≠ supportedChainId)
    (.program .chainIdShouldDiffFromSolanaChainId)
  let L ← L.exit pda (record.addOrUpdate supportedChainId supported)
  return (L, [])

def TokenConfig.addOrUpdate (supportedChainId tokenId : U8)
    (tokenFeePercentages tokenMinAmount : U64) (withdrawPaused : Bool)
    (record : TokenConfig) : TokenConfig :=
  if ¬ record.isInitialized then
    { record with
      chainId := supportedChainId
      tokenId := tokenId
      tokenFeePercentage := tokenFeePercentages
      tokenMinAmount := tokenMinAmount
      native := false
      mintTotal := 0
      withdrawPaused := withdrawPaused
      isInitialized := true }
  else
    { record with
      tokenFeePercentage := tokenFeePercentages
      tokenMinAmount := tokenMinAmount
      withdrawPaused := withdrawPaused }

def addOrUpdateChainToken (L : Ledger) (payer : Pubkey)
    (chainId supportedChainId tokenId : U8)
    (tokenFeePercentages tokenMinAmount : U64) (withdrawPaused : Bool) :
    Result (Ledger × List Event) := do
  let pda := (Pda.tokenConfig supportedChainId tokenId).address
  let bridgeConfig ← L.load BridgeConfig (Pda.bridgeConfig chainId).address
  let _ ← L.load SupportedChainConfig (Pda.supportedChain supportedChainId).address
  let (L, record) ← L.initIfNeeded TokenConfig pda (AnchorAccount.len TokenConfig)
  require (bridgeConfig.admin = payer) (.program .invalidAdminAddress)
  require (bridgeConfig.chainId ≠ supportedChainId)
    (.program .chainIdShouldDiffFromSolanaChainId)
  require (tokenFeePercentages.toNat < Constants.feeDenominator)
    (.program .biggerThanFeeDenominator)
  let L ← L.exit pda (record.addOrUpdate supportedChainId tokenId
    tokenFeePercentages tokenMinAmount withdrawPaused)
  return (L, [])

end SolBtcBridge.Program
