import SolBtcBridge.Program.Limiter
import SolBtcBridge.Runtime.Token

/-!
# Minting and withdrawing

`mint_sbtc_with_signatures` checks the committee's message and mints sBTC to
the user; `withdraw_btc` charges the fee, burns the rest and logs an event for
the source chain.  Both find their token accounts among the remaining accounts.
-/

namespace SolBtcBridge.Program

open SolBtcBridge.Foundation
open SolBtcBridge.Runtime

def dataIsEmpty (account : Account) : Bool :=
  match account.body with
  | .system => true
  | .bridge data => data.isEmpty
  | _ => false

def createAssociatedTokenAccountIfnInit (L : Ledger) (owner mint : Address)
    (associatedTokenAccount : Address) : Result Ledger :=
  if dataIsEmpty (L associatedTokenAccount) then do
    -- the associated token program accepts only the derived address
    require (associatedTokenAccount = .ata owner mint) .invocation
    L.initTokenAccount associatedTokenAccount mint owner
  else .ok L

namespace MintSbtc

structure Found where
  userAccount : Option Address
  userSbtcAta : Option Address
  sbtcMint : Option Address

def Found.isComplete (found : Found) : Bool :=
  found.userSbtcAta.isSome && found.sbtcMint.isSome && found.userAccount.isSome

def Found.visit (user userAta sbtcMint : Address) (found : Found)
    (account : Address) : Found :=
  if account = userAta then { found with userSbtcAta := some account }
  else if account = sbtcMint then { found with sbtcMint := some account }
  else if account = user then { found with userAccount := some account }
  else found

def scan (user userAta sbtcMint : Address) : List Address → Found → Found
  | [], found => found
  | account :: accounts, found =>
      let found := found.visit user userAta sbtcMint account
      if found.isComplete then found else scan user userAta sbtcMint accounts found

def getAccounts (remainingAccounts : List Address) (user : Pubkey) (chainId : U8) :
    Result (Address × Address × Address) := do
  let sbtcMint := (Pda.sbtcMint chainId).address
  let userAta := getAssociatedTokenAddress user sbtcMint
  let found := scan (.wallet user) userAta sbtcMint remainingAccounts
    ⟨none, none, none⟩
  let userAccount ← orFail (.program .userNotFound) found.userAccount
  let userSbtcAta ← orFail (.program .userSbtcAtaNotFound) found.userSbtcAta
  let sbtcMintAccount ← orFail (.program .sbtcMintAccountNotFound) found.sbtcMint
  return (userAccount, userSbtcAta, sbtcMintAccount)

end MintSbtc

def mintSbtcWithSignatures (L : Ledger) (ctx : Context) (submitter : Pubkey)
    (numberOfSignatures : U8) (msg : MintSbtcMessage) :
    Result (Ledger × List Event) := do
  let bridgePda := (Pda.bridgeConfig msg.toChainId).address
  let chainPda := (Pda.supportedChain msg.sourceChainId).address
  let tokenPda := (Pda.tokenConfig msg.sourceChainId msg.sourceTokenId).address
  let noncePda := (Pda.mintNonce msg.sourceChainId msg.nonce).address
  let limiterPda := (Pda.limiter msg.sourceChainId msg.sourceTokenId).address
  let submitterAccount ← L.load Submitter (Pda.submitter submitter).address
  let bridgeConfig ← L.load BridgeConfig bridgePda
  let supportedChainConfig ← L.load SupportedChainConfig chainPda
  let tokenConfig ← L.load TokenConfig tokenPda
  let limiter ← L.load ChainTokenLimiter limiterPda
  let (L, nonceConfig) ← L.init NoncesDummy noncePda (AnchorAccount.len Nonces)
  require submitterAccount.isSubmitter (.program .notSubmitter)
  require bridgeConfig.isInitialized (.program .bridgeConfigNotInitialized)
  require (¬ bridgeConfig.withdrawPaused) (.program .bridgeWithdrawPaused)
  require (msg.sourceChainId ≠ msg.toChainId)
    (.program .chainIdShouldDiffFromSolanaChainId)
  require supportedChainConfig.isInitialized
    (.program .supportedChainConfigNotInitialized)
  require supportedChainConfig.supported (.program .invalidChain)
  require tokenConfig.isInitialized (.program .tokenConfigNotInitialized)
  require (¬ tokenConfig.withdrawPaused) (.program .withdrawPaused)
  require (tokenConfig.tokenMinAmount.toNat ≤ msg.amount.toNat)
    (.program .invalidMinAmount)
  let nonceConfig ← verify ctx.remainingAccounts L ctx.instructions
    numberOfSignatures msg .tokenTransfer nonceConfig
  let (userAccount, userSbtcAta, sbtcMint) ←
    MintSbtc.getAccounts ctx.remainingAccounts msg.toAddress msg.toChainId
  let L ← createAssociatedTokenAccountIfnInit L userAccount sbtcMint userSbtcAta
  let L ← L.mintTo sbtcMint userSbtcAta sbtcMint msg.amount
  let chainMintTotal ← addOrPanic supportedChainConfig.mintTotal
    (msg.amount.setWidth 128)
  let tokenMintTotal ← addOrPanic tokenConfig.mintTotal
    (msg.amount.setWidth 128)
  let (limiter, limitEvent) ←
    checkTransfer limiter ctx.unixTimestamp msg.amount
  let event : MintSbtcEvent :=
    { messageType := msg.messageType, version := msg.version,
      nonce := msg.nonce, sourceChainId := msg.sourceChainId,
      sourceTokenId := msg.sourceTokenId, fromAddress := msg.fromAddress,
      toChainId := msg.toChainId, toAddress := msg.toAddress,
      amount := msg.amount, chainMintTotal, tokenMintTotal }
  let L ← L.exit bridgePda bridgeConfig
  let L ← L.exit chainPda { supportedChainConfig with mintTotal := chainMintTotal }
  let L ← L.exit tokenPda { tokenConfig with mintTotal := tokenMintTotal }
  let L ← L.exit noncePda nonceConfig
  let L ← L.exit limiterPda limiter
  return (L, [.limit limitEvent, .mintSbtc event])

/-! ## Withdrawing -/

namespace WithdrawBtc

structure Found where
  userSbtcAta : Option Address
  feeRecipient : Option Address
  feeRecipientSbtcAta : Option Address
  sbtcMint : Option Address

def Found.isComplete (found : Found) : Bool :=
  found.userSbtcAta.isSome && found.feeRecipient.isSome &&
    found.feeRecipientSbtcAta.isSome && found.sbtcMint.isSome

def Found.visit (userAta feeRecipient feeRecipientAta sbtcMint : Address)
    (found : Found) (account : Address) : Found :=
  if account = userAta then { found with userSbtcAta := some account }
  else if account = feeRecipient then { found with feeRecipient := some account }
  else if account = feeRecipientAta then
    { found with feeRecipientSbtcAta := some account }
  else if account = sbtcMint then { found with sbtcMint := some account }
  else found

def scan (userAta feeRecipient feeRecipientAta sbtcMint : Address) :
    List Address → Found → Found
  | [], found => found
  | account :: accounts, found =>
      let found := found.visit userAta feeRecipient feeRecipientAta sbtcMint
        account
      if found.isComplete then found
      else scan userAta feeRecipient feeRecipientAta sbtcMint accounts found

def getAccounts (remainingAccounts : List Address) (user feeRecipient : Pubkey)
    (chainId : U8) : Result (Address × Address × Address × Address) := do
  let sbtcMint := (Pda.sbtcMint chainId).address
  let userAta := getAssociatedTokenAddress user sbtcMint
  let feeRecipientAta := getAssociatedTokenAddress feeRecipient sbtcMint
  let found := scan userAta (.wallet feeRecipient) feeRecipientAta sbtcMint
    remainingAccounts ⟨none, none, none, none⟩
  let userSbtcAta ← orFail (.program .userSbtcAtaNotFound) found.userSbtcAta
  let feeRecipientAccount ← orFail (.program .feeRecipientNotFound)
    found.feeRecipient
  let feeRecipientSbtcAta ← orFail (.program .feeRecipientSbtcAtaNotFound)
    found.feeRecipientSbtcAta
  let sbtcMintAccount ← orFail (.program .sbtcMintAccountNotFound) found.sbtcMint
  return (userSbtcAta, feeRecipientAccount, feeRecipientSbtcAta, sbtcMintAccount)

end WithdrawBtc

/-- `amount as u128 * percentage as u128 / FEE_DENOMINATOR as u128`, cast to `u64`. -/
def withdrawFee (amount tokenFeePercentage : U64) : U64 :=
  (amount.setWidth 128 * tokenFeePercentage.setWidth 128 /
    BitVec.ofNat 128 Constants.feeDenominator).setWidth 64

/-- The chain and token records carry no `mut` constraint and are not written back. -/
def withdrawBtc (L : Ledger) (ctx : Context) (user : Pubkey)
    (msg : WithdrawBtcMessage) : Result (Ledger × List Event) := do
  let noncePda := (Pda.operationNonce .tokenTransfer).address
  let bridgeConfig ← L.load BridgeConfig (Pda.bridgeConfig msg.chainId).address
  let supportedChainConfig ←
    L.load SupportedChainConfig (Pda.supportedChain msg.toChainId).address
  let tokenConfig ←
    L.load TokenConfig (Pda.tokenConfig msg.toChainId msg.toTokenId).address
  let (L, nonceConfig) ← L.initIfNeeded Nonces noncePda (AnchorAccount.len Nonces)
  require (msg.fromAddress = user) (.program .invalidUserAddress)
  require bridgeConfig.isInitialized (.program .bridgeConfigNotInitialized)
  require (¬ bridgeConfig.withdrawPaused) (.program .bridgeWithdrawPaused)
  require (msg.chainId ≠ msg.toChainId)
    (.program .chainIdShouldDiffFromSolanaChainId)
  require supportedChainConfig.isInitialized
    (.program .supportedChainConfigNotInitialized)
  require supportedChainConfig.supported
    (.program .supportedChainConfigNoSupported)
  require (msg.amount.toNat ≤ supportedChainConfig.mintTotal.toNat)
    (.program .lackTargetMintOfChain)
  require tokenConfig.isInitialized (.program .tokenConfigNotInitialized)
  require (¬ tokenConfig.withdrawPaused) (.program .withdrawPaused)
  require (tokenConfig.tokenMinAmount.toNat ≤ msg.amount.toNat)
    (.program .invalidMinAmount)
  require (msg.amount.toNat ≤ tokenConfig.mintTotal.toNat)
    (.program .lackTargetMint)
  require (msg.toAddress.length ≤ Constants.maxStringLength)
    (.program .invalidAddress)
  let nonce ← addOrPanic nonceConfig.nonce 1
  let (userSbtcAta, feeRecipientAccount, feeRecipientSbtcAta, sbtcMint) ←
    WithdrawBtc.getAccounts ctx.remainingAccounts msg.fromAddress
      bridgeConfig.feeRecipient msg.chainId
  let L ← createAssociatedTokenAccountIfnInit L feeRecipientAccount sbtcMint
    feeRecipientSbtcAta
  let fee := withdrawFee msg.amount tokenConfig.tokenFeePercentage
  let amount ← subOrPanic msg.amount fee
  let L ← L.transfer userSbtcAta feeRecipientSbtcAta (.wallet user) fee
  let L ← L.burn sbtcMint userSbtcAta (.wallet user) amount
  let withdrawn ← addOrPanic amount fee
  let chainMintTotal ← subOrPanic supportedChainConfig.mintTotal
    (withdrawn.setWidth 128)
  let tokenMintTotal ← subOrPanic tokenConfig.mintTotal (withdrawn.setWidth 128)
  let event : WithdrawBtcEvent :=
    { nonce, toChainId := msg.toChainId, toTokenId := msg.toTokenId,
      toAddress := msg.toAddress, chainId := msg.chainId,
      fromAddress := msg.fromAddress, amount, originalAmount := msg.amount,
      chainMintTotal, tokenMintTotal }
  let L ← L.exit noncePda { nonceConfig with nonce }
  return (L, [.withdrawBtc event])

end SolBtcBridge.Program
