import SolBtcBridge.Program.Committee
import SolBtcBridge.Program.EchoBridge
import SolBtcBridge.Foundation.Run

/-!
# The program as a state machine

An input is one of the nine instructions, or something outsiders can do to the
same ledger: send lamports to any address, open a token account, or move their
own tokens.  A failed input leaves the ledger unchanged.
-/

namespace SolBtcBridge.Program

open SolBtcBridge.Foundation
open SolBtcBridge.Runtime

inductive Input where
  | createBridgeConfig (ctx : Context) (payer : Pubkey) (chainId : U8)
      (tokenName tokenSymbol tokenUri : String)
      (administrator feeRecipient : Pubkey) (tokenIds supportedChains : List U8)
      (tokenFeePercentages tokenMinAmount : List U64)
  | addOrUpdateChain (payer : Pubkey) (chainId supportedChainId : U8)
      (supported : Bool)
  | addOrUpdateChainToken (payer : Pubkey)
      (chainId supportedChainId tokenId : U8)
      (tokenFeePercentages tokenMinAmount : U64) (withdrawPaused : Bool)
  | createBridgeCommittee (ctx : Context) (payer : Pubkey) (chainId : U8)
      (submitter : Pubkey) (committee : List Pubkey) (stake : List U16)
  | addOrUpdateCommittee (payer : Pubkey) (chainId : U8) (committee : Pubkey)
      (stake : U16) (isBlocklisted : Bool)
  | addOrUpdateSubmitter (payer : Pubkey) (chainId : U8) (submitter : Pubkey)
      (isSubmitter : Bool)
  | mintSbtcWithSignatures (ctx : Context) (submitter : Pubkey)
      (numberOfSignatures : U8) (msg : MintSbtcMessage)
  | withdrawBtc (ctx : Context) (user : Pubkey) (msg : WithdrawBtcMessage)
  | addOrUpdateLimiterWithSignatures (ctx : Context) (submitter : Pubkey)
      (numberOfSignatures : U8) (msg : UpdateLimiterMsg)
  | sendLamports (target : Address) (lamports : Nat)
  | openTokenAccount (target : Address) (owner : Pubkey) (mint : Address)
  | sendTokens (source destination authority : Address) (amount : U64)

def step (host : Host) (L : Ledger) : Input → Result (Ledger × List Event)
  | .createBridgeConfig ctx payer chainId tokenName tokenSymbol tokenUri
      administrator feeRecipient tokenIds supportedChains tokenFeePercentages
      tokenMinAmount =>
      createBridgeConfig host L ctx payer chainId tokenName tokenSymbol tokenUri
        administrator feeRecipient tokenIds supportedChains tokenFeePercentages
        tokenMinAmount
  | .addOrUpdateChain payer chainId supportedChainId supported =>
      addOrUpdateChain L payer chainId supportedChainId supported
  | .addOrUpdateChainToken payer chainId supportedChainId tokenId
      tokenFeePercentages tokenMinAmount withdrawPaused =>
      addOrUpdateChainToken L payer chainId supportedChainId tokenId
        tokenFeePercentages tokenMinAmount withdrawPaused
  | .createBridgeCommittee ctx payer chainId submitter committee stake =>
      createBridgeCommittee L ctx payer chainId submitter committee stake
  | .addOrUpdateCommittee payer chainId committee stake isBlocklisted =>
      addOrUpdateCommittee L payer chainId committee stake isBlocklisted
  | .addOrUpdateSubmitter payer chainId submitter isSubmitter =>
      addOrUpdateSubmitter L payer chainId submitter isSubmitter
  | .mintSbtcWithSignatures ctx submitter numberOfSignatures msg =>
      mintSbtcWithSignatures L ctx submitter numberOfSignatures msg
  | .withdrawBtc ctx user msg => withdrawBtc L ctx user msg
  | .addOrUpdateLimiterWithSignatures ctx submitter numberOfSignatures msg =>
      addOrUpdateLimiterWithSignatures L ctx submitter numberOfSignatures msg
  | .sendLamports target lamports =>
      .ok (L.set target ⟨(L target).lamports + lamports, (L target).body⟩, [])
  | .openTokenAccount target owner mint => do
      -- nobody outside the program can sign for a program-derived address
      require (target = getAssociatedTokenAddress owner mint ∨ target.isWallet)
        .invocation
      let L ← L.initTokenAccount target mint (.wallet owner)
      return (L, [])
  | .sendTokens source destination authority amount => do
      let L ← L.transfer source destination authority amount
      return (L, [])

abbrev BridgeRecord := Record Ledger Input (List Event)

abbrev BridgeTrace := Trace Ledger Input (List Event)

def execute (host : Host) (inputs : List Input) : BridgeTrace :=
  run (step host) Ledger.empty inputs

end SolBtcBridge.Program
