import SolBtcBridge.Program.Step
import SolBtcBridge.Runtime.Storage

/-!
# Well-formed ledgers and record changes

Each program-derived address keeps records of one family, and a record names
the key of its own address.  `RecordChange` lists everything an instruction
can do to such an address; what it does not list stays as it was.
-/

namespace SolBtcBridge.Effects

open SolBtcBridge.Foundation
open SolBtcBridge.Runtime
open SolBtcBridge.Program

/-- What may be found at the address of a record. -/
def Admits (L : Ledger) : Pda → Prop
  | .bridgeConfig chainId =>
      L.Keeps (Pda.bridgeConfig chainId).address fun r : BridgeConfig =>
        r.isInitialized = true ∧ r.chainId = chainId
  | .sbtcMint chainId =>
      L.Vacant (Pda.sbtcMint chainId).address ∨
        ∃ m, (L (Pda.sbtcMint chainId).address).body = .mint m
  | .supportedChain chainId =>
      L.Keeps (Pda.supportedChain chainId).address
        fun r : SupportedChainConfig =>
          r.isInitialized = true ∧ r.chainId = chainId
  | .tokenConfig chainId tokenId =>
      L.Keeps (Pda.tokenConfig chainId tokenId).address fun r : TokenConfig =>
        r.isInitialized = true ∧ r.chainId = chainId ∧ r.tokenId = tokenId ∧
          r.tokenFeePercentage.toNat < Constants.feeDenominator
  | .limiter chainId tokenId =>
      L.Keeps (Pda.limiter chainId tokenId).address
        fun r : ChainTokenLimiter => r.isInitialized = true ∧ r.tokenId = tokenId
  | .committee member =>
      L.Keeps (Pda.committee member).address fun r : Committee =>
        r.isInitialized = true ∧ r.index = member
  | .submitter key =>
      L.Keeps (Pda.submitter key).address fun r : Submitter =>
        r.isInitialized = false ∧ r.submitter = key
  | .operationNonce op =>
      L.Keeps (Pda.operationNonce op).address fun _ : Nonces => True
  | .mintNonce chainId nonce =>
      L.Vacant (Pda.mintNonce chainId nonce).address ∨
        ∃ data, (L (Pda.mintNonce chainId nonce).address).body = .bridge data

def WellFormed (L : Ledger) : Prop := ∀ p, Admits L p

private theorem admits_of_vacant {L : Ledger} {p : Pda}
    (h : L.Vacant p.address) :
    Admits L p := by
  cases p <;> exact .inl h

theorem admits_congr {L L' : Ledger} {p : Pda}
    (hbody : (L' p.address).body = (L p.address).body) (h : Admits L p) :
    Admits L' p := by
  cases p <;>
    simpa only [Admits, Ledger.Keeps, Ledger.Vacant, Ledger.Stores, hbody]
      using h

theorem wellFormed_empty : WellFormed Ledger.empty :=
  fun _ => admits_of_vacant rfl

theorem WellFormed.body_ne_token {L : Ledger} (h : WellFormed L) (p : Pda)
    (account : TokenAccount) : (L p.address).body ≠ .token account := by
  intro htoken
  have hp := h p
  cases p <;>
    simp [Admits, Ledger.Keeps, Ledger.Vacant, Ledger.Stores, htoken] at hp

/-- No instruction ever marks a submitter record as initialised. -/
theorem submitter_unmarked {L : Ledger} (h : WellFormed L) {key : Pubkey}
    {record : Submitter}
    (hprovides : L.Provides (Pda.submitter key).address record) :
    record.isInitialized = false := by
  rcases Ledger.Keeps.provides (h (.submitter key)) hprovides with
    ⟨hunmarked, -⟩ | rfl
  · exact hunmarked
  · rfl

/-! ## What an instruction can do to a record -/

inductive RecordChange (L L' : Ledger) : Input → Pda → Prop
  | bridgeCreated {ctx payer chainId name symbol uri administrator feeRecipient
      tokenIds supportedChains fees minimums} {record : BridgeConfig} :
      L.Vacant (Pda.bridgeConfig chainId).address →
      L'.Stores (Pda.bridgeConfig chainId).address record →
      record.isInitialized = true → record.chainId = chainId →
      record.feeRecipient = feeRecipient →
      RecordChange L L' (.createBridgeConfig ctx payer chainId name symbol uri
        administrator feeRecipient tokenIds supportedChains fees minimums)
        (.bridgeConfig chainId)
  | mintCreated {ctx payer chainId name symbol uri administrator feeRecipient
      tokenIds supportedChains fees minimums} {mint : Mint} :
      L.Vacant (Pda.sbtcMint chainId).address →
      (L' (Pda.sbtcMint chainId).address).body = .mint mint →
      mint.supply = 0 →
      RecordChange L L' (.createBridgeConfig ctx payer chainId name symbol uri
        administrator feeRecipient tokenIds supportedChains fees minimums)
        (.sbtcMint chainId)
  | chainListed {ctx payer chainId name symbol uri administrator feeRecipient
      tokenIds supportedChains fees minimums} {entry : TokenEntry} :
      entry ∈ tokenEntries tokenIds supportedChains fees minimums →
      L.Vacant (Pda.supportedChain entry.supportedChainId).address →
      L'.Stores (Pda.supportedChain entry.supportedChainId).address
        (listedChain entry.supportedChainId) →
      RecordChange L L' (.createBridgeConfig ctx payer chainId name symbol uri
        administrator feeRecipient tokenIds supportedChains fees minimums)
        (.supportedChain entry.supportedChainId)
  | tokenListed {ctx payer chainId name symbol uri administrator feeRecipient
      tokenIds supportedChains fees minimums} {entry : TokenEntry} :
      entry ∈ tokenEntries tokenIds supportedChains fees minimums →
      entry.tokenFeePercentage.toNat < Constants.feeDenominator →
      L.Vacant (Pda.tokenConfig entry.supportedChainId entry.tokenId).address →
      L'.Stores (Pda.tokenConfig entry.supportedChainId entry.tokenId).address
        entry.tokenConfig →
      RecordChange L L' (.createBridgeConfig ctx payer chainId name symbol uri
        administrator feeRecipient tokenIds supportedChains fees minimums)
        (.tokenConfig entry.supportedChainId entry.tokenId)
  | chainSet {payer chainId supportedChainId supported}
      {record : SupportedChainConfig} :
      L.Provides (Pda.supportedChain supportedChainId).address record →
      L'.Stores (Pda.supportedChain supportedChainId).address
        (record.addOrUpdate supportedChainId supported) →
      RecordChange L L'
        (.addOrUpdateChain payer chainId supportedChainId supported)
        (.supportedChain supportedChainId)
  | tokenSet {payer chainId supportedChainId tokenId fee minimum paused}
      {record : TokenConfig} :
      fee.toNat < Constants.feeDenominator →
      L.Provides (Pda.tokenConfig supportedChainId tokenId).address record →
      L'.Stores (Pda.tokenConfig supportedChainId tokenId).address
        (record.addOrUpdate supportedChainId tokenId fee minimum paused) →
      RecordChange L L' (.addOrUpdateChainToken payer chainId supportedChainId
        tokenId fee minimum paused) (.tokenConfig supportedChainId tokenId)
  | memberListed {ctx payer chainId submitter committee stake member share} :
      (member, share) ∈ committee.zip stake →
      L.Vacant (Pda.committee member).address →
      L'.Stores (Pda.committee member).address (listedMember member share) →
      RecordChange L L'
        (.createBridgeCommittee ctx payer chainId submitter committee stake)
        (.committee member)
  | submitterCreated {ctx payer chainId submitter committee stake}
      {record : Submitter} :
      L.Provides (Pda.submitter submitter).address record →
      L'.Stores (Pda.submitter submitter).address (record.create submitter) →
      RecordChange L L'
        (.createBridgeCommittee ctx payer chainId submitter committee stake)
        (.submitter submitter)
  | memberSet {payer chainId member stake isBlocklisted} {record : Committee} :
      L.Provides (Pda.committee member).address record →
      L'.Stores (Pda.committee member).address
        (record.addOrUpdate member stake isBlocklisted) →
      RecordChange L L'
        (.addOrUpdateCommittee payer chainId member stake isBlocklisted)
        (.committee member)
  | submitterSet {payer chainId submitter isSubmitter} {record : Submitter} :
      L.Provides (Pda.submitter submitter).address record →
      L'.Stores (Pda.submitter submitter).address
        (record.addOrUpdate submitter isSubmitter) →
      RecordChange L L'
        (.addOrUpdateSubmitter payer chainId submitter isSubmitter)
        (.submitter submitter)
  | chainMinted {ctx submitter signatures msg} {record : SupportedChainConfig}
      {total : U128} :
      L.Stores (Pda.supportedChain msg.sourceChainId).address record →
      total.toNat = record.mintTotal.toNat + msg.amount.toNat →
      L'.Stores (Pda.supportedChain msg.sourceChainId).address
        { record with mintTotal := total } →
      RecordChange L L' (.mintSbtcWithSignatures ctx submitter signatures msg)
        (.supportedChain msg.sourceChainId)
  | tokenMinted {ctx submitter signatures msg} {record : TokenConfig}
      {total : U128} :
      L.Stores (Pda.tokenConfig msg.sourceChainId msg.sourceTokenId).address
        record →
      total.toNat = record.mintTotal.toNat + msg.amount.toNat →
      L'.Stores (Pda.tokenConfig msg.sourceChainId msg.sourceTokenId).address
        { record with mintTotal := total } →
      RecordChange L L' (.mintSbtcWithSignatures ctx submitter signatures msg)
        (.tokenConfig msg.sourceChainId msg.sourceTokenId)
  | limiterMinted {ctx submitter signatures msg} {limiter : ChainTokenLimiter}
      {limiter' : ChainTokenLimiter} {event : LimitEvent} :
      L.Stores (Pda.limiter msg.sourceChainId msg.sourceTokenId).address
        limiter →
      checkTransfer limiter ctx.unixTimestamp msg.amount =
        .ok (limiter', event) →
      L'.Stores (Pda.limiter msg.sourceChainId msg.sourceTokenId).address
        limiter' →
      RecordChange L L' (.mintSbtcWithSignatures ctx submitter signatures msg)
        (.limiter msg.sourceChainId msg.sourceTokenId)
  | nonceMinted {ctx submitter signatures msg} {data : List U8} :
      L.Vacant (Pda.mintNonce msg.sourceChainId msg.nonce).address →
      (L' (Pda.mintNonce msg.sourceChainId msg.nonce).address).body =
        .bridge data →
      RecordChange L L' (.mintSbtcWithSignatures ctx submitter signatures msg)
        (.mintNonce msg.sourceChainId msg.nonce)
  | supplyMinted {ctx submitter signatures msg} {mint mint' : Mint} :
      (L (Pda.sbtcMint msg.toChainId).address).body = .mint mint →
      (L' (Pda.sbtcMint msg.toChainId).address).body = .mint mint' →
      RecordChange L L' (.mintSbtcWithSignatures ctx submitter signatures msg)
        (.sbtcMint msg.toChainId)
  | nonceWithdrawn {ctx user msg} {record : Nonces} {nonce : U64} :
      L.Provides (Pda.operationNonce .tokenTransfer).address record →
      nonce.toNat = record.nonce.toNat + 1 →
      L'.Stores (Pda.operationNonce .tokenTransfer).address
        { record with nonce } →
      RecordChange L L' (.withdrawBtc ctx user msg)
        (.operationNonce .tokenTransfer)
  | supplyWithdrawn {ctx user msg} {mint mint' : Mint} :
      (L (Pda.sbtcMint msg.chainId).address).body = .mint mint →
      (L' (Pda.sbtcMint msg.chainId).address).body = .mint mint' →
      RecordChange L L' (.withdrawBtc ctx user msg) (.sbtcMint msg.chainId)
  | nonceLimited {ctx submitter signatures msg} {record : Nonces}
      {nonce : U64} :
      L.Provides (Pda.operationNonce .updateBridgeLimit).address record →
      record.nonce = msg.nonce → nonce.toNat = record.nonce.toNat + 1 →
      L'.Stores (Pda.operationNonce .updateBridgeLimit).address
        { record with nonce } →
      RecordChange L L'
        (.addOrUpdateLimiterWithSignatures ctx submitter signatures msg)
        (.operationNonce .updateBridgeLimit)
  | limiterSet {ctx submitter signatures msg} {limiter : ChainTokenLimiter} :
      L.Provides (Pda.limiter msg.targetChainId msg.tokenId).address limiter →
      L'.Stores (Pda.limiter msg.targetChainId msg.tokenId).address
        (updateLimiter limiter ctx.unixTimestamp msg) →
      RecordChange L L'
        (.addOrUpdateLimiterWithSignatures ctx submitter signatures msg)
        (.limiter msg.targetChainId msg.tokenId)

/-- The address keeps its owner and data, or changes in one of the listed ways. -/
def Evolves (L L' : Ledger) (i : Input) (p : Pda) : Prop :=
  (L' p.address).body = (L p.address).body ∨ RecordChange L L' i p

end SolBtcBridge.Effects
