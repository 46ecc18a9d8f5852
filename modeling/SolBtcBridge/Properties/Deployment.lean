import SolBtcBridge.Properties.AdminAcceptance
import SolBtcBridge.Properties.BatchEquivalence
import SolBtcBridge.Properties.ClientTransactions
import SolBtcBridge.Properties.Revocation

/-!
# From a new bridge to a withdrawal

The tests of the client set up one bridge with one committee and use it once.
The same five transactions land for every deployment whose addresses are free:
each of them leaves the state that the next one asks for.
-/

namespace SolBtcBridge.Properties

open SolBtcBridge.Foundation
open SolBtcBridge.Runtime
open SolBtcBridge.Program
open SolBtcBridge.Effects

structure Deployment where
  chainId : U8
  feeRecipient : Pubkey
  tokens : List TokenEntry
  committee : List (Pubkey × U16)
  submitter : Pubkey

namespace Deployment

variable (d : Deployment)

def configTx : ClientTransaction :=
  createBridgeConfigTx Constants.supperAdmin d.feeRecipient d.chainId
    (d.tokens.map TokenEntry.supportedChainId)
    (d.tokens.map TokenEntry.tokenId)
    (d.tokens.map TokenEntry.tokenFeePercentage)
    (d.tokens.map TokenEntry.tokenMinAmount)

def committeeTx : ClientTransaction :=
  createCommitteeConfigTx Constants.supperAdmin d.chainId d.submitter
    (d.committee.map Prod.fst) (d.committee.map Prod.snd)

/-- The arguments are in order, and nobody uses the addresses yet. -/
structure Fresh (host : Host) (L : Ledger) : Prop where
  new : L.Vacant (Pda.bridgeConfig d.chainId).address
  feeRecipient : d.feeRecipient ≠ 0
  metadata : host.createMetadataAccountsV3 "SBTC" "SBTC"
    "https://app.sbtc.ai/logo.svg" = true
  distinctTokens : DistinctPairs d.tokens
  tokens : ∀ entry ∈ d.tokens, entry.supportedChainId ≠ d.chainId ∧
    entry.tokenFeePercentage.toNat < Constants.feeDenominator ∧
    EntryAbsent L entry
  size : d.committee.length < 256
  distinctMembers : (d.committee.map Prod.fst).Nodup
  members : ∀ member ∈ d.committee, L.Absent (Pda.committee member.1).address

def opened (host : Host) (L : Ledger) : Ledger :=
  (openBridge host L d.chainId Constants.supperAdmin d.feeRecipient).placeAll
    (entryPlacements d.tokens)

/-- What the later transactions find, for one of the tokens. -/
structure InService (host : Host) (L : Ledger) (entry : TokenEntry) :
    Prop where
  bridge : L.Stores (Pda.bridgeConfig d.chainId).address
    (createdConfig host d.chainId Constants.supperAdmin d.feeRecipient)
  chain : L.Stores (Pda.supportedChain entry.supportedChainId).address
    (listedChain entry.supportedChainId)
  token : L.Stores
    (Pda.tokenConfig entry.supportedChainId entry.tokenId).address
    entry.tokenConfig
  submitter : ∃ r : Submitter,
    L.Stores (Pda.submitter d.submitter).address r ∧ r.isSubmitter = true
  members : ∀ member ∈ d.committee,
    L.Stores (Pda.committee member.1).address (listedMember member.1 member.2)

/-- Signers from the committee with enough stake for both messages. -/
structure Quorum (signers : List (Pubkey × U16)) : Prop where
  count : 1 ≤ signers.length ∧ signers.length < 255
  distinct : (signers.map Prod.fst).Nodup
  members : ∀ signer ∈ signers, signer ∈ d.committee
  stake : (grantedStake .updateBridgeLimit).toNat ≤
      (signers.map fun signer => signer.2.toNat).sum ∧
    (grantedStake .tokenTransfer).toNat ≤
      (signers.map fun signer => signer.2.toNat).sum
  fits : (signers.map fun signer => signer.2.toNat).sum < 2 ^ 16

end Deployment

section

variable {host : Host} {L : Ledger} {d : Deployment} {entry : TokenEntry}

private theorem opened_of_ne {p : Pda} (hbridge : p ≠ .bridgeConfig d.chainId)
    (hmint : p ≠ .sbtcMint d.chainId) (hchain : ∀ c, p ≠ .supportedChain c)
    (htoken : ∀ c t, p ≠ .tokenConfig c t) :
    d.opened host L p.address = L p.address := by
  rw [Deployment.opened, Ledger.placeAll_of_ne]
  · exact openBridge_of_ne (by simpa using hbridge) (by simpa using hmint)
  · intro q hq
    rcases mem_entryPlacements.mp hq with ⟨entry, -, rfl | rfl⟩
    · simpa [tokenPlacement] using htoken _ _
    · simpa [chainPlacement] using hchain _

private theorem config_lands (howned : MintsOwned L) (h : d.Fresh host L)
    (instruction : SolanaInstruction) (unixTimestamp : Int) :
    step host L (d.configTx.input instruction unixTimestamp) =
      .ok (d.opened host L, []) := by
  have hvacant : ∀ entry ∈ d.tokens, EntryAbsent
      (openBridge host L d.chainId Constants.supperAdmin d.feeRecipient)
        entry := by
    intro entry hentry
    rcases (h.tokens entry hentry).2.2 with ⟨htoken, hchain⟩
    constructor
    · rw [Ledger.Absent, openBridge_of_ne (by simp) (by simp), htoken]
    · rw [Ledger.Absent, openBridge_of_ne (by simp) (by simp), hchain]
  refine createBridgeConfig_eq_ok.mpr ?_
  rw [tokenEntries_columns]
  refine ⟨⟨h.new, howned.vacant h.new⟩, ⟨rfl, h.feeRecipient,
    (by decide : Constants.supperAdmin ≠ 0), h.metadata⟩, by simp,
    fun entry hentry => (h.tokens entry hentry).1, ?_,
    (placeable_of_absent h.distinctTokens hvacant).mpr
      fun entry hentry => (h.tokens entry hentry).2.1, rfl, rfl⟩
  intro p hp
  rcases mem_entryPlacements.mp hp with ⟨entry, hentry, rfl | rfl⟩
  · apply List.mem_append_left
    rw [List.zipWith_map, List.zipWith_self, List.mem_map]
    exact ⟨entry, hentry, rfl⟩
  · apply List.mem_append_right
    rw [List.map_map, List.mem_map]
    exact ⟨entry, hentry, rfl⟩

private theorem opened_token (h : d.Fresh host L) (hentry : entry ∈ d.tokens) :
    (d.opened host L).Stores
      (Pda.tokenConfig entry.supportedChainId entry.tokenId).address
      entry.tokenConfig := by
  refine Ledger.placeAll_stores (p := tokenPlacement entry) ?_ ?_ rfl
  · rw [openBridge_of_ne (by simp) (by simp)]
    exact (h.tokens entry hentry).2.2.1.lamports
  · rw [find_tokenPlacement, firstEntry_of_distinct h.distinctTokens hentry,
      Option.map_some]

private theorem opened_chain (h : d.Fresh host L) (hentry : entry ∈ d.tokens) :
    (d.opened host L).Stores
      (Pda.supportedChain entry.supportedChainId).address
      (listedChain entry.supportedChainId) := by
  refine Ledger.placeAll_stores (p := chainPlacement entry.supportedChainId) ?_
    (find_chainPlacement ⟨entry, hentry, rfl⟩) rfl
  rw [openBridge_of_ne (by simp) (by simp)]
  exact (h.tokens entry hentry).2.2.2.lamports

/-! ## The committee -/

private theorem firstStake_of_distinct {members : List (Pubkey × U16)}
    (hdistinct : (members.map Prod.fst).Nodup) {member : Pubkey × U16}
    (hmem : member ∈ members) : firstStake members member.1 = some member :=
  find?_of_distinct hdistinct hmem fun other => by
    simp

private theorem committee_lands (hwf : WellFormed (d.opened host L))
    (h : d.Fresh host L) (instruction : SolanaInstruction)
    (unixTimestamp : Int) :
    ∃ L', step host (d.opened host L)
        (d.committeeTx.input instruction unixTimestamp) = .ok (L', []) ∧
      (∀ entry ∈ d.tokens, d.InService host L' entry) ∧
      (∀ p : Pda, p ≠ .submitter d.submitter → (∀ key, p ≠ .committee key) →
        L' p.address = d.opened host L p.address) := by
  have habsent : ∀ member ∈ d.committee,
      (d.opened host L).Absent (Pda.committee member.1).address := by
    intro member hmember
    rw [Ledger.Absent, opened_of_ne (by simp) (by simp) (by simp) (by simp)]
    exact h.members member hmember
  rcases exists_upserts (hwf (.submitter d.submitter))
    (Submitter.create d.submitter) with ⟨L₁, hupserts⟩
  have hkept : ∀ key, L₁ (Pda.committee key).address =
      d.opened host L (Pda.committee key).address :=
    fun key => hupserts.of_ne (by simp)
  have hframe : ∀ p : Pda, p ≠ .submitter d.submitter →
      (∀ key, p ≠ .committee key) →
        (L₁.placeAll (memberPlacements d.committee)) p.address =
          d.opened host L p.address := by
    intro p hsubmitter hcommittee
    rw [Ledger.placeAll_of_ne, hupserts.of_ne (by simpa using hsubmitter)]
    intro q hq
    rcases List.mem_map.mp hq with ⟨member, -, rfl⟩
    simpa [memberPlacement] using hcommittee member.1
  have hstep : step host (d.opened host L)
      (d.committeeTx.input instruction unixTimestamp) =
        .ok (L₁.placeAll (memberPlacements d.committee), []) := by
    refine createBridgeCommittee_eq_ok.mpr ?_
    rw [zip_columns]
    refine ⟨⟨createdConfig host d.chainId Constants.supperAdmin d.feeRecipient,
      placeAll_openBridge_stores.load, rfl⟩,
      by simpa using h.size, ?_, L₁, hupserts, ?_, rfl, rfl⟩
    · intro p hp
      rcases List.mem_map.mp hp with ⟨member, hmember, rfl⟩
      simp only [Deployment.committeeTx, createCommitteeConfigTx, List.map_map]
      exact List.mem_map_of_mem hmember
    · exact placeable_members fun member hmember => by
        rw [Ledger.Absent, hkept]
        exact habsent member hmember
  have hwf' := wellFormed_step (e := ⟨_, _, _, _⟩) hwf hstep
  refine ⟨_, hstep, fun entry hentry => ?_, hframe⟩
  have hflag := submitterFlag_named (e := ⟨_, _, _, _⟩) (s := d.submitter) hwf
    hstep (by
      simp [namesSubmitter, Deployment.committeeTx, createCommitteeConfigTx])
  rw [submitterFlag, Option.map_eq_some_iff] at hflag
  rcases hflag with ⟨r, hr, hset⟩
  exact
    { bridge := placeAll_openBridge_stores.congr (hframe _ (by simp) (by simp))
      chain := (opened_chain h hentry).congr (hframe _ (by simp) (by simp))
      token := (opened_token h hentry).congr (hframe _ (by simp) (by simp))
      submitter := ⟨r, (hwf' (.submitter d.submitter)).fetch_eq_some.mp hr,
        hset⟩
      members := by
        intro member hmember
        refine Ledger.placeAll_stores
          (p := memberPlacement member.1 member.2) ?_ ?_ rfl
        · rw [hkept]
          exact (habsent member hmember).lamports
        · rw [find_memberPlacement,
            firstStake_of_distinct h.distinctMembers hmember, Option.map_some] }

private theorem committeeStake_signers {signers : List (Pubkey × U16)}
    (h : ∀ signer ∈ signers, L.Stores (Pda.committee signer.1).address
      (listedMember signer.1 signer.2)) :
    committeeStake L (signers.map Prod.fst) =
      (signers.map fun signer => signer.2.toNat).sum := by
  rw [committeeStake, List.map_map]
  congr 1
  refine List.map_congr_left fun signer hsigner => ?_
  rw [Function.comp_apply, memberStake, (h signer hsigner).fetch]
  rfl

private theorem quorate_of_quorum {signers : List (Pubkey × U16)}
    {op : Operation} (h : d.Quorum signers)
    (hmembers : ∀ member ∈ d.committee,
      L.Stores (Pda.committee member.1).address
        (listedMember member.1 member.2))
    (hop : (grantedStake op).toNat ≤
      (signers.map fun signer => signer.2.toNat).sum) :
    Quorate L op (signers.map Prod.fst) := by
  have hstored := fun signer hsigner =>
    hmembers signer (h.members signer hsigner)
  have hstake := committeeStake_signers hstored
  exact
    { count := by simpa using h.count
      distinct := h.distinct
      active := by
        rw [List.forall_mem_map]
        intro signer hsigner
        exact ⟨_, (hstored signer hsigner).fetch, rfl, rfl⟩
      stake := by rw [hstake]; exact hop
      fits := by rw [hstake]; exact h.fits }

end

/-! ## The first limit, the first mint, the first withdrawal -/

namespace Deployment

variable (d : Deployment)

structure FirstUse (L : Ledger) (entry : TokenEntry) (limit : UpdateLimiterMsg)
    (mint : MintSbtcMessage) (withdrawal : WithdrawBtcMessage) : Prop where
  listed : entry ∈ d.tokens
  limitType : Operation.tryFrom (messageType limit) = some .updateBridgeLimit
  limitRoute : limit.chainId = d.chainId ∧
    limit.targetChainId = entry.supportedChainId ∧ limit.tokenId = entry.tokenId
  limitNonce : limit.nonce.toNat = counter .updateBridgeLimit L ∧
    counter .updateBridgeLimit L + 1 < 2 ^ 64
  limiter : L.Vacant (Pda.limiter entry.supportedChainId entry.tokenId).address
  mintType : Operation.tryFrom (messageType mint) = some .tokenTransfer
  mintRoute : mint.toChainId = d.chainId ∧
    mint.sourceChainId = entry.supportedChainId ∧
    mint.sourceTokenId = entry.tokenId
  mintNonce : L.Vacant (Pda.mintNonce entry.supportedChainId mint.nonce).address
  mintSize : (encodeMessage mint).length < 2 ^ 16
  minted : entry.tokenMinAmount.toNat ≤ mint.amount.toNat ∧
    mint.amount.toNat ≤ limit.totalLimit.toNat
  withdrawRoute : withdrawal.chainId = d.chainId ∧
    withdrawal.toChainId = entry.supportedChainId ∧
    withdrawal.toTokenId = entry.tokenId
  fromUser : withdrawal.fromAddress = mint.toAddress
  notRecipient : mint.toAddress ≠ d.feeRecipient
  toAddress : withdrawal.toAddress.length ≤ Constants.maxStringLength
  withdrawNonce : counter .tokenTransfer L + 1 < 2 ^ 64
  withdrawn : entry.tokenMinAmount.toNat ≤ withdrawal.amount.toNat ∧
    0 < withdrawal.amount.toNat ∧
    withdrawal.amount.toNat ≤ mint.amount.toNat

end Deployment

section

variable {host : Host} {L : Ledger} {d : Deployment} {entry : TokenEntry}
  {limit : UpdateLimiterMsg} {mint : MintSbtcMessage}
  {withdrawal : WithdrawBtcMessage} {ctx : Context} {submitter : Pubkey}
  {signatures : U8}

private theorem totalVolume_new (currentH : U32) :
    totalVolume (clearExpired (updateLimiter AnchorAccount.zeroed
      ctx.unixTimestamp limit) currentH) = 0 := by
  refine Finset.sum_eq_zero fun s _ => ?_
  rw [slotVolume_clearExpired]
  split
  · rfl
  · simp [slotVolume, updateLimiter, AnchorAccount.zeroed]

private theorem totalLimit_new :
    (updateLimiter AnchorAccount.zeroed ctx.unixTimestamp limit).totalLimit =
      limit.totalLimit := by
  unfold updateLimiter
  split <;> rfl

/-- Every instruction of the deployment runs in a reachable state. -/
def Reached (host : Host) (L : Ledger) : Prop :=
  ∃ inputs, (execute host inputs).state = L

private theorem Reached.consistent
    (h : Reached host L) : Consistent host L := by
  rcases h with ⟨inputs, rfl⟩
  exact execute_consistent host inputs

theorem Reached.step {L' : Ledger} {i : Input} {events : List Event}
    (h : Reached host L) (hstep : step host L i = .ok (L', events)) :
    Reached host L' := by
  rcases h with ⟨inputs, rfl⟩
  refine ⟨inputs ++ [i], ?_⟩
  rw [execute, run_concat]
  exact congrArg Trace.state (advance_of_ok hstep)

private theorem limit_open {L₀ : Ledger} (hservice : d.InService host L entry)
    (h : d.FirstUse L₀ entry limit mint withdrawal)
    (hcounter : counter .updateBridgeLimit L = counter .updateBridgeLimit L₀) :
    LimitOpen L d.submitter limit where
  submitter := hservice.submitter
  bridge := by
    rw [h.limitRoute.1]
    exact hservice.bridge.not_vacant
  chain := by
    rw [h.limitRoute.2.1]
    exact ⟨_, hservice.chain, rfl⟩
  token := by
    rw [h.limitRoute.2.1, h.limitRoute.2.2]
    exact ⟨_, hservice.token, rfl⟩
  nonce := by
    rw [hcounter]
    exact h.limitNonce.2

private theorem mint_open {L₀ : Ledger} {unixTimestamp : Int}
    (hservice : d.InService host L entry)
    (h : d.FirstUse L₀ entry limit mint withdrawal)
    (hlimiter : L.Stores (Pda.limiter entry.supportedChainId
      entry.tokenId).address (updateLimiter AnchorAccount.zeroed
        ctx.unixTimestamp limit))
    (hnonce : L.Vacant
      (Pda.mintNonce entry.supportedChainId mint.nonce).address)
    (hother : entry.supportedChainId ≠ d.chainId)
    (hsupply : L.supply (Pda.sbtcMint d.chainId).address = 0) :
    MintOpen L unixTimestamp d.submitter mint where
  submitter := hservice.submitter
  bridge := by
    rw [h.mintRoute.1]
    exact hservice.bridge.not_vacant
  otherChain := by
    rw [h.mintRoute.1, h.mintRoute.2.1]
    exact hother
  chain := by
    rw [h.mintRoute.2.1]
    exact ⟨_, hservice.chain, rfl⟩
  token := by
    rw [h.mintRoute.2.1, h.mintRoute.2.2]
    exact ⟨_, hservice.token, rfl, h.minted.1⟩
  limit := by
    rw [h.mintRoute.2.1, h.mintRoute.2.2]
    refine ⟨_, hlimiter, ?_⟩
    rw [totalVolume_new, totalLimit_new, Nat.zero_add]
    exact h.minted.2
  nonce := by
    rw [h.mintRoute.2.1]
    exact hnonce
  room := by
    rw [h.mintRoute.1, hsupply, Nat.zero_add]
    exact mint.amount.isLt

private theorem withdraw_open {L' L₀ : Ledger} {events : List Event}
    (hcon : Consistent host L') (hservice : d.InService host L entry)
    (h : d.FirstUse L₀ entry limit mint withdrawal)
    (hother : entry.supportedChainId ≠ d.chainId)
    (effect : MintEffect L ctx submitter signatures mint L' events)
    (hcounter : counter .tokenTransfer L' = counter .tokenTransfer L₀) :
    WithdrawOpen L' mint.toAddress withdrawal d.feeRecipient where
  fromUser := h.fromUser
  otherChain := by
    rw [h.withdrawRoute.1, h.withdrawRoute.2.1]
    exact hother.symm
  chain := by
    have hstored := effect.chainStored'
    rw [h.mintRoute.2.1] at hstored
    rw [h.withdrawRoute.2.1]
    exact ⟨_, hstored, effect.supported⟩
  token := by
    have hstored := effect.tokenStored'
    have hbefore := effect.tokenStored
    rw [h.mintRoute.2.1, h.mintRoute.2.2] at hstored hbefore
    have hminimum :
        effect.tokenConfig.tokenMinAmount = entry.tokenMinAmount := by
      rw [hbefore.unique hservice.token]
      rfl
    rw [h.withdrawRoute.2.1, h.withdrawRoute.2.2]
    refine ⟨_, hstored, effect.notPaused, ?_, ?_⟩
    · simp only [hminimum]
      exact h.withdrawn.1
    · simp only [effect.tokenTotal]
      exact h.withdrawn.2.2.trans (Nat.le_add_left _ _)
  toAddress := h.toAddress
  nonce := by
    rw [hcounter]
    exact h.withdrawNonce
  bridge := by
    have hstored := effect.bridgeStored'
    have hbefore := effect.bridgeStored
    rw [h.mintRoute.1] at hstored hbefore
    rw [h.withdrawRoute.1]
    refine ⟨_, hstored, ?_⟩
    rw [hbefore.unique hservice.bridge]
    rfl
  notRecipient := by
    rw [h.fromUser]
    exact h.notRecipient
  funds := by
    have hbalance : withdrawal.amount.toNat ≤
        L'.balance (Effects.userSbtcAta withdrawal) := by
      rw [Effects.userSbtcAta, h.fromUser, h.withdrawRoute.1, ← h.mintRoute.1,
        effect.balance]
      exact h.withdrawn.2.2.trans (Nat.le_add_left _ _)
    rcases hcon.ataReady withdrawal.fromAddress
      (Pda.sbtcMint withdrawal.chainId).address with hvacant | ⟨held, hheld⟩
    · have hnone := (Ledger.no_tokens_of_system hvacant).2
      rw [Effects.userSbtcAta, hnone] at hbalance
      exact absurd hbalance (Nat.not_le.mpr h.withdrawn.2.1)
    · rw [Effects.userSbtcAta, Ledger.balance, hheld] at hbalance
      exact ⟨_, hheld, hbalance⟩

theorem Deployment.InService.congr {L' : Ledger}
    (h : d.InService host L entry)
    (hframe : ∀ p : Pda, (∀ op, p ≠ .operationNonce op) →
      (∀ c t, p ≠ .limiter c t) → L' p.address = L p.address) :
    d.InService host L' entry where
  bridge := h.bridge.congr (hframe _ (by simp) (by simp))
  chain := h.chain.congr (hframe _ (by simp) (by simp))
  token := h.token.congr (hframe _ (by simp) (by simp))
  submitter := by
    rcases h.submitter with ⟨r, hstores, hset⟩
    exact ⟨r, hstores.congr (hframe _ (by simp) (by simp)), hset⟩
  members := fun member hmember =>
    (h.members member hmember).congr (hframe _ (by simp) (by simp))

private theorem provides_of_vacant {T : Type} [AnchorAccount T] {a : Address}
    {t : T} (hvacant : L.Vacant a) (h : L.Provides a t) :
    t = AnchorAccount.zeroed := by
  rcases h with hstores | ⟨-, hzero⟩
  · exact absurd hvacant hstores.not_vacant
  · exact hzero

end

/-! ## One after the other -/

def LandInTurn (host : Host) (verifies : SignedBytes → Bool) :
    Ledger → List (ClientTransaction × SolanaInstruction × Int) → Ledger → Prop
  | L, [], L' => L' = L
  | L, (tx, instruction, unixTimestamp) :: rest, L' =>
      tx.Lands host verifies L instruction unixTimestamp ∧
        ∃ L₁ events,
          step host L (tx.input instruction unixTimestamp) = .ok (L₁, events) ∧
          LandInTurn host verifies L₁ rest L'

section

variable {host : Host} {verifies : SignedBytes → Bool} {L L₁ L' : Ledger}
  {txs more : List (ClientTransaction × SolanaInstruction × Int)}

theorem LandInTurn.append (h : LandInTurn host verifies L txs L₁)
    (hmore : LandInTurn host verifies L₁ more L') :
    LandInTurn host verifies L (txs ++ more) L' := by
  induction txs generalizing L with
  | nil =>
      rcases h with rfl
      exact hmore
  | cons tx txs ih =>
      rcases h with ⟨hlands, L₂, events, hstep, hrest⟩
      exact ⟨hlands, L₂, events, hstep, ih hrest⟩

private theorem landInTurn_single {tx : ClientTransaction}
    {slot : SolanaInstruction × Int} {events : List Event}
    (hlands : tx.Lands host verifies L slot.1 slot.2)
    (hstep : step host L (tx.input slot.1 slot.2) = .ok (L', events)) :
    LandInTurn host verifies L [(tx, slot)] L' :=
  ⟨hlands, L', events, hstep, rfl⟩

private theorem landInTurn_unsigned {tx : ClientTransaction}
    {slot : SolanaInstruction × Int} {events : List Event}
    (hpre : tx.preInstructions = [])
    (hstep : step host L (tx.input slot.1 slot.2) = .ok (L', events)) :
    LandInTurn host verifies L [(tx, slot)] L' := by
  refine landInTurn_single ⟨fun ix hix => ?_, _, hstep⟩ hstep
  rw [hpre] at hix
  contradiction

end

/-- The bridge is set up for the token, and has not been used since. -/
structure Deployment.Ready (d : Deployment) (host : Host) (L₀ L : Ledger)
    (entry : TokenEntry) : Prop where
  reached : Reached host L
  service : d.InService host L entry
  mintNonces : ∀ c n, L (Pda.mintNonce c n).address =
    L₀ (Pda.mintNonce c n).address
  counter : counter .tokenTransfer L = counter .tokenTransfer L₀
  supply : L.supply (Pda.sbtcMint d.chainId).address = 0
  balance : ∀ a, L.balance a = L₀.balance a

section

variable {host : Host} {verifies : SignedBytes → Bool}
  {signDetached : SignDetached} {L₀ L : Ledger} {d : Deployment}
  {entry : TokenEntry} {signers : List (Pubkey × U16)}
  {limit : UpdateLimiterMsg} {mint : MintSbtcMessage}
  {withdrawal : WithdrawBtcMessage}

variable (verifies) in
private theorem deployment_ready (hreached : Reached host L)
    (howned : MintsOwned L) (h : d.Fresh host L)
    (slot slot' : SolanaInstruction × Int) :
    ∃ L', LandInTurn host verifies L
        [(d.configTx, slot), (d.committeeTx, slot')] L' ∧
      (∀ entry ∈ d.tokens, d.Ready host L L' entry) ∧
      (∀ c t, L' (Pda.limiter c t).address = L (Pda.limiter c t).address) ∧
      counter .updateBridgeLimit L' = counter .updateBridgeLimit L := by
  have hconfig := config_lands howned h slot.1 slot.2
  have hreached₁ := hreached.step hconfig
  have hwf₁ := hreached₁.consistent.wellFormed
  rcases committee_lands hwf₁ h slot'.1 slot'.2 with
    ⟨L', hcommittee, hservice, hframe⟩
  have htokens := (createBridgeConfig_spec hconfig).tokens.trans
    (createBridgeCommittee_spec hwf₁ hcommittee).tokens
  have hmint : (L' (Pda.sbtcMint d.chainId).address).body =
      .mint ⟨(Pda.sbtcMint d.chainId).address, 0⟩ := by
    rw [hframe _ (by simp) (by simp)]
    exact placeAll_openBridge_mint
  have hkept : ∀ p : Pda, (∃ op, p = .operationNonce op) ∨
      (∃ c n, p = .mintNonce c n) ∨ (∃ c t, p = .limiter c t) →
        L' p.address = L p.address := by
    rintro p (⟨op, rfl⟩ | ⟨c, n, rfl⟩ | ⟨c, t, rfl⟩) <;>
      rw [hframe _ (by simp) (by simp),
        opened_of_ne (by simp) (by simp) (by simp) (by simp)]
  have hcounter : ∀ op, counter op L' = counter op L := fun op =>
    counter_congr (by rw [hkept _ (.inl ⟨op, rfl⟩)])
  refine ⟨L', (landInTurn_unsigned rfl hconfig).append
    (landInTurn_unsigned rfl hcommittee), fun entry hentry => ?_,
    fun c t => hkept _ (.inr (.inr ⟨c, t, rfl⟩)), hcounter _⟩
  exact
    { reached := hreached₁.step hcommittee
      service := hservice entry hentry
      mintNonces := fun c n => hkept _ (.inr (.inl ⟨c, n, rfl⟩))
      counter := hcounter _
      supply := by rw [Ledger.supply, hmint]; rfl
      balance := htokens.balance }

private theorem limit_lands (h : d.Ready host L₀ L entry)
    (hquorum : d.Quorum signers)
    (huse : d.FirstUse L₀ entry limit mint withdrawal)
    (hvacant : L.Vacant (Pda.limiter entry.supportedChainId
      entry.tokenId).address)
    (hcounter : counter .updateBridgeLimit L = counter .updateBridgeLimit L₀)
    (hsigned : SignaturesVerify verifies signDetached limit
      (signers.map Prod.fst)) (slot : SolanaInstruction × Int) :
    ∃ tx L', updateLimiterTx signDetached d.submitter (signers.map Prod.fst)
        limit = some tx ∧
      LandInTurn host verifies L [(tx, slot)] L' ∧
      d.Ready host L₀ L' entry ∧
      ∃ ctx : Context, L'.Stores (Pda.limiter entry.supportedChainId
        entry.tokenId).address (updateLimiter AnchorAccount.zeroed
          ctx.unixTimestamp limit) := by
  have hwf := h.reached.consistent.wellFormed
  have hbuilt : ∃ tx, updateLimiterTx signDetached d.submitter
      (signers.map Prod.fst) limit = some tx ∧
        tx.Lands host verifies L slot.1 slot.2 :=
    updateLimiterTx_lands_of verifies hwf (limit_open h.service huse hcounter)
      huse.limitType (by rw [hcounter, huse.limitNonce.1])
      (quorate_of_quorum hquorum h.service.members hquorum.stake.1) hsigned
      slot.1 slot.2
  rcases hbuilt with ⟨tx, hbuild, hlands⟩
  rcases hlands.2 with ⟨⟨L', events⟩, hstep⟩
  rcases updateLimiterTx_eq_some.mp hbuild with ⟨n, -, rfl⟩
  rcases limitEffect_of_ok hwf hstep with ⟨effect⟩
  have hframe : ∀ p : Pda, (∀ op, p ≠ .operationNonce op) →
      (∀ c t, p ≠ .limiter c t) → L' p.address = L p.address :=
    fun p hnonce hlimiter => effect.frame _ (by simpa using hnonce _)
      (by simpa using hlimiter _ _)
  have hnew := effect.limiterStored'
  rw [huse.limitRoute.2.1, huse.limitRoute.2.2] at hnew
  have hprovided := effect.limiterProvided
  rw [huse.limitRoute.2.1, huse.limitRoute.2.2] at hprovided
  rw [provides_of_vacant hvacant hprovided] at hnew
  refine ⟨_, L', hbuild, landInTurn_single hlands hstep, ?_, _, hnew⟩
  exact
    { reached := h.reached.step hstep
      service := h.service.congr hframe
      mintNonces := fun c n => by
        rw [hframe _ (by simp) (by simp), h.mintNonces]
      counter := by
        rw [← h.counter]
        exact counter_congr (by
          rw [effect.frame _ (by simp) (by simp)])
      supply := by rw [effect.tokens.supply, h.supply]
      balance := fun a => by rw [effect.tokens.balance, h.balance] }

private theorem mint_lands (h : d.Ready host L₀ L entry)
    (hquorum : d.Quorum signers)
    (huse : d.FirstUse L₀ entry limit mint withdrawal)
    (hother : entry.supportedChainId ≠ d.chainId) {ctx : Context}
    (hlimiter : L.Stores (Pda.limiter entry.supportedChainId
      entry.tokenId).address (updateLimiter AnchorAccount.zeroed
        ctx.unixTimestamp limit))
    (hsigned : SignaturesVerify verifies signDetached mint
      (signers.map Prod.fst)) (slot : SolanaInstruction × Int) :
    ∃ tx L', mintSBtc signDetached d.submitter (signers.map Prod.fst) mint =
        some tx ∧
      LandInTurn host verifies L [(tx, slot)] L' ∧ Reached host L' ∧
      WithdrawOpen L' mint.toAddress withdrawal d.feeRecipient ∧
      L'.balance (getAssociatedTokenAddress mint.toAddress
          (Pda.sbtcMint d.chainId).address) =
        L₀.balance (getAssociatedTokenAddress mint.toAddress
          (Pda.sbtcMint d.chainId).address) + mint.amount.toNat := by
  have hcon := h.reached.consistent
  have hnonce : L.Vacant
      (Pda.mintNonce entry.supportedChainId mint.nonce).address := by
    rw [Ledger.Vacant, h.mintNonces]
    exact huse.mintNonce
  have hlength : mint.fromAddress.length < 2 ^ 32 := by
    have hsize := huse.mintSize
    rw [length_encode_mintSbtcMessage] at hsize
    omega
  have hbuilt : ∃ tx, mintSBtc signDetached d.submitter
      (signers.map Prod.fst) mint = some tx ∧
        tx.Lands host verifies L slot.1 slot.2 :=
    mintSBtc_lands_of verifies hcon huse.mintSize
      (mint_open h.service huse hlimiter hnonce hother h.supply) huse.mintType
      (quorate_of_quorum hquorum h.service.members hquorum.stake.2) hsigned
      slot.1
  rcases hbuilt with ⟨tx, hbuild, hlands⟩
  rcases hlands.2 with ⟨⟨L', events⟩, hstep⟩
  rcases (mintSBtc_eq_some (serialize_mintSbtcMessage mint hlength)).mp hbuild
    with ⟨n, -, rfl⟩
  rcases mintEffect_of_ok hcon.wellFormed hstep with ⟨effect⟩
  have hreached := h.reached.step hstep
  have hcounter : counter .tokenTransfer L' = counter .tokenTransfer L₀ := by
    rw [← h.counter]
    exact counter_congr (by rw [effect.frame _ (by simp)])
  have hbalance := effect.balance
  rw [huse.mintRoute.1, h.balance] at hbalance
  exact ⟨_, L', hbuild, landInTurn_single hlands hstep, hreached,
    withdraw_open hreached.consistent h.service huse hother effect hcounter,
    hbalance⟩

end

def sampleDeployment : Deployment where
  chainId := 1
  feeRecipient := sampleFeeRecipient
  tokens := [⟨2, 0, 1000, 0⟩]
  committee := [(sampleMember, 10000)]
  submitter := sampleSubmitter

private theorem size_sampleLimitSignature :
    sampleLimitSignature.toArray.size = 64 := by
  decide +kernel

/-- The two signatures that the member has made, told apart by their lengths. -/
def sampleKeypair : SignDetached := fun member message =>
  match Nat.beq message.length (encodeMessage sampleMintMessage).length with
  | true => sampleSignDetached member message
  | false => ⟨sampleLimitSignature.toArray, size_sampleLimitSignature⟩

def sampleMemberVerifies (entry : SignedBytes) : Bool :=
  entry = ⟨keyBytes sampleMember, sampleMintSignature,
      encodeMessage sampleMintMessage⟩ ||
    entry = ⟨keyBytes sampleMember, sampleLimitSignature,
      encodeMessage sampleLimit⟩

private theorem sampleDeployment_fresh :
    sampleDeployment.Fresh sampleHost (execute sampleHost []).state where
  new := rfl
  feeRecipient := by decide
  metadata := rfl
  distinctTokens := List.nodup_singleton _
  tokens := by
    rw [sampleDeployment, List.forall_mem_singleton]
    exact ⟨by decide, by decide, rfl, rfl⟩
  size := by decide
  distinctMembers := List.nodup_singleton _
  members := by
    rw [sampleDeployment, List.forall_mem_singleton]
    rfl

private theorem sampleDeployment_firstUse :
    sampleDeployment.FirstUse (execute sampleHost []).state ⟨2, 0, 1000, 0⟩
      sampleLimit sampleMintMessage sampleWithdrawMessage where
  listed := List.mem_singleton_self _
  limitType := by decide
  limitRoute := by decide
  limitNonce := by decide +kernel
  limiter := rfl
  mintType := by decide
  mintRoute := by decide
  mintNonce := rfl
  mintSize := by decide +kernel
  minted := by decide
  withdrawRoute := by decide
  fromUser := rfl
  notRecipient := by decide
  toAddress := by decide
  withdrawNonce := by decide +kernel
  withdrawn := by decide

end SolBtcBridge.Properties
