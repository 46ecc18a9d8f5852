import SolBtcBridge.Properties.Funding

/-!
# When an administrator's instruction is accepted

Six instructions set up a bridge and change its settings.  Each of them checks
who signs and what is set, but never what the record says now: in a reachable
state a record is absent or intact, and both will do.
-/

namespace SolBtcBridge.Properties

open SolBtcBridge.Foundation
open SolBtcBridge.Runtime
open SolBtcBridge.Program
open SolBtcBridge.Effects

def Administered (L : Ledger) (payer : Pubkey) (chainId : U8) : Prop :=
  ∃ r : BridgeConfig, L.Stores (Pda.bridgeConfig chainId).address r ∧
    r.admin = payer

structure CreationAdmissible (host : Host) (L : Ledger) (ctx : Context)
    (payer : Pubkey) (chainId : U8) (tokenName tokenSymbol tokenUri : String)
    (administrator feeRecipient : Pubkey) (tokenIds supportedChains : List U8)
    (tokenFeePercentages tokenMinAmount : List U64) : Prop where
  payer : payer = Constants.supperAdmin
  new : L.Vacant (Pda.bridgeConfig chainId).address
  keys : feeRecipient ≠ 0 ∧ administrator ≠ 0
  metadata : host.createMetadataAccountsV3 tokenName tokenSymbol tokenUri = true
  lengths : tokenIds.length = supportedChains.length ∧
    tokenIds.length = tokenFeePercentages.length ∧
    tokenIds.length = tokenMinAmount.length
  otherChains : ∀ entry ∈ tokenEntries tokenIds supportedChains
    tokenFeePercentages tokenMinAmount, entry.supportedChainId ≠ chainId
  listed : ∀ entry ∈ tokenEntries tokenIds supportedChains
    tokenFeePercentages tokenMinAmount,
    (Pda.tokenConfig entry.supportedChainId entry.tokenId).address ∈
        ctx.remainingAccounts ∧
      (Pda.supportedChain entry.supportedChainId).address ∈
        ctx.remainingAccounts
  /-- A later entry for the same token and an existing record are skipped. -/
  fees : ∀ chainId tokenId entry, firstEntry (tokenEntries tokenIds
      supportedChains tokenFeePercentages tokenMinAmount) chainId tokenId =
        some entry →
    (L (Pda.tokenConfig chainId tokenId).address).lamports = 0 →
      entry.tokenFeePercentage.toNat < Constants.feeDenominator

def AdminAdmissible (host : Host) (L : Ledger) : Input → Prop
  | .createBridgeConfig ctx payer chainId tokenName tokenSymbol tokenUri
      administrator feeRecipient tokenIds supportedChains tokenFeePercentages
      tokenMinAmount =>
      CreationAdmissible host L ctx payer chainId tokenName tokenSymbol tokenUri
        administrator feeRecipient tokenIds supportedChains tokenFeePercentages
        tokenMinAmount
  | .addOrUpdateChain payer chainId supportedChainId _ =>
      Administered L payer chainId ∧ chainId ≠ supportedChainId
  | .addOrUpdateChainToken payer chainId supportedChainId _ tokenFeePercentages
      _ _ =>
      Administered L payer chainId ∧ chainId ≠ supportedChainId ∧
        ¬ L.Vacant (Pda.supportedChain supportedChainId).address ∧
        tokenFeePercentages.toNat < Constants.feeDenominator
  | .createBridgeCommittee ctx payer chainId _ committee stake =>
      Administered L payer chainId ∧ committee.length < 256 ∧
        committee.length = stake.length ∧
        ∀ member ∈ committee,
          (Pda.committee member).address ∈ ctx.remainingAccounts
  | .addOrUpdateCommittee payer chainId _ _ _ => Administered L payer chainId
  | .addOrUpdateSubmitter payer chainId _ _ => Administered L payer chainId
  | _ => False

def IsAdministrative : Input → Prop
  | .createBridgeConfig .. | .addOrUpdateChain .. | .addOrUpdateChainToken ..
  | .createBridgeCommittee .. | .addOrUpdateCommittee ..
  | .addOrUpdateSubmitter .. => True
  | _ => False

section

variable {L : Ledger} {payer : Pubkey} {chainId : U8}

private theorem exists_adminConfig (hwf : WellFormed L) :
    (∃ bridge, AdminConfig L payer chainId bridge) ↔
      Administered L payer chainId := by
  constructor
  · rintro ⟨bridge, hload, hadmin⟩
    exact ⟨bridge, ((hwf (.bridgeConfig chainId)).load hload).1, hadmin⟩
  · rintro ⟨bridge, hstores, hadmin⟩
    exact ⟨bridge, hstores.load, hadmin⟩

private theorem exists_adminConfig_ne (hwf : WellFormed L) {c : U8} :
    (∃ bridge, AdminConfig L payer chainId bridge ∧
        bridge.chainId ≠ c) ↔
      Administered L payer chainId ∧ chainId ≠ c := by
  have hchain : ∀ {bridge}, AdminConfig L payer chainId bridge →
      bridge.chainId = chainId :=
    fun hadmin => ((hwf (.bridgeConfig chainId)).load hadmin.1).2.2
  rw [← exists_adminConfig hwf]
  constructor
  · rintro ⟨bridge, hadmin, hne⟩
    exact ⟨⟨bridge, hadmin⟩, by rwa [← hchain hadmin]⟩
  · rintro ⟨⟨bridge, hadmin⟩, hne⟩
    exact ⟨bridge, hadmin, by rwa [hchain hadmin]⟩

theorem exists_upserts {T : Type} [AnchorAccount T] {a : Address} {P : T → Prop}
    (h : L.Keeps a P) (update : T → T) : ∃ L', L.Upserts a update L' := by
  rcases h.initIfNeeded_isOk with ⟨L₁, record, hinit, -, hsized, -⟩
  rcases hsized.exit_isOk (update record) with ⟨L', hexit⟩
  exact ⟨L', L₁, record, hinit, hexit⟩

private theorem exists_load_chain (hwf : WellFormed L) {c : U8} :
    (∃ chain, L.load SupportedChainConfig (Pda.supportedChain c).address =
        .ok chain) ↔
      ¬ L.Vacant (Pda.supportedChain c).address := by
  constructor
  · rintro ⟨chain, hload⟩
    exact ((hwf (.supportedChain c)).load hload).1.not_vacant
  · intro hpresent
    rcases hwf (.supportedChain c) with hvacant | ⟨chain, hstores, -⟩
    · exact absurd hvacant hpresent
    · exact ⟨chain, hstores.load⟩

end

/-! ## Batches -/

section

variable {L : Ledger}

private theorem placeable_iff_checks (hrent : ∀ a, (L a).RentExempt)
    {ps : List Placement} :
    L.Placeable ps ↔ ∀ p ∈ ps, (L p.address).lamports = 0 →
      ∀ q, ps.find? (fun q => q.address = p.address) = some q → q.check := by
  rw [Ledger.placeable_iff]
  constructor
  · intro h p hp hempty
    exact (h p hp hempty).2
  · intro h p hp hempty
    exact ⟨Ledger.vacant_of_unfunded (hrent _) hempty, h p hp hempty⟩

private theorem placeable_memberPlacements (hrent : ∀ a, (L a).RentExempt)
    (members : List (Pubkey × U16)) :
    L.Placeable (memberPlacements members) := by
  rw [placeable_iff_checks hrent]
  intro p hp _ q hq
  rcases List.mem_map.mp (List.mem_of_find?_eq_some hq) with ⟨member, -, rfl⟩
  trivial

private theorem placeable_entryPlacements_iff (hrent : ∀ a, (L a).RentExempt)
    {entries : List TokenEntry} :
    L.Placeable (entryPlacements entries) ↔ ∀ c t entry,
      firstEntry entries c t = some entry →
        (L (Pda.tokenConfig c t).address).lamports = 0 →
          entry.tokenFeePercentage.toNat < Constants.feeDenominator := by
  rw [placeable_iff_checks hrent]
  constructor
  · intro h c t entry hfirst hempty
    have hmem := List.mem_of_find?_eq_some hfirst
    have hfor : IsFor c t entry := by
      simpa using List.find?_some hfirst
    have haddress : (tokenPlacement entry).address =
        (Pda.tokenConfig c t).address := by
      rw [tokenPlacement, hfor.1, hfor.2]
    refine h (tokenPlacement entry)
      (mem_entryPlacements.mpr ⟨entry, hmem, .inl rfl⟩)
      (by rwa [haddress]) (tokenPlacement entry) ?_
    rw [haddress, find_tokenPlacement, hfirst, Option.map_some]
  · intro h p hp hempty q hq
    rcases mem_entryPlacements.mp hp with ⟨entry, hmem, rfl | rfl⟩
    · have hfind := find_tokenPlacement entries entry.supportedChainId
        entry.tokenId
      rw [tokenPlacement] at hq hempty
      simp only at hq hempty
      rw [hfind, Option.map_eq_some_iff] at hq
      rcases hq with ⟨first, hfirst, rfl⟩
      exact h _ _ first hfirst hempty
    · have hfind := find_chainPlacement ⟨entry, hmem, rfl⟩
      rw [chainPlacement] at hq
      simp only at hq
      rw [hfind] at hq
      cases hq
      trivial

end

def MintsOwned (L : Ledger) : Prop :=
  ∀ b, L.Vacant (Pda.sbtcMint b).address ∨
    ∃ r : BridgeConfig, L.Stores (Pda.bridgeConfig b).address r

section

variable {host : Host}

private theorem mintsOwned_step {e : BridgeRecord} (hwf : WellFormed e.pre)
    (h : MintsOwned e.pre) (hstep : IsStep (step host) e) :
    MintsOwned e.post := by
  intro b
  have hkept : (∃ r : BridgeConfig,
      e.pre.Stores (Pda.bridgeConfig b).address r) →
      ∃ r : BridgeConfig, e.post.Stores (Pda.bridgeConfig b).address r :=
    fun ⟨r, hstores⟩ => ⟨r, bridge_kept hwf hstep hstores⟩
  have hpresent : ∀ {m}, (e.pre (Pda.sbtcMint b).address).body = .mint m →
      ∃ r : BridgeConfig, e.pre.Stores (Pda.bridgeConfig b).address r := by
    intro m hmint
    rcases h b with hvacant | hstored
    · rw [Ledger.Vacant, hmint] at hvacant
      cases hvacant
    · exact hstored
  obtain ⟨L, input, events, L'⟩ := e
  rcases step_evolves hwf hstep (.sbtcMint b) with hsame | hchange
  · rcases h b with hvacant | hstored
    · exact .inl (by rw [Ledger.Vacant, hsame]; exact hvacant)
    · exact .inr (hkept hstored)
  · right
    cases hchange with
    | mintCreated hvacant _ _ =>
        rcases createBridgeConfig_eq_ok.mp hstep with ⟨-, -, -, -, -, -, hpost, -⟩
        simp only at hpost
        subst hpost
        exact ⟨_, placeAll_openBridge_stores⟩
    | supplyMinted hmint _ => exact hkept (hpresent hmint)
    | supplyWithdrawn hmint _ => exact hkept (hpresent hmint)

theorem execute_mintsOwned (inputs : List Input) :
    MintsOwned (execute host inputs).state :=
  (run_invariant (I := fun L => WellFormed L ∧ MintsOwned L)
    ⟨wellFormed_empty, fun _ => .inl rfl⟩
    (fun _ h hstep => ⟨wellFormed_step h.1 hstep,
      mintsOwned_step h.1 h.2 hstep⟩) inputs).2

end

theorem MintsOwned.vacant {L : Ledger} (h : MintsOwned L) {b : U8}
    (hvacant : L.Vacant (Pda.bridgeConfig b).address) :
    L.Vacant (Pda.sbtcMint b).address := by
  rcases h b with hmint | ⟨r, hstores⟩
  · exact hmint
  · exact absurd hvacant hstores.not_vacant

/-! ## The six instructions -/

section

variable {host : Host} {L : Ledger} {ctx : Context} {payer : Pubkey}
  {chainId : U8}

private theorem createBridgeConfig_isOk_iff
    {tokenName tokenSymbol tokenUri : String}
    {administrator feeRecipient : Pubkey} {tokenIds supportedChains : List U8}
    {tokenFeePercentages tokenMinAmount : List U64} (howned : MintsOwned L)
    (hrent : ∀ a, (L a).RentExempt) :
    (∃ out, createBridgeConfig host L ctx payer chainId tokenName tokenSymbol
        tokenUri administrator feeRecipient tokenIds supportedChains
        tokenFeePercentages tokenMinAmount = .ok out) ↔
      CreationAdmissible host L ctx payer chainId tokenName tokenSymbol tokenUri
        administrator feeRecipient tokenIds supportedChains tokenFeePercentages
        tokenMinAmount := by
  have hopened : (openBridge host L chainId administrator feeRecipient).Placeable
        (entryPlacements (tokenEntries tokenIds supportedChains
          tokenFeePercentages tokenMinAmount)) ↔
      L.Placeable (entryPlacements (tokenEntries tokenIds supportedChains
        tokenFeePercentages tokenMinAmount)) := by
    refine Ledger.placeable_congr fun p hp =>
      openBridge_of_ne (entry_ne_bridge hp) ?_
    rcases mem_entryPlacements.mp hp with ⟨entry, -, rfl | rfl⟩
    · simp [tokenPlacement]
    · simp [chainPlacement]
  have hlisted : (∀ p ∈ entryPlacements (tokenEntries tokenIds supportedChains
        tokenFeePercentages tokenMinAmount), p.address ∈ ctx.remainingAccounts) ↔
      ∀ entry ∈ tokenEntries tokenIds supportedChains tokenFeePercentages
        tokenMinAmount,
        (Pda.tokenConfig entry.supportedChainId entry.tokenId).address ∈
            ctx.remainingAccounts ∧
          (Pda.supportedChain entry.supportedChainId).address ∈
            ctx.remainingAccounts := by
    simp only [entryPlacements, List.forall_mem_flatMap, List.forall_mem_cons,
      List.not_mem_nil, false_imp_iff, implies_true, and_true]
    rfl
  simp only [Prod.exists, createBridgeConfig_eq_ok, hopened, hlisted,
    placeable_entryPlacements_iff hrent, exists_and_left, exists_eq, and_true]
  constructor
  · rintro ⟨⟨hnew, -⟩, ⟨hpayer, hfee, hadmin, hmetadata⟩, hlengths, hchains,
      hlisted, hfees⟩
    exact ⟨hpayer, hnew, ⟨hfee, hadmin⟩, hmetadata, hlengths, hchains, hlisted,
      hfees⟩
  · intro h
    exact ⟨⟨h.new, howned.vacant h.new⟩, ⟨h.payer, h.keys.1, h.keys.2,
      h.metadata⟩, h.lengths, h.otherChains, h.listed, h.fees⟩

private theorem createBridgeCommittee_isOk_iff {submitter : Pubkey}
    {committee : List Pubkey} {stake : List U16} (hwf : WellFormed L)
    (hrent : ∀ a, (L a).RentExempt) :
    (∃ out, createBridgeCommittee L ctx payer chainId submitter committee
        stake = .ok out) ↔
      Administered L payer chainId ∧ committee.length < 256 ∧
        committee.length = stake.length ∧
        ∀ member ∈ committee,
          (Pda.committee member).address ∈ ctx.remainingAccounts := by
  have hlisted : committee.length = stake.length →
      ((∀ p ∈ memberPlacements (committee.zip stake),
          p.address ∈ ctx.remainingAccounts) ↔
        ∀ member ∈ committee,
          (Pda.committee member).address ∈ ctx.remainingAccounts) := by
    intro hlength
    have hmembers : (committee.zip stake).map Prod.fst = committee :=
      List.map_fst_zip hlength.le
    conv_rhs => rw [← hmembers]
    rw [memberPlacements, List.forall_mem_map, List.forall_mem_map]
    rfl
  simp only [Prod.exists, createBridgeCommittee_eq_ok,
    exists_adminConfig hwf]
  constructor
  · rintro ⟨L', events, hadmin, ⟨hlimit, hlength⟩, hall, -⟩
    exact ⟨hadmin, hlimit, hlength, (hlisted hlength).mp hall⟩
  · rintro ⟨hadmin, hlimit, hlength, hall⟩
    rcases exists_upserts (hwf (.submitter submitter))
      (Submitter.create submitter) with ⟨L₁, hupserts⟩
    have hplaceable : L₁.Placeable (memberPlacements (committee.zip stake)) :=
      (Ledger.placeable_congr fun p hp =>
        hupserts.of_ne (member_ne_submitter hp)).mpr
        (placeable_memberPlacements hrent _)
    exact ⟨_, [], hadmin, ⟨hlimit, hlength⟩, (hlisted hlength).mpr hall, L₁,
      hupserts, hplaceable, rfl, rfl⟩

private theorem addOrUpdateChain_isOk_iff {supportedChainId : U8}
    {supported : Bool} (hwf : WellFormed L) :
    (∃ out, addOrUpdateChain L payer chainId supportedChainId supported =
        .ok out) ↔
      Administered L payer chainId ∧ chainId ≠ supportedChainId := by
  simp only [Prod.exists, addOrUpdateChain_eq_ok,
    exists_adminConfig_ne hwf, exists_and_left, exists_eq, and_true]
  exact and_iff_left (exists_upserts (hwf (.supportedChain supportedChainId)) _)

private theorem addOrUpdateChainToken_isOk_iff {supportedChainId tokenId : U8}
    {tokenFeePercentages tokenMinAmount : U64} {withdrawPaused : Bool}
    (hwf : WellFormed L) :
    (∃ out, addOrUpdateChainToken L payer chainId supportedChainId tokenId
        tokenFeePercentages tokenMinAmount withdrawPaused = .ok out) ↔
      Administered L payer chainId ∧ chainId ≠ supportedChainId ∧
        ¬ L.Vacant (Pda.supportedChain supportedChainId).address ∧
        tokenFeePercentages.toNat < Constants.feeDenominator := by
  have hupserts := exists_upserts
    (hwf (.tokenConfig supportedChainId tokenId))
    (TokenConfig.addOrUpdate supportedChainId tokenId tokenFeePercentages
      tokenMinAmount withdrawPaused)
  simp only [Prod.exists, addOrUpdateChainToken_eq_ok,
    exists_adminConfig_ne hwf, exists_load_chain hwf, exists_and_left,
    exists_eq, and_true, hupserts, and_assoc]

private theorem addOrUpdateCommittee_isOk_iff {committee : Pubkey} {stake : U16}
    {isBlocklisted : Bool} (hwf : WellFormed L) :
    (∃ out, addOrUpdateCommittee L payer chainId committee stake isBlocklisted =
        .ok out) ↔ Administered L payer chainId := by
  simp only [Prod.exists, addOrUpdateCommittee_eq_ok,
    exists_adminConfig hwf, exists_and_left, exists_eq, and_true]
  exact and_iff_left (exists_upserts (hwf (.committee committee)) _)

private theorem addOrUpdateSubmitter_isOk_iff {submitter : Pubkey}
    {isSubmitter : Bool} (hwf : WellFormed L) :
    (∃ out, addOrUpdateSubmitter L payer chainId submitter isSubmitter =
        .ok out) ↔ Administered L payer chainId := by
  simp only [Prod.exists, addOrUpdateSubmitter_eq_ok,
    exists_adminConfig hwf, exists_and_left, exists_eq, and_true]
  exact and_iff_left (exists_upserts (hwf (.submitter submitter)) _)

theorem admin_isOk_iff (hwf : WellFormed L) (howned : MintsOwned L)
    (hrent : ∀ a, (L a).RentExempt) (i : Input) :
    (IsAdministrative i ∧ ∃ out, step host L i = .ok out) ↔
      AdminAdmissible host L i := by
  cases i with
  | createBridgeConfig =>
      exact (and_iff_right trivial).trans
        (createBridgeConfig_isOk_iff howned hrent)
  | addOrUpdateChain =>
      exact (and_iff_right trivial).trans (addOrUpdateChain_isOk_iff hwf)
  | addOrUpdateChainToken =>
      exact (and_iff_right trivial).trans (addOrUpdateChainToken_isOk_iff hwf)
  | createBridgeCommittee =>
      exact (and_iff_right trivial).trans
        (createBridgeCommittee_isOk_iff hwf hrent)
  | addOrUpdateCommittee =>
      exact (and_iff_right trivial).trans (addOrUpdateCommittee_isOk_iff hwf)
  | addOrUpdateSubmitter =>
      exact (and_iff_right trivial).trans (addOrUpdateSubmitter_isOk_iff hwf)
  | _ => exact ⟨fun h => h.1.elim, False.elim⟩

end

/-- In a reachable state an administrative input succeeds exactly if it may. -/
theorem admin_accepted_iff (host : Host) (inputs : List Input) (i : Input) :
    (IsAdministrative i ∧
        ∃ out, step host (execute host inputs).state i = .ok out) ↔
      AdminAdmissible host (execute host inputs).state i :=
  admin_isOk_iff (execute_wellFormed host inputs) (execute_mintsOwned inputs)
    (execute_rentExempt host inputs) i

end SolBtcBridge.Properties
