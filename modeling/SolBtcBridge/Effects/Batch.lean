import SolBtcBridge.Effects.Records
import SolBtcBridge.Effects.Verify
import SolBtcBridge.Runtime.Placement

/-!
# Batch creation as placements

A batch instruction succeeds exactly when its checks pass, its addresses are
listed and its placements are possible; then it opens its own accounts and
performs the placements in order.
-/

namespace SolBtcBridge.Effects

open SolBtcBridge.Foundation
open SolBtcBridge.Runtime
open SolBtcBridge.Program

section

variable {T : Type} [AnchorAccount T]

private theorem createAccountIfnExist_eq_ok {L L' : Ledger} {a : Address}
    {space : Nat} (hempty : (L a).lamports = 0) :
    createAccountIfnExist L a space = .ok L' ↔ L.Vacant a ∧
      L' = L.set a ⟨minimumBalance space, .bridge (List.replicate space 0)⟩ := by
  simp only [createAccountIfnExist, if_pos hempty, bind_eq_ok,
    Account.allocate_eq_ok, pure_eq_ok]
  rw [hempty, Nat.zero_max]
  constructor
  · rintro ⟨account, ⟨hvacant, rfl⟩, rfl⟩
    exact ⟨hvacant, rfl⟩
  · rintro ⟨hvacant, rfl⟩
    exact ⟨_, ⟨hvacant, rfl⟩, rfl⟩

private theorem createAndSerialize_eq_ok {L L' : Ledger} {a : Address} {t : T}
    {code : ErrorCode} (check : Prop) (hempty : (L a).lamports = 0) :
    (∃ L₁, createAccountIfnExist L a (AnchorAccount.len T) = .ok L₁ ∧
        L₁.serializeRaw a t code = .ok L') ↔
      L.Vacant a ∧ L' = L.place ⟨a, image t, check⟩ := by
  have hplace : L.place ⟨a, image t, check⟩ =
      L.set a ⟨minimumBalance (AnchorAccount.len T), .bridge (image t)⟩ := by
    rw [Ledger.place_of_unfunded hempty, Placement.account, length_image]
  have hwritten : (L.set a ⟨minimumBalance (AnchorAccount.len T),
      .bridge (List.replicate (AnchorAccount.len T) 0)⟩).setBody a
        (.bridge (image t ++ (List.replicate (AnchorAccount.len T) 0).drop
          (AnchorAccount.len T))) =
      L.set a ⟨minimumBalance (AnchorAccount.len T), .bridge (image t)⟩ := by
    rw [Ledger.setBody, Ledger.set_self, Ledger.set_set, List.drop_replicate,
      Nat.sub_self, List.replicate_zero, List.append_nil]
  simp only [createAccountIfnExist_eq_ok hempty, Ledger.serializeRaw_eq_ok,
    Ledger.exit_eq_ok, hplace]
  constructor
  · rintro ⟨L₁, ⟨hvacant, rfl⟩, data, hdata, -, rfl⟩
    rw [Ledger.set_self] at hdata
    cases hdata
    exact ⟨hvacant, hwritten⟩
  · rintro ⟨hvacant, rfl⟩
    exact ⟨_, ⟨hvacant, rfl⟩, List.replicate (AnchorAccount.len T) 0,
      by rw [Ledger.set_self], by rw [List.length_replicate], hwritten.symm⟩

end

private theorem ite_place_eq_ok {L L' : Ledger} {p : Placement}
    {created : Result Ledger}
    (h : (L p.address).lamports = 0 → (created = .ok L' ↔
      (L.Vacant p.address ∧ p.check) ∧ L' = L.place p)) :
    (if (L p.address).lamports = 0 then created else .ok L) = .ok L' ↔
      L.Accepts p ∧ L' = L.place p := by
  by_cases hempty : (L p.address).lamports = 0
  · rw [if_pos hempty, h hempty, Ledger.Accepts, forall_prop_of_true hempty]
  · rw [if_neg hempty, Ledger.place_of_funded hempty, Except.ok.injEq]
    exact ⟨fun heq => ⟨fun h => absurd h hempty, heq.symm⟩, fun h => h.2.symm⟩

def tokenPlacement (entry : TokenEntry) : Placement where
  address := (Pda.tokenConfig entry.supportedChainId entry.tokenId).address
  data := image entry.tokenConfig
  check := entry.tokenFeePercentage.toNat < Constants.feeDenominator

def chainPlacement (supportedChainId : U8) : Placement where
  address := (Pda.supportedChain supportedChainId).address
  data := image (listedChain supportedChainId)
  check := True

def memberPlacement (member : Pubkey) (stake : U16) : Placement where
  address := (Pda.committee member).address
  data := image (listedMember member stake)
  check := True

private theorem createTokenConfig_eq_ok {L L' : Ledger}
    {accounts : List Address} {entry : TokenEntry} :
    createTokenConfig L accounts entry = .ok L' ↔
      (tokenPlacement entry).address ∈ accounts ∧
        L.Accepts (tokenPlacement entry) ∧ L' = L.place (tokenPlacement entry) := by
  simp only [createTokenConfig, bind_eq_ok, orFail_eq_ok,
    findAtaInAccounts_eq_some, and_assoc, exists_eq_left]
  refine and_congr_right fun _ =>
    ite_place_eq_ok (p := tokenPlacement entry) fun hempty => ?_
  simp only [bind_eq_ok, require_eq_ok, exists_and_left, exists_const]
  constructor
  · rintro ⟨L₁, hcreate, hfee, hwrite⟩
    rcases (createAndSerialize_eq_ok _ hempty).mp ⟨L₁, hcreate, hwrite⟩ with
      ⟨hvacant, hplace⟩
    exact ⟨⟨hvacant, hfee⟩, hplace⟩
  · rintro ⟨⟨hvacant, hfee⟩, hplace⟩
    rcases (createAndSerialize_eq_ok _ hempty).mpr ⟨hvacant, hplace⟩ with
      ⟨L₁, hcreate, hwrite⟩
    exact ⟨L₁, hcreate, hfee, hwrite⟩

private theorem createSupportedChain_eq_ok {L L' : Ledger}
    {accounts : List Address} {chainId : U8} :
    createSupportedChain L accounts chainId = .ok L' ↔
      (chainPlacement chainId).address ∈ accounts ∧
        L.Accepts (chainPlacement chainId) ∧
        L' = L.place (chainPlacement chainId) := by
  simp only [createSupportedChain, bind_eq_ok, orFail_eq_ok,
    findAtaInAccounts_eq_some, and_assoc, exists_eq_left]
  refine and_congr_right fun _ =>
    ite_place_eq_ok (p := chainPlacement chainId) fun hempty => ?_
  rw [bind_eq_ok]
  refine (createAndSerialize_eq_ok True hempty).trans ?_
  exact and_congr_left fun _ => (and_iff_left trivial).symm

private theorem createMember_eq_ok {L L' : Ledger} {accounts : List Address}
    {member : Pubkey} {stake : U16} :
    createMember L accounts member stake = .ok L' ↔
      (memberPlacement member stake).address ∈ accounts ∧
        L.Accepts (memberPlacement member stake) ∧
        L' = L.place (memberPlacement member stake) := by
  simp only [createMember, getCommiteeAccount, bind_eq_ok, orFail_eq_ok,
    findAtaInAccounts_eq_some, and_assoc, exists_eq_left]
  refine and_congr_right fun _ =>
    ite_place_eq_ok (p := memberPlacement member stake) fun hempty => ?_
  rw [bind_eq_ok]
  refine (createAndSerialize_eq_ok True hempty).trans ?_
  exact and_congr_left fun _ => (and_iff_left trivial).symm

/-! ## Token and chain records -/

def entryPlacements (entries : List TokenEntry) : List Placement :=
  entries.flatMap fun entry =>
    [tokenPlacement entry, chainPlacement entry.supportedChainId]

theorem entryPlacements_nil : entryPlacements [] = [] := rfl

theorem entryPlacements_cons (entry : TokenEntry) (entries : List TokenEntry) :
    entryPlacements (entry :: entries) = tokenPlacement entry ::
      chainPlacement entry.supportedChainId :: entryPlacements entries := rfl

theorem mem_entryPlacements {entries : List TokenEntry} {p : Placement} :
    p ∈ entryPlacements entries ↔ ∃ entry ∈ entries,
      p = tokenPlacement entry ∨ p = chainPlacement entry.supportedChainId := by
  simp only [entryPlacements, List.mem_flatMap, List.mem_cons,
    List.not_mem_nil, or_false]

private theorem createEntries_eq_ok {accounts : List Address}
    {bridge : BridgeConfig} {chainId : U8} {L L' : Ledger}
    {entries : List TokenEntry} :
    createEntries accounts bridge chainId L entries = .ok L' ↔
      (∀ entry ∈ entries, entry.supportedChainId ≠ chainId ∧
        entry.supportedChainId ≠ bridge.chainId) ∧
      (∀ p ∈ entryPlacements entries, p.address ∈ accounts) ∧
      L.Placeable (entryPlacements entries) ∧
      L' = L.placeAll (entryPlacements entries) := by
  induction entries generalizing L with
  | nil =>
      simp [createEntries, entryPlacements, Ledger.Placeable, Ledger.placeAll,
        eq_comm]
  | cons entry entries ih =>
      simp only [createEntries, bind_eq_ok, require_eq_ok,
        createTokenConfig_eq_ok, createSupportedChain_eq_ok, ih, exists_and_left,
        exists_const, entryPlacements_cons, List.forall_mem_cons,
        Ledger.Placeable, Ledger.placeAll]
      constructor
      · rintro ⟨hchain, _, ⟨htokenListed, htoken, rfl⟩, hself, _,
          ⟨hchainListed, hplaced, rfl⟩, hids, hlisted, hplaceable, rfl⟩
        exact ⟨⟨⟨hchain, hself⟩, hids⟩, ⟨htokenListed, hchainListed, hlisted⟩,
          ⟨htoken, hplaced, hplaceable⟩, rfl⟩
      · rintro ⟨⟨⟨hchain, hself⟩, hids⟩, ⟨htokenListed, hchainListed, hlisted⟩,
          ⟨htoken, hplaced, hplaceable⟩, rfl⟩
        exact ⟨hchain, _, ⟨htokenListed, htoken, rfl⟩, hself, _,
          ⟨hchainListed, hplaced, rfl⟩, hids, hlisted, hplaceable, rfl⟩

def IsFor (chainId tokenId : U8) (entry : TokenEntry) : Prop :=
  entry.supportedChainId = chainId ∧ entry.tokenId = tokenId

instance (chainId tokenId : U8) (entry : TokenEntry) :
    Decidable (IsFor chainId tokenId entry) :=
  inferInstanceAs (Decidable (_ ∧ _))

def firstEntry (entries : List TokenEntry) (chainId tokenId : U8) :
    Option TokenEntry :=
  entries.find? fun entry => IsFor chainId tokenId entry

theorem find_tokenPlacement (entries : List TokenEntry) (chainId tokenId : U8) :
    ((entryPlacements entries).find? fun p =>
        p.address = (Pda.tokenConfig chainId tokenId).address) =
      (firstEntry entries chainId tokenId).map tokenPlacement := by
  induction entries with
  | nil => rfl
  | cons entry entries ih =>
      have hchain : (chainPlacement entry.supportedChainId).address ≠
          (Pda.tokenConfig chainId tokenId).address := by
        simp [chainPlacement]
      have hsame : (tokenPlacement entry).address =
          (Pda.tokenConfig chainId tokenId).address ↔
            IsFor chainId tokenId entry := by
        simp [tokenPlacement, IsFor]
      rw [entryPlacements_cons]
      by_cases hentry : IsFor chainId tokenId entry
      · rw [List.find?_cons_of_pos (by simpa using hsame.mpr hentry), firstEntry,
          List.find?_cons_of_pos (by simpa using hentry), Option.map_some]
      · rw [List.find?_cons_of_neg (by simpa [hsame] using hentry),
          List.find?_cons_of_neg (by simpa using hchain), ih, firstEntry,
          firstEntry, List.find?_cons_of_neg (by simpa using hentry)]

theorem find_chainPlacement {entries : List TokenEntry} {chainId : U8}
    (h : ∃ entry ∈ entries, entry.supportedChainId = chainId) :
    ((entryPlacements entries).find? fun p =>
        p.address = (Pda.supportedChain chainId).address) =
      some (chainPlacement chainId) := by
  induction entries with
  | nil =>
      rcases h with ⟨entry, hmem, -⟩
      contradiction
  | cons entry entries ih =>
      have htoken : (tokenPlacement entry).address ≠
          (Pda.supportedChain chainId).address := by
        simp [tokenPlacement]
      have hsame : (chainPlacement entry.supportedChainId).address =
          (Pda.supportedChain chainId).address ↔
            entry.supportedChainId = chainId := by
        simp [chainPlacement]
      rw [entryPlacements_cons, List.find?_cons_of_neg (by simpa using htoken)]
      by_cases hentry : entry.supportedChainId = chainId
      · rw [List.find?_cons_of_pos (by simpa using hsame.mpr hentry), hentry]
      · rw [List.find?_cons_of_neg (by simpa [hsame] using hentry)]
        apply ih
        rcases h with ⟨other, hmem, hother⟩
        rcases List.mem_cons.mp hmem with rfl | hmem
        · exact absurd hother hentry
        · exact ⟨other, hmem, hother⟩

/-! ## Committee records -/

def memberPlacements (members : List (Pubkey × U16)) : List Placement :=
  members.map fun member => memberPlacement member.1 member.2

theorem memberPlacements_nil : memberPlacements [] = [] := rfl

private theorem createMembers_eq_ok {accounts : List Address} {L L' : Ledger}
    {members : List (Pubkey × U16)} :
    createMembers accounts L members = .ok L' ↔
      (∀ p ∈ memberPlacements members, p.address ∈ accounts) ∧
      L.Placeable (memberPlacements members) ∧
      L' = L.placeAll (memberPlacements members) := by
  induction members generalizing L with
  | nil =>
      simp [createMembers, memberPlacements, Ledger.Placeable, Ledger.placeAll,
        eq_comm]
  | cons member members ih =>
      simp only [createMembers, bind_eq_ok, createMember_eq_ok, ih,
        memberPlacements, List.map_cons, List.forall_mem_cons, Ledger.Placeable,
        Ledger.placeAll]
      constructor
      · rintro ⟨_, ⟨hlisted, haccepts, rfl⟩, hrest, hplaceable, rfl⟩
        exact ⟨⟨hlisted, hrest⟩, ⟨haccepts, hplaceable⟩, rfl⟩
      · rintro ⟨⟨hlisted, hrest⟩, ⟨haccepts, hplaceable⟩, rfl⟩
        exact ⟨_, ⟨hlisted, haccepts, rfl⟩, hrest, hplaceable, rfl⟩

def firstStake (members : List (Pubkey × U16)) (key : Pubkey) :
    Option (Pubkey × U16) :=
  members.find? fun member => member.1 = key

theorem find_memberPlacement (members : List (Pubkey × U16)) (key : Pubkey) :
    ((memberPlacements members).find? fun p =>
        p.address = (Pda.committee key).address) =
      (firstStake members key).map fun member =>
        memberPlacement member.1 member.2 := by
  have hsame : ∀ member : Pubkey × U16,
      decide ((memberPlacement member.1 member.2).address =
        (Pda.committee key).address) = decide (member.1 = key) := by
    intro member
    simp [memberPlacement]
  rw [memberPlacements, List.find?_map, firstStake]
  congr 2
  funext member
  exact hsame member

/-! ## The two instructions -/

section

variable (host : Host) (L : Ledger) (chainId : U8)
  (administrator feeRecipient : Pubkey)

/-- The bridge record as `create_bridge_config` writes it. -/
def createdConfig : BridgeConfig :=
  { (AnchorAccount.zeroed : BridgeConfig) with
    isInitialized := true
    chainId := chainId
    admin := administrator
    feeRecipient := feeRecipient
    sbtcMint := host.programAddress (Pda.sbtcMint chainId).seedBytes }

/-- The ledger with the two accounts of a new bridge. -/
def openBridge : Ledger :=
  (L.set (Pda.bridgeConfig chainId).address
    ⟨max (L (Pda.bridgeConfig chainId).address).lamports
        (minimumBalance (AnchorAccount.len BridgeConfig)),
      .bridge (image (createdConfig host chainId administrator feeRecipient))⟩).set
    (Pda.sbtcMint chainId).address
    ⟨max (L (Pda.sbtcMint chainId).address).lamports (minimumBalance 82),
      .mint ⟨(Pda.sbtcMint chainId).address, 0⟩⟩

variable {host L chainId administrator feeRecipient}

theorem openBridge_of_ne {a : Address}
    (hbridge : a ≠ (Pda.bridgeConfig chainId).address)
    (hmint : a ≠ (Pda.sbtcMint chainId).address) :
    openBridge host L chainId administrator feeRecipient a = L a := by
  rw [openBridge, Ledger.set_of_ne _ _ hmint, Ledger.set_of_ne _ _ hbridge]

theorem openBridge_stores :
    (openBridge host L chainId administrator feeRecipient).Stores
      (Pda.bridgeConfig chainId).address
      (createdConfig host chainId administrator feeRecipient) := by
  rw [Ledger.Stores, openBridge, Ledger.set_of_ne _ _ (by simp), Ledger.set_self]

theorem openBridge_mint :
    (openBridge host L chainId administrator feeRecipient
      (Pda.sbtcMint chainId).address).body =
        .mint ⟨(Pda.sbtcMint chainId).address, 0⟩ := by
  rw [openBridge, Ledger.set_self]

private theorem openBridge_exit {L' : Ledger} :
    ((L.set (Pda.bridgeConfig chainId).address
        ⟨max (L (Pda.bridgeConfig chainId).address).lamports
            (minimumBalance (AnchorAccount.len BridgeConfig)),
          .bridge (List.replicate (AnchorAccount.len BridgeConfig) 0)⟩).set
        (Pda.sbtcMint chainId).address
        ⟨max (L (Pda.sbtcMint chainId).address).lamports (minimumBalance 82),
          .mint ⟨(Pda.sbtcMint chainId).address, 0⟩⟩).exit
        (Pda.bridgeConfig chainId).address
        (createdConfig host chainId administrator feeRecipient) = .ok L' ↔
      L' = openBridge host L chainId administrator feeRecipient := by
  have hne : (Pda.bridgeConfig chainId).address ≠
      (Pda.sbtcMint chainId).address := by
    simp
  rw [openBridge, Ledger.set_comm _ _ _ hne, Ledger.set_comm _ _ _ hne,
    Ledger.exit_eq_ok]
  simp only [Ledger.set_self, Ledger.setBody, AccountBody.bridge.injEq,
    exists_eq_left', List.length_replicate, le_refl, true_and, Ledger.set_set,
    List.drop_replicate, Nat.sub_self, List.replicate_zero, List.append_nil]

end

theorem entry_ne_bridge {entries : List TokenEntry} {chainId : U8}
    {p : Placement} (hp : p ∈ entryPlacements entries) :
    p.address ≠ (Pda.bridgeConfig chainId).address := by
  rcases mem_entryPlacements.mp hp with ⟨entry, -, rfl | rfl⟩
  · simp [tokenPlacement]
  · simp [chainPlacement]

/-- The bridge record is written last, but no placement depends on that. -/
theorem createBridgeConfig_eq_ok {host : Host} {L L' : Ledger} {ctx : Context}
    {payer : Pubkey} {chainId : U8} {name symbol uri : String}
    {administrator feeRecipient : Pubkey} {tokenIds supportedChains : List U8}
    {fees minimums : List U64} {events : List Event} :
    createBridgeConfig host L ctx payer chainId name symbol uri administrator
        feeRecipient tokenIds supportedChains fees minimums =
          .ok (L', events) ↔
      (L.Vacant (Pda.bridgeConfig chainId).address ∧
        L.Vacant (Pda.sbtcMint chainId).address) ∧
      (payer = Constants.supperAdmin ∧ feeRecipient ≠ 0 ∧ administrator ≠ 0 ∧
        host.createMetadataAccountsV3 name symbol uri = true) ∧
      (tokenIds.length = supportedChains.length ∧
        tokenIds.length = fees.length ∧ tokenIds.length = minimums.length) ∧
      (∀ entry ∈ tokenEntries tokenIds supportedChains fees minimums,
        entry.supportedChainId ≠ chainId) ∧
      (∀ p ∈ entryPlacements
          (tokenEntries tokenIds supportedChains fees minimums),
        p.address ∈ ctx.remainingAccounts) ∧
      (openBridge host L chainId administrator feeRecipient).Placeable
        (entryPlacements (tokenEntries tokenIds supportedChains fees minimums)) ∧
      L' = (openBridge host L chainId administrator feeRecipient).placeAll
        (entryPlacements (tokenEntries tokenIds supportedChains fees minimums)) ∧
      events = [] := by
  generalize hentries :
    tokenEntries tokenIds supportedChains fees minimums = entries
  have hbridge : ∀ p ∈ entryPlacements entries,
      p.address ≠ (Pda.bridgeConfig chainId).address :=
    fun p hp => entry_ne_bridge hp
  have hmint : ∀ account, (L.set (Pda.bridgeConfig chainId).address account)
      (Pda.sbtcMint chainId).address = L (Pda.sbtcMint chainId).address :=
    fun account => Ledger.set_of_ne L account (by simp)
  have hplaceable : ∀ {L₁ : Ledger} {config : BridgeConfig} {L₂ : Ledger},
      L₁.exit (Pda.bridgeConfig chainId).address config = .ok L₂ →
        (L₂.Placeable (entryPlacements entries) ↔
          L₁.Placeable (entryPlacements entries)) :=
    fun hexit => Ledger.placeable_congr fun p hp =>
      Ledger.exit_of_ne hexit (hbridge p hp)
  simp only [createBridgeConfig, hentries, bind_eq_ok, require_eq_ok, pure_eq_ok,
    exists_and_left, exists_const, Prod.exists, Prod.mk.injEq,
    createEntries_eq_ok, Ledger.init_eq_ok le_rfl, Ledger.initMint_eq_ok]
  constructor
  · rintro ⟨_, zeroed, ⟨hvacant, rfl, rfl⟩, _, ⟨hvacant', rfl⟩, hpayer, hchains,
      hfees, hminimums, hfee, hadmin, _, ⟨hids, hlisted, hplace, rfl⟩, hmetadata,
      _, hexit, rfl, rfl⟩
    rcases (Ledger.exit_placeAll hbridge).mp hexit with ⟨L₁, hfirst, rfl⟩
    have hplace' := (hplaceable hfirst).mpr hplace
    rw [hmint] at hvacant' hfirst
    rw [openBridge_exit.mp hfirst] at hplace' ⊢
    exact ⟨⟨hvacant, hvacant'⟩, ⟨hpayer, hfee, hadmin, hmetadata⟩,
      ⟨hchains, hfees, hminimums⟩, fun entry hentry => (hids entry hentry).1,
      hlisted, hplace', rfl, rfl⟩
  · rintro ⟨⟨hvacant, hvacant'⟩, ⟨hpayer, hfee, hadmin, hmetadata⟩,
      ⟨hchains, hfees, hminimums⟩, hids, hlisted, hplace, rfl, rfl⟩
    have hfirst := openBridge_exit.mpr
      (Eq.refl (openBridge host L chainId administrator feeRecipient))
    refine ⟨_, _, ⟨hvacant, rfl, rfl⟩, _, ⟨by rwa [hmint], rfl⟩, hpayer, hchains,
      hfees, hminimums, hfee, hadmin, _,
      ⟨fun entry hentry => ⟨hids entry hentry, hids entry hentry⟩, hlisted, ?_,
        rfl⟩, hmetadata, _, (Ledger.exit_placeAll hbridge).mpr ⟨_, ?_, rfl⟩, rfl,
      rfl⟩
    · rw [hmint]
      exact (hplaceable hfirst).mp hplace
    · rw [hmint]
      exact hfirst

theorem member_ne_submitter {members : List (Pubkey × U16)} {submitter : Pubkey}
    {p : Placement} (hp : p ∈ memberPlacements members) :
    p.address ≠ (Pda.submitter submitter).address := by
  rcases List.mem_map.mp hp with ⟨member, -, rfl⟩
  simp [memberPlacement]

/-- The `bridge_config` account of an admin instruction, and its constraint. -/
def AdminConfig (L : Ledger) (payer : Pubkey) (chainId : U8)
    (bridge : BridgeConfig) : Prop :=
  L.load BridgeConfig (Pda.bridgeConfig chainId).address = .ok bridge ∧
    bridge.admin = payer

theorem createBridgeCommittee_eq_ok {L L' : Ledger} {ctx : Context}
    {payer : Pubkey} {chainId : U8} {submitter : Pubkey}
    {committee : List Pubkey} {stake : List U16} {events : List Event} :
    createBridgeCommittee L ctx payer chainId submitter committee stake =
        .ok (L', events) ↔
      (∃ bridge, AdminConfig L payer chainId bridge) ∧
      (committee.length < 256 ∧ committee.length = stake.length) ∧
      (∀ p ∈ memberPlacements (committee.zip stake),
        p.address ∈ ctx.remainingAccounts) ∧
      ∃ L₁, L.Upserts (Pda.submitter submitter).address
          (Submitter.create submitter) L₁ ∧
        L₁.Placeable (memberPlacements (committee.zip stake)) ∧
        L' = L₁.placeAll (memberPlacements (committee.zip stake)) ∧
        events = [] := by
  generalize hmembers : committee.zip stake = members
  have hsubmitter : ∀ p ∈ memberPlacements members,
      p.address ≠ (Pda.submitter submitter).address :=
    fun p hp => member_ne_submitter hp
  have hplaceable : ∀ {L₁ L₂ : Ledger} {record : Submitter},
      L₁.exit (Pda.submitter submitter).address record = .ok L₂ →
        (L₂.Placeable (memberPlacements members) ↔
          L₁.Placeable (memberPlacements members)) :=
    fun hexit => Ledger.placeable_congr fun p hp =>
      Ledger.exit_of_ne hexit (hsubmitter p hp)
  simp only [createBridgeCommittee, AdminConfig, hmembers, bind_eq_ok,
    require_eq_ok, pure_eq_ok, exists_and_left, exists_const, Prod.exists,
    Prod.mk.injEq, createMembers_eq_ok]
  constructor
  · rintro ⟨bridge, hload, L₂, record, hinit, hadmin, hlimit, hlength, _,
      ⟨hlisted, hplace, rfl⟩, _, hexit, rfl, rfl⟩
    rcases (Ledger.exit_placeAll hsubmitter).mp hexit with ⟨L₁, hfirst, rfl⟩
    exact ⟨⟨bridge, hload, hadmin⟩, ⟨hlimit, hlength⟩, hlisted, L₁,
      ⟨L₂, record, hinit, hfirst⟩, (hplaceable hfirst).mpr hplace, rfl, rfl⟩
  · rintro ⟨⟨bridge, hload, hadmin⟩, ⟨hlimit, hlength⟩, hlisted, L₁,
      ⟨L₂, record, hinit, hfirst⟩, hplace, rfl, rfl⟩
    exact ⟨bridge, hload, L₂, record, hinit, hadmin, hlimit, hlength, _,
      ⟨hlisted, (hplaceable hfirst).mp hplace, rfl⟩, _,
      (Ledger.exit_placeAll hsubmitter).mpr ⟨L₁, hfirst, rfl⟩, rfl, rfl⟩

end SolBtcBridge.Effects
