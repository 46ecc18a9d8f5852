import SolBtcBridge.Effects.Batch

/-!
# What the administrator's instructions do

The two batch instructions create a record only at a vacant address; the
others read a record or a zero-filled one and write it back.
-/

namespace SolBtcBridge.Effects

open SolBtcBridge.Foundation
open SolBtcBridge.Runtime
open SolBtcBridge.Program

/-- An instruction that emits nothing, moves no tokens and only changes records. -/
structure Administers (L L' : Ledger) (events : List Event) (i : Input) :
    Prop where
  silent : events = []
  tokens : Ledger.SameTokens L L'
  evolves : ∀ p, Evolves L L' i p

private theorem openBridge_sameTokens {host : Host} {L : Ledger} {chainId : U8}
    {administrator feeRecipient : Pubkey}
    (hbridge : L.Vacant (Pda.bridgeConfig chainId).address)
    (hmint : L.Vacant (Pda.sbtcMint chainId).address) :
    Ledger.SameTokens L (openBridge host L chainId administrator feeRecipient) := by
  have hsecond : ∀ account, ((L.set (Pda.bridgeConfig chainId).address account)
      (Pda.sbtcMint chainId).address).body = .system := by
    intro account
    rw [Ledger.set_of_ne _ _ (by simp)]
    exact hmint
  refine (Ledger.sameTokens_set hbridge ?_).trans
    (Ledger.sameTokens_set (hsecond _) ?_)
  · exact Ledger.no_tokens_of_bridge (by rw [Ledger.set_self])
  · simp [Ledger.supply, Ledger.balance]

theorem createBridgeConfig_spec {host : Host} {L L' : Ledger} {ctx : Context}
    {payer : Pubkey} {chainId : U8} {name symbol uri : String}
    {administrator feeRecipient : Pubkey} {tokenIds supportedChains : List U8}
    {fees minimums : List U64} {events : List Event}
    (h : createBridgeConfig host L ctx payer chainId name symbol uri
      administrator feeRecipient tokenIds supportedChains fees minimums =
        .ok (L', events)) :
    Administers L L' events (.createBridgeConfig ctx payer chainId name symbol
      uri administrator feeRecipient tokenIds supportedChains fees minimums) := by
  rcases createBridgeConfig_eq_ok.mp h with ⟨⟨hbridge, hmint⟩, -, -, -, -,
    hplaceable, rfl, rfl⟩
  refine ⟨rfl, (openBridge_sameTokens hbridge hmint).trans
    (Ledger.placeAll_sameTokens hplaceable), fun p => ?_⟩
  rcases Ledger.placeAll_cases hplaceable p.address with heq |
    ⟨q, hq, haddress, hvacant, hcheck, haccount⟩
  · by_cases hp : p = .bridgeConfig chainId
    · subst hp
      exact .inr (.bridgeCreated hbridge (openBridge_stores.congr heq) rfl rfl rfl)
    · by_cases hp' : p = .sbtcMint chainId
      · subst hp'
        have hbody := (congrArg Account.body heq).trans openBridge_mint
        exact .inr (.mintCreated hmint hbody rfl)
      · refine .inl ?_
        rw [heq, openBridge_of_ne (by simpa using hp) (by simpa using hp')]
  · rcases mem_entryPlacements.mp hq with ⟨entry, hentry, rfl | rfl⟩
    · obtain rfl := Pda.address_injective haddress
      rw [Ledger.Vacant, openBridge_of_ne (by simp) (by simp)] at hvacant
      refine .inr (.tokenListed hentry hcheck hvacant ?_)
      rw [Ledger.Stores, haccount]
      rfl
    · obtain rfl := Pda.address_injective haddress
      rw [Ledger.Vacant, openBridge_of_ne (by simp) (by simp)] at hvacant
      refine .inr (.chainListed hentry hvacant ?_)
      rw [Ledger.Stores, haccount]
      rfl

theorem createBridgeCommittee_spec {L L' : Ledger} {ctx : Context}
    {payer : Pubkey} {chainId : U8} {submitter : Pubkey}
    {committee : List Pubkey} {stake : List U16} {events : List Event}
    (hwf : WellFormed L)
    (h : createBridgeCommittee L ctx payer chainId submitter committee stake =
      .ok (L', events)) :
    Administers L L' events
      (.createBridgeCommittee ctx payer chainId submitter committee stake) := by
  rcases createBridgeCommittee_eq_ok.mp h with ⟨-, -, -, L₁, hupserts, hplaceable,
    rfl, rfl⟩
  refine ⟨rfl, hupserts.sameTokens.trans (Ledger.placeAll_sameTokens hplaceable),
    fun p => ?_⟩
  rcases Ledger.placeAll_cases hplaceable p.address with heq |
    ⟨q, hq, haddress, hvacant, -, haccount⟩
  · by_cases hp : p = .submitter submitter
    · subst hp
      rcases hupserts.stores (hwf (.submitter submitter)) with
        ⟨record, hprovides, hstores⟩
      exact .inr (.submitterCreated hprovides (hstores.congr heq))
    · exact .inl (by rw [heq, hupserts.of_ne (by simpa using hp)])
  · rcases List.mem_map.mp hq with ⟨⟨member, share⟩, hmember, rfl⟩
    obtain rfl := Pda.address_injective haddress
    rw [Ledger.Vacant, hupserts.of_ne (by simp)] at hvacant
    refine .inr (.memberListed hmember hvacant ?_)
    rw [Ledger.Stores, haccount]
    rfl

/-! ## Single records -/

section

variable {L L' : Ledger} {payer : Pubkey} {chainId : U8} {events : List Event}

theorem addOrUpdateChain_eq_ok {supportedChainId : U8} {supported : Bool} :
    addOrUpdateChain L payer chainId supportedChainId supported =
        .ok (L', events) ↔
      (∃ bridge, AdminConfig L payer chainId bridge ∧
        bridge.chainId ≠ supportedChainId) ∧
      L.Upserts (Pda.supportedChain supportedChainId).address
        (SupportedChainConfig.addOrUpdate supportedChainId supported) L' ∧
      events = [] := by
  simp only [addOrUpdateChain, AdminConfig, bind_eq_ok, require_eq_ok, pure_eq_ok,
    exists_and_left, exists_const, Prod.exists, Prod.mk.injEq]
  constructor
  · rintro ⟨bridge, hload, L₁, record, hinit, hadmin, hne, _, hexit, rfl, rfl⟩
    exact ⟨⟨bridge, ⟨hload, hadmin⟩, hne⟩, ⟨L₁, record, hinit, hexit⟩, rfl⟩
  · rintro ⟨⟨bridge, ⟨hload, hadmin⟩, hne⟩, ⟨L₁, record, hinit, hexit⟩, rfl⟩
    exact ⟨bridge, hload, L₁, record, hinit, hadmin, hne, _, hexit, rfl, rfl⟩

theorem addOrUpdateChainToken_eq_ok {supportedChainId tokenId : U8}
    {fee minimum : U64} {paused : Bool} :
    addOrUpdateChainToken L payer chainId supportedChainId tokenId fee minimum
        paused = .ok (L', events) ↔
      (∃ bridge, AdminConfig L payer chainId bridge ∧
        bridge.chainId ≠ supportedChainId) ∧
      (∃ chain, L.load SupportedChainConfig
        (Pda.supportedChain supportedChainId).address = .ok chain) ∧
      fee.toNat < Constants.feeDenominator ∧
      L.Upserts (Pda.tokenConfig supportedChainId tokenId).address
        (TokenConfig.addOrUpdate supportedChainId tokenId fee minimum paused)
        L' ∧
      events = [] := by
  simp only [addOrUpdateChainToken, AdminConfig, bind_eq_ok, require_eq_ok,
    pure_eq_ok, exists_and_left, exists_const, Prod.exists, Prod.mk.injEq]
  constructor
  · rintro ⟨bridge, hload, chain, hchain, L₁, record, hinit, hadmin, hne, hfee, _,
      hexit, rfl, rfl⟩
    exact ⟨⟨bridge, ⟨hload, hadmin⟩, hne⟩, ⟨chain, hchain⟩, hfee,
      ⟨L₁, record, hinit, hexit⟩, rfl⟩
  · rintro ⟨⟨bridge, ⟨hload, hadmin⟩, hne⟩, ⟨chain, hchain⟩, hfee,
      ⟨L₁, record, hinit, hexit⟩, rfl⟩
    exact ⟨bridge, hload, chain, hchain, L₁, record, hinit, hadmin, hne, hfee, _,
      hexit, rfl, rfl⟩

theorem addOrUpdateCommittee_eq_ok {member : Pubkey} {stake : U16}
    {isBlocklisted : Bool} :
    addOrUpdateCommittee L payer chainId member stake isBlocklisted =
        .ok (L', events) ↔
      (∃ bridge, AdminConfig L payer chainId bridge) ∧
      L.Upserts (Pda.committee member).address
        (Committee.addOrUpdate member stake isBlocklisted) L' ∧
      events = [] := by
  simp only [addOrUpdateCommittee, AdminConfig, bind_eq_ok, require_eq_ok,
    pure_eq_ok, exists_and_left, exists_const, Prod.exists, Prod.mk.injEq]
  constructor
  · rintro ⟨bridge, hload, L₁, record, hinit, hadmin, _, hexit, rfl, rfl⟩
    exact ⟨⟨bridge, hload, hadmin⟩, ⟨L₁, record, hinit, hexit⟩, rfl⟩
  · rintro ⟨⟨bridge, hload, hadmin⟩, ⟨L₁, record, hinit, hexit⟩, rfl⟩
    exact ⟨bridge, hload, L₁, record, hinit, hadmin, _, hexit, rfl, rfl⟩

theorem addOrUpdateSubmitter_eq_ok {submitter : Pubkey} {isSubmitter : Bool} :
    addOrUpdateSubmitter L payer chainId submitter isSubmitter =
        .ok (L', events) ↔
      (∃ bridge, AdminConfig L payer chainId bridge) ∧
      L.Upserts (Pda.submitter submitter).address
        (Submitter.addOrUpdate submitter isSubmitter) L' ∧
      events = [] := by
  simp only [addOrUpdateSubmitter, AdminConfig, bind_eq_ok, require_eq_ok,
    pure_eq_ok, exists_and_left, exists_const, Prod.exists, Prod.mk.injEq]
  constructor
  · rintro ⟨bridge, hload, L₁, record, hinit, hadmin, _, hexit, rfl, rfl⟩
    exact ⟨⟨bridge, hload, hadmin⟩, ⟨L₁, record, hinit, hexit⟩, rfl⟩
  · rintro ⟨⟨bridge, hload, hadmin⟩, ⟨L₁, record, hinit, hexit⟩, rfl⟩
    exact ⟨bridge, hload, L₁, record, hinit, hadmin, _, hexit, rfl, rfl⟩

private theorem upserts_administers {T : Type} [AnchorAccount T] {q : Pda}
    {P : T → Prop} {update : T → T} {i : Input} (hkeeps : L.Keeps q.address P)
    (hupserts : L.Upserts q.address update L')
    (hchange : ∀ record, L.Provides q.address record →
      L'.Stores q.address (update record) → RecordChange L L' i q) :
    Administers L L' [] i := by
  refine ⟨rfl, hupserts.sameTokens, fun p => ?_⟩
  by_cases hp : p = q
  · subst hp
    rcases hupserts.stores hkeeps with ⟨record, hprovides, hstores⟩
    exact .inr (hchange record hprovides hstores)
  · exact .inl (by rw [hupserts.of_ne (by simpa using hp)])

theorem addOrUpdateChain_spec {supportedChainId : U8} {supported : Bool}
    (hwf : WellFormed L)
    (h : addOrUpdateChain L payer chainId supportedChainId supported =
      .ok (L', events)) :
    Administers L L' events
      (.addOrUpdateChain payer chainId supportedChainId supported) := by
  rcases addOrUpdateChain_eq_ok.mp h with ⟨-, hupserts, rfl⟩
  exact upserts_administers (hwf (.supportedChain supportedChainId)) hupserts
    fun _ => .chainSet

theorem addOrUpdateChainToken_spec {supportedChainId tokenId : U8}
    {fee minimum : U64} {paused : Bool} (hwf : WellFormed L)
    (h : addOrUpdateChainToken L payer chainId supportedChainId tokenId fee
      minimum paused = .ok (L', events)) :
    Administers L L' events (.addOrUpdateChainToken payer chainId
      supportedChainId tokenId fee minimum paused) := by
  rcases addOrUpdateChainToken_eq_ok.mp h with ⟨-, -, hfee, hupserts, rfl⟩
  exact upserts_administers (hwf (.tokenConfig supportedChainId tokenId))
    hupserts fun _ => .tokenSet hfee

theorem addOrUpdateCommittee_spec {member : Pubkey} {stake : U16}
    {isBlocklisted : Bool} (hwf : WellFormed L)
    (h : addOrUpdateCommittee L payer chainId member stake isBlocklisted =
      .ok (L', events)) :
    Administers L L' events
      (.addOrUpdateCommittee payer chainId member stake isBlocklisted) := by
  rcases addOrUpdateCommittee_eq_ok.mp h with ⟨-, hupserts, rfl⟩
  exact upserts_administers (hwf (.committee member)) hupserts
    fun _ => .memberSet

theorem addOrUpdateSubmitter_spec {submitter : Pubkey} {isSubmitter : Bool}
    (hwf : WellFormed L)
    (h : addOrUpdateSubmitter L payer chainId submitter isSubmitter =
      .ok (L', events)) :
    Administers L L' events
      (.addOrUpdateSubmitter payer chainId submitter isSubmitter) := by
  rcases addOrUpdateSubmitter_eq_ok.mp h with ⟨-, hupserts, rfl⟩
  exact upserts_administers (hwf (.submitter submitter)) hupserts
    fun _ => .submitterSet

end

end SolBtcBridge.Effects
