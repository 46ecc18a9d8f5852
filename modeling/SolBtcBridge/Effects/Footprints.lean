import SolBtcBridge.Effects.Admin
import SolBtcBridge.Effects.Lookup
import SolBtcBridge.Runtime.Footprint

/-!
# The footprint of an input

Each instruction names its accounts before it runs.  It writes those that it
creates or that are declared `mut`, and the token accounts that it finds among
the remaining ones; whatever else it looks at it only reads.
-/

namespace SolBtcBridge.Effects

open SolBtcBridge.Foundation
open SolBtcBridge.Runtime
open SolBtcBridge.Program

/-- The records that verification may look up. -/
def signerRecords {T : Type} [DecidableEq T] [DeserializeMessage T]
    (ctx : Context) (numberOfSignatures : U8) (msg : T) : Set Address :=
  {a | ∃ key, IsSigner ctx.instructions numberOfSignatures msg key ∧
    a = (Pda.committee key).address}

def listedAtas (ctx : Context) (mint : Address) : Set Address :=
  {a | a ∈ ctx.remainingAccounts ∧
    ∃ owner, a = getAssociatedTokenAddress owner mint}

def placedAt (ps : List Placement) : Set Address :=
  {a | ∃ p ∈ ps, a = p.address}

def readAccounts : Input → Set Address
  | .createBridgeConfig .. => ∅
  | .addOrUpdateChain _ chainId _ _ => {(Pda.bridgeConfig chainId).address}
  | .addOrUpdateChainToken _ chainId supportedChainId _ _ _ _ =>
      {(Pda.bridgeConfig chainId).address,
        (Pda.supportedChain supportedChainId).address}
  | .createBridgeCommittee _ _ chainId _ _ _ =>
      {(Pda.bridgeConfig chainId).address}
  | .addOrUpdateCommittee _ chainId _ _ _ =>
      {(Pda.bridgeConfig chainId).address}
  | .addOrUpdateSubmitter _ chainId _ _ => {(Pda.bridgeConfig chainId).address}
  | .mintSbtcWithSignatures ctx submitter numberOfSignatures msg =>
      {(Pda.submitter submitter).address} ∪
        signerRecords ctx numberOfSignatures msg
  | .withdrawBtc _ _ msg =>
      {(Pda.bridgeConfig msg.chainId).address,
        (Pda.supportedChain msg.toChainId).address,
        (Pda.tokenConfig msg.toChainId msg.toTokenId).address}
  | .addOrUpdateLimiterWithSignatures ctx submitter numberOfSignatures msg =>
      {(Pda.submitter submitter).address,
        (Pda.bridgeConfig msg.chainId).address} ∪
        signerRecords ctx numberOfSignatures msg
  | .sendLamports .. => ∅
  | .openTokenAccount _ _ mint => {mint}
  | .sendTokens .. => ∅

def writeAccounts : Input → Set Address
  | .createBridgeConfig _ _ chainId _ _ _ _ _ tokenIds supportedChains
      tokenFeePercentages tokenMinAmount =>
      {(Pda.bridgeConfig chainId).address, (Pda.sbtcMint chainId).address} ∪
        placedAt (entryPlacements (tokenEntries tokenIds supportedChains
          tokenFeePercentages tokenMinAmount))
  | .addOrUpdateChain _ _ supportedChainId _ =>
      {(Pda.supportedChain supportedChainId).address}
  | .addOrUpdateChainToken _ _ supportedChainId tokenId _ _ _ =>
      {(Pda.tokenConfig supportedChainId tokenId).address}
  | .createBridgeCommittee _ _ _ submitter committee stake =>
      {(Pda.submitter submitter).address} ∪
        placedAt (memberPlacements (committee.zip stake))
  | .addOrUpdateCommittee _ _ committee _ _ =>
      {(Pda.committee committee).address}
  | .addOrUpdateSubmitter _ _ submitter _ => {(Pda.submitter submitter).address}
  | .mintSbtcWithSignatures _ _ _ msg =>
      {(Pda.bridgeConfig msg.toChainId).address,
        (Pda.supportedChain msg.sourceChainId).address,
        (Pda.tokenConfig msg.sourceChainId msg.sourceTokenId).address,
        (Pda.mintNonce msg.sourceChainId msg.nonce).address,
        (Pda.limiter msg.sourceChainId msg.sourceTokenId).address,
        (Pda.sbtcMint msg.toChainId).address,
        getAssociatedTokenAddress msg.toAddress
          (Pda.sbtcMint msg.toChainId).address}
  | .withdrawBtc ctx _ msg =>
      {(Pda.operationNonce .tokenTransfer).address,
        (Pda.sbtcMint msg.chainId).address} ∪
        listedAtas ctx (Pda.sbtcMint msg.chainId).address
  | .addOrUpdateLimiterWithSignatures _ _ _ msg =>
      {(Pda.supportedChain msg.targetChainId).address,
        (Pda.tokenConfig msg.targetChainId msg.tokenId).address,
        (Pda.operationNonce .updateBridgeLimit).address,
        (Pda.limiter msg.targetChainId msg.tokenId).address}
  | .sendLamports target _ => {target}
  | .openTokenAccount target _ _ => {target}
  | .sendTokens source destination _ _ => {source, destination}

section

variable {R W : Set Address} {base L L' : Ledger}

private theorem adminConfig_within {payer : Pubkey} {chainId : U8}
    (h : Ledger.Within R W base L L')
    (hbridge : (Pda.bridgeConfig chainId).address ∈ R ∪ W) :
    AdminConfig L' payer chainId = AdminConfig L payer chainId := by
  funext bridge
  rw [AdminConfig, AdminConfig, h.load hbridge]

private theorem upserts_within {T : Type} [AnchorAccount T] {a : Address}
    {update : T → T} {L₁ : Ledger} (h : Ledger.Within R W base L L')
    (ha : a ∈ W) (hupserts : L.Upserts a update L₁) :
    ∃ L₁', L'.Upserts a update L₁' ∧ Ledger.Within R W base L₁ L₁' := by
  rcases hupserts with ⟨L₂, record, hinit, hexit⟩
  rcases (h.initIfNeeded (T := T) ha).of_ok hinit with
    ⟨⟨L₂', _⟩, hinit', h₂, rfl⟩
  rcases (h₂.exit ha (update record)).of_ok hexit with ⟨L₁', hexit', h₁⟩
  exact ⟨L₁', ⟨L₂', record, hinit', hexit'⟩, h₁⟩

end

section

variable {host : Host} {L L' : Ledger} {payer : Pubkey} {chainId : U8}

/-- A successful step succeeds on the other ledger too, inside the footprint. -/
def Follows (host : Host) (i : Input) (L : Ledger) : Prop :=
  ∀ {L' L₁ : Ledger} {events : List Event},
    Set.EqOn L L' (readAccounts i ∪ writeAccounts i) →
      step host L i = .ok (L₁, events) →
        ∃ L₁', step host L' i = .ok (L₁', events) ∧
          Ledger.Within (readAccounts i) (writeAccounts i) L L₁ L₁'

private theorem addOrUpdateChain_follows {supportedChainId : U8}
    {supported : Bool} :
    Follows host (.addOrUpdateChain payer chainId supportedChainId supported)
      L := by
  intro L' L₁ events hagrees h
  have hwithin := Ledger.Within.start hagrees
  rcases addOrUpdateChain_eq_ok.mp h with ⟨hadmin, hupserts, hevents⟩
  rw [← adminConfig_within hwithin (.inl rfl)] at hadmin
  rcases upserts_within hwithin rfl hupserts with ⟨L₁', hupserts', h₁⟩
  exact ⟨L₁', addOrUpdateChain_eq_ok.mpr ⟨hadmin, hupserts', hevents⟩, h₁⟩

private theorem addOrUpdateChainToken_follows {supportedChainId tokenId : U8}
    {fee minimum : U64} {paused : Bool} :
    Follows host (.addOrUpdateChainToken payer chainId supportedChainId tokenId
      fee minimum paused) L := by
  intro L' L₁ events hagrees h
  have hwithin := Ledger.Within.start hagrees
  rcases addOrUpdateChainToken_eq_ok.mp h with
    ⟨hadmin, hchain, hfee, hupserts, hevents⟩
  rw [← adminConfig_within hwithin (.inl (.inl rfl))] at hadmin
  rw [← hwithin.load (.inl (.inr rfl))] at hchain
  rcases upserts_within hwithin rfl hupserts with ⟨L₁', hupserts', h₁⟩
  exact ⟨L₁', addOrUpdateChainToken_eq_ok.mpr
    ⟨hadmin, hchain, hfee, hupserts', hevents⟩, h₁⟩

private theorem addOrUpdateCommittee_follows {member : Pubkey} {stake : U16}
    {isBlocklisted : Bool} :
    Follows host (.addOrUpdateCommittee payer chainId member stake
      isBlocklisted) L := by
  intro L' L₁ events hagrees h
  have hwithin := Ledger.Within.start hagrees
  rcases addOrUpdateCommittee_eq_ok.mp h with ⟨hadmin, hupserts, hevents⟩
  rw [← adminConfig_within hwithin (.inl rfl)] at hadmin
  rcases upserts_within hwithin rfl hupserts with ⟨L₁', hupserts', h₁⟩
  exact ⟨L₁', addOrUpdateCommittee_eq_ok.mpr ⟨hadmin, hupserts', hevents⟩, h₁⟩

private theorem addOrUpdateSubmitter_follows {submitter : Pubkey}
    {isSubmitter : Bool} :
    Follows host (.addOrUpdateSubmitter payer chainId submitter isSubmitter)
      L := by
  intro L' L₁ events hagrees h
  have hwithin := Ledger.Within.start hagrees
  rcases addOrUpdateSubmitter_eq_ok.mp h with ⟨hadmin, hupserts, hevents⟩
  rw [← adminConfig_within hwithin (.inl rfl)] at hadmin
  rcases upserts_within hwithin rfl hupserts with ⟨L₁', hupserts', h₁⟩
  exact ⟨L₁', addOrUpdateSubmitter_eq_ok.mpr ⟨hadmin, hupserts', hevents⟩, h₁⟩

private theorem createBridgeCommittee_follows {ctx : Context}
    {submitter : Pubkey} {committee : List Pubkey} {stake : List U16} :
    Follows host (.createBridgeCommittee ctx payer chainId submitter committee
      stake) L := by
  intro L' L₁ events hagrees h
  have hwithin := Ledger.Within.start hagrees
  rcases createBridgeCommittee_eq_ok.mp h with
    ⟨hadmin, hlengths, hlisted, L₂, hupserts, hplace, rfl, hevents⟩
  rw [← adminConfig_within hwithin (.inl rfl)] at hadmin
  rcases upserts_within hwithin (.inl rfl) hupserts with ⟨L₂', hupserts', h₂⟩
  have hwritten : ∀ p ∈ memberPlacements (committee.zip stake),
      p.address ∈ writeAccounts (.createBridgeCommittee ctx payer chainId
        submitter committee stake) :=
    fun p hp => .inr ⟨p, hp, rfl⟩
  refine ⟨_, createBridgeCommittee_eq_ok.mpr ⟨hadmin, hlengths, hlisted, L₂',
    hupserts', ?_, rfl, hevents⟩, h₂.placeAll hwritten⟩
  exact (h₂.placeable hwritten).mpr hplace

private theorem openBridge_within {R W : Set Address} {base : Ledger}
    {administrator feeRecipient : Pubkey} (h : Ledger.Within R W base L L')
    (hbridge : (Pda.bridgeConfig chainId).address ∈ W)
    (hmint : (Pda.sbtcMint chainId).address ∈ W) :
    Ledger.Within R W base
      (openBridge host L chainId administrator feeRecipient)
      (openBridge host L' chainId administrator feeRecipient) := by
  rw [openBridge, openBridge, ← h.agrees (.inr hbridge),
    ← h.agrees (.inr hmint)]
  exact (h.set hbridge _).set hmint _

private theorem createBridgeConfig_follows {ctx : Context}
    {name symbol uri : String} {administrator feeRecipient : Pubkey}
    {tokenIds supportedChains : List U8} {fees minimums : List U64} :
    Follows host (.createBridgeConfig ctx payer chainId name symbol uri
      administrator feeRecipient tokenIds supportedChains fees minimums) L := by
  intro L' L₁ events hagrees h
  have hwithin := Ledger.Within.start hagrees
  rcases createBridgeConfig_eq_ok.mp h with ⟨⟨hbridge, hmint⟩, hchecks,
    hlengths, hchains, hlisted, hplace, rfl, hevents⟩
  have hopen : Ledger.Within _ _ L
      (openBridge host L chainId administrator feeRecipient)
      (openBridge host L' chainId administrator feeRecipient) :=
    openBridge_within hwithin (.inl (.inl rfl)) (.inl (.inr rfl))
  have hwritten : ∀ p ∈ entryPlacements
      (tokenEntries tokenIds supportedChains fees minimums),
      p.address ∈ writeAccounts (.createBridgeConfig ctx payer chainId name
        symbol uri administrator feeRecipient tokenIds supportedChains fees
        minimums) :=
    fun p hp => .inr ⟨p, hp, rfl⟩
  refine ⟨_, createBridgeConfig_eq_ok.mpr ⟨⟨?_, ?_⟩, hchecks, hlengths, hchains,
    hlisted, ?_, rfl, hevents⟩, hopen.placeAll hwritten⟩
  · rw [Ledger.Vacant, ← hagrees (.inr (.inl (.inl rfl)))]
    exact hbridge
  · rw [Ledger.Vacant, ← hagrees (.inr (.inl (.inr rfl)))]
    exact hmint
  · exact (hopen.placeable hwritten).mpr hplace

end

/-! ## The transfers and the limiter -/

section

variable {R W : Set Address} {base L L' : Ledger} {ctx : Context}

private theorem createAssociatedTokenAccountIfnInit_within
    {owner mint a : Address} (h : Ledger.Within R W base L L') (ha : a ∈ W)
    (hmint : mint ∈ R ∪ W) :
    Related (Ledger.Within R W base)
      (createAssociatedTokenAccountIfnInit L owner mint a)
      (createAssociatedTokenAccountIfnInit L' owner mint a) := by
  rw [createAssociatedTokenAccountIfnInit, createAssociatedTokenAccountIfnInit,
    h.agrees (.inr ha)]
  split
  · exact .step fun _ _ => h.initTokenAccount ha hmint owner
  · exact .ok h

private theorem verify_within {T : Type} [DecidableEq T] [HasMessageType T]
    [HasPayload T] [DeserializeMessage T] {F : Type} [NoncesTrait F]
    {signatures : U8} {msg : T} {op : Operation}
    (h : Ledger.Within R W base L L')
    (hsigners : signerRecords ctx signatures msg ⊆ R) (nonceConfig : F) :
    verify ctx.remainingAccounts L' ctx.instructions signatures msg op
        nonceConfig =
      verify ctx.remainingAccounts L ctx.instructions signatures msg op
        nonceConfig := by
  apply verify_congr
  intro key hkey
  have hagrees := h.agrees (.inl (hsigners ⟨key, hkey, rfl⟩))
  rw [hagrees]

theorem mintSbtcWithSignatures_within {submitter : Pubkey} {signatures : U8}
    {msg : MintSbtcMessage} (h : Ledger.Within R W base L L')
    (hR : readAccounts
      (.mintSbtcWithSignatures ctx submitter signatures msg) ⊆ R)
    (hW : writeAccounts
      (.mintSbtcWithSignatures ctx submitter signatures msg) ⊆ W) :
    Related (Ledger.WithinPair R W base)
      (mintSbtcWithSignatures L ctx submitter signatures msg)
      (mintSbtcWithSignatures L' ctx submitter signatures msg) := by
  have hbridge : (Pda.bridgeConfig msg.toChainId).address ∈ W :=
    hW (by simp [writeAccounts])
  have hchain : (Pda.supportedChain msg.sourceChainId).address ∈ W :=
    hW (by simp [writeAccounts])
  have htoken : (Pda.tokenConfig msg.sourceChainId msg.sourceTokenId).address ∈
      W := hW (by simp [writeAccounts])
  have hnonce : (Pda.mintNonce msg.sourceChainId msg.nonce).address ∈ W :=
    hW (by simp [writeAccounts])
  have hlimiter : (Pda.limiter msg.sourceChainId msg.sourceTokenId).address ∈
      W := hW (by simp [writeAccounts])
  have hmint : (Pda.sbtcMint msg.toChainId).address ∈ W :=
    hW (by simp [writeAccounts])
  have hata : getAssociatedTokenAddress msg.toAddress
      (Pda.sbtcMint msg.toChainId).address ∈ W := hW (by simp [writeAccounts])
  have hsubmitter : (Pda.submitter submitter).address ∈ R := hR (.inl rfl)
  have hsigners : signerRecords ctx signatures msg ⊆ R := fun a ha =>
    hR (.inr ha)
  simp only [mintSbtcWithSignatures, h.load (.inr hbridge),
    h.load (.inr hchain), h.load (.inr htoken), h.load (.inr hlimiter),
    h.load (.inl hsubmitter)]
  refine .step fun submitterAccount _ => .step fun bridge _ =>
    .step fun chain _ => .step fun token _ => .step fun limiter _ => ?_
  refine .bind (h.init hnonce _) ?_
  rintro ⟨L₁, nonce⟩ ⟨L₁', _⟩ ⟨h₁, rfl⟩
  simp only [verify_within h₁ hsigners]
  refine .step fun _ _ => .step fun _ _ => .step fun _ _ => .step fun _ _ =>
    .step fun _ _ => .step fun _ _ => .step fun _ _ => .step fun _ _ =>
    .step fun _ _ => .step fun nonce' _ => .step fun accounts haccounts => ?_
  rcases mintGetAccounts_ok haccounts with ⟨-, hataEq, hmintEq⟩
  rw [hataEq, hmintEq]
  refine .bind (createAssociatedTokenAccountIfnInit_within h₁ hata (.inr hmint))
    fun L₂ L₂' h₂ => ?_
  refine .bind (h₂.mintTo hmint hata _ _) fun L₃ L₃' h₃ => ?_
  refine .step fun chainTotal _ => .step fun tokenTotal _ =>
    .step fun transfer _ => ?_
  refine .bind (h₃.exit hbridge _) fun L₄ L₄' h₄ => ?_
  refine .bind (h₄.exit hchain _) fun L₅ L₅' h₅ => ?_
  refine .bind (h₅.exit htoken _) fun L₆ L₆' h₆ => ?_
  refine .bind (h₆.exit hnonce _) fun L₇ L₇' h₇ => ?_
  refine .bind (h₇.exit hlimiter _) fun L₈ L₈' h₈ => ?_
  exact .pure ⟨h₈, rfl⟩

theorem withdrawBtc_within {user : Pubkey} {msg : WithdrawBtcMessage}
    (h : Ledger.Within R W base L L')
    (hR : readAccounts (.withdrawBtc ctx user msg) ⊆ R ∪ W)
    (hW : writeAccounts (.withdrawBtc ctx user msg) ⊆ W) :
    Related (Ledger.WithinPair R W base) (withdrawBtc L ctx user msg)
      (withdrawBtc L' ctx user msg) := by
  have hbridge : (Pda.bridgeConfig msg.chainId).address ∈ R ∪ W :=
    hR (by simp [readAccounts])
  have hchain : (Pda.supportedChain msg.toChainId).address ∈ R ∪ W :=
    hR (by simp [readAccounts])
  have htoken : (Pda.tokenConfig msg.toChainId msg.toTokenId).address ∈ R ∪ W :=
    hR (by simp [readAccounts])
  have hnonce : (Pda.operationNonce .tokenTransfer).address ∈ W :=
    hW (.inl (.inl rfl))
  have hmint : (Pda.sbtcMint msg.chainId).address ∈ W := hW (.inl (.inr rfl))
  simp only [withdrawBtc, h.load hbridge, h.load hchain, h.load htoken]
  refine .step fun bridge _ => .step fun chain _ => .step fun token _ => ?_
  refine .bind (h.initIfNeeded hnonce) ?_
  rintro ⟨L₁, nonceConfig⟩ ⟨L₁', _⟩ ⟨h₁, rfl⟩
  refine .step fun _ _ => .step fun _ _ => .step fun _ _ => .step fun _ _ =>
    .step fun _ _ => .step fun _ _ => .step fun _ _ => .step fun _ _ =>
    .step fun _ _ => .step fun _ _ => .step fun _ _ => .step fun _ _ =>
    .step fun nonce _ => .step fun accounts haccounts => ?_
  rcases withdrawGetAccounts_eq_ok.mp haccounts with
    ⟨hataListed, -, -, hfeeAtaListed, -, rfl⟩
  have hata := hW (.inr ⟨hataListed, msg.fromAddress, rfl⟩)
  have hfeeAta := hW (.inr ⟨hfeeAtaListed, bridge.feeRecipient, rfl⟩)
  refine .bind (createAssociatedTokenAccountIfnInit_within h₁ hfeeAta
    (.inr hmint)) fun L₂ L₂' h₂ => ?_
  refine .step fun amount _ => ?_
  refine .bind (h₂.transfer hata hfeeAta _ _) fun L₃ L₃' h₃ => ?_
  refine .bind (h₃.burn hmint hata _ _) fun L₄ L₄' h₄ => ?_
  refine .step fun withdrawn _ => .step fun chainTotal _ =>
    .step fun tokenTotal _ => ?_
  refine .bind (h₄.exit hnonce _) fun L₅ L₅' h₅ => ?_
  exact .pure ⟨h₅, rfl⟩

private theorem addOrUpdateLimiterWithSignatures_within {submitter : Pubkey}
    {signatures : U8} {msg : UpdateLimiterMsg} (h : Ledger.Within R W base L L')
    (hR : readAccounts (.addOrUpdateLimiterWithSignatures ctx submitter
      signatures msg) ⊆ R)
    (hW : writeAccounts (.addOrUpdateLimiterWithSignatures ctx submitter
      signatures msg) ⊆ W) :
    Related (Ledger.WithinPair R W base)
      (addOrUpdateLimiterWithSignatures L ctx submitter signatures msg)
      (addOrUpdateLimiterWithSignatures L' ctx submitter signatures msg) := by
  have hsubmitter : (Pda.submitter submitter).address ∈ R :=
    hR (.inl (.inl rfl))
  have hbridge : (Pda.bridgeConfig msg.chainId).address ∈ R :=
    hR (.inl (.inr rfl))
  have hsigners : signerRecords ctx signatures msg ⊆ R := fun a ha =>
    hR (.inr ha)
  have hchain : (Pda.supportedChain msg.targetChainId).address ∈ W :=
    hW (by simp [writeAccounts])
  have htoken : (Pda.tokenConfig msg.targetChainId msg.tokenId).address ∈ W :=
    hW (by simp [writeAccounts])
  have hnonce : (Pda.operationNonce .updateBridgeLimit).address ∈ W :=
    hW (by simp [writeAccounts])
  have hlimiter : (Pda.limiter msg.targetChainId msg.tokenId).address ∈ W :=
    hW (by simp [writeAccounts])
  simp only [addOrUpdateLimiterWithSignatures, h.load (.inl hsubmitter),
    h.load (.inl hbridge), h.load (.inr hchain), h.load (.inr htoken)]
  refine .step fun submitterAccount _ => .step fun bridge _ =>
    .step fun chain _ => .step fun token _ => ?_
  refine .bind (h.initIfNeeded hnonce) ?_
  rintro ⟨L₁, nonceConfig⟩ ⟨L₁', _⟩ ⟨h₁, rfl⟩
  refine .bind (h₁.initIfNeeded hlimiter) ?_
  rintro ⟨L₂, limiter⟩ ⟨L₂', _⟩ ⟨h₂, rfl⟩
  simp only [verify_within h₂ hsigners]
  refine .step fun _ _ => .step fun _ _ => .step fun _ _ => .step fun _ _ =>
    .step fun _ _ => .step fun nonceConfig' _ => ?_
  refine .bind (h₂.exit hchain _) fun L₃ L₃' h₃ => ?_
  refine .bind (h₃.exit htoken _) fun L₄ L₄' h₄ => ?_
  refine .bind (h₄.exit hnonce _) fun L₅ L₅' h₅ => ?_
  refine .bind (h₅.exit hlimiter _) fun L₆ L₆' h₆ => ?_
  exact .pure ⟨h₆, rfl⟩

end

/-! ## Every input -/

/-- A step reads and writes nothing outside the footprint of its input. -/
theorem step_follows (host : Host) (i : Input) (L : Ledger) :
    Follows host i L := by
  cases i with
  | createBridgeConfig => exact createBridgeConfig_follows
  | addOrUpdateChain => exact addOrUpdateChain_follows
  | addOrUpdateChainToken => exact addOrUpdateChainToken_follows
  | createBridgeCommittee => exact createBridgeCommittee_follows
  | addOrUpdateCommittee => exact addOrUpdateCommittee_follows
  | addOrUpdateSubmitter => exact addOrUpdateSubmitter_follows
  | mintSbtcWithSignatures ctx submitter signatures msg =>
      intro L' L₁ events hagrees h
      rcases (mintSbtcWithSignatures_within (.start hagrees) subset_rfl
        subset_rfl).of_ok h with ⟨⟨L₁', _⟩, h', hwithin, rfl⟩
      exact ⟨L₁', h', hwithin⟩
  | withdrawBtc ctx user msg =>
      intro L' L₁ events hagrees h
      rcases (withdrawBtc_within (.start hagrees) Set.subset_union_left
        subset_rfl).of_ok h with ⟨⟨L₁', _⟩, h', hwithin, rfl⟩
      exact ⟨L₁', h', hwithin⟩
  | addOrUpdateLimiterWithSignatures ctx submitter signatures msg =>
      intro L' L₁ events hagrees h
      rcases (addOrUpdateLimiterWithSignatures_within (.start hagrees)
        subset_rfl subset_rfl).of_ok h with ⟨⟨L₁', _⟩, h', hwithin, rfl⟩
      exact ⟨L₁', h', hwithin⟩
  | sendLamports target lamports =>
      intro L' L₁ events hagrees h
      cases h
      refine ⟨_, rfl, ?_⟩
      rw [← hagrees (.inr rfl)]
      exact (Ledger.Within.start hagrees).set rfl _
  | openTokenAccount target owner mint =>
      intro L' L₁ events hagrees h
      simp only [step, bind_eq_ok, require_eq_ok, pure_eq_ok, Prod.mk.injEq,
        exists_const] at h
      rcases h with ⟨hallowed, L₂, hinit, rfl, rfl⟩
      rcases ((Ledger.Within.start hagrees).initTokenAccount rfl (.inl rfl)
        (.wallet owner)).of_ok hinit with ⟨L₂', hinit', hwithin⟩
      refine ⟨L₂', ?_, hwithin⟩
      simp only [step, bind_eq_ok, require_eq_ok, pure_eq_ok]
      exact ⟨(), hallowed, L₂', hinit', rfl⟩
  | sendTokens source destination authority amount =>
      intro L' L₁ events hagrees h
      simp only [step, bind_eq_ok, pure_eq_ok, Prod.mk.injEq] at h
      rcases h with ⟨L₂, htransfer, rfl, rfl⟩
      rcases ((Ledger.Within.start hagrees).transfer (.inl rfl) (.inr rfl)
        authority amount).of_ok htransfer with ⟨L₂', htransfer', hwithin⟩
      refine ⟨L₂', ?_, hwithin⟩
      simp only [step, bind_eq_ok, pure_eq_ok]
      exact ⟨L₂', htransfer', rfl⟩

end SolBtcBridge.Effects
