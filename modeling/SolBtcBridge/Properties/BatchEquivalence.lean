import SolBtcBridge.Effects.Admin
import SolBtcBridge.Properties.Stake

/-!
# Batch creation and single-record creation

The batch loops write records by hand, the single instructions go through typed
accounts.  At addresses without an account both perform the same placements, so
they succeed together and leave the same ledger.
-/

namespace SolBtcBridge.Properties

open SolBtcBridge.Foundation
open SolBtcBridge.Runtime
open SolBtcBridge.Program
open SolBtcBridge.Effects

def setEntry (administrator : Pubkey) (chainId : U8) (L : Ledger)
    (entry : TokenEntry) : Result Ledger := do
  let (L, _) ← addOrUpdateChain L administrator chainId entry.supportedChainId
    true
  let (L, _) ← addOrUpdateChainToken L administrator chainId
    entry.supportedChainId entry.tokenId entry.tokenFeePercentage
    entry.tokenMinAmount false
  return L

/-- The administrator's bridge record, as `create_bridge_config` leaves it. -/
def Governs (administrator : Pubkey) (chainId : U8) (L : Ledger) : Prop :=
  ∃ bridge, AdminConfig L administrator chainId bridge ∧
    bridge.chainId = chainId

/-- The chain record is absent or the one that a batch writes. -/
def ChainReady (L : Ledger) (chainId : U8) : Prop :=
  L.Absent (Pda.supportedChain chainId).address ∨
    L (Pda.supportedChain chainId).address = (chainPlacement chainId).account

theorem Governs.congr {administrator : Pubkey} {chainId : U8} {L L' : Ledger}
    (h : Governs administrator chainId L)
    (heq : L' (Pda.bridgeConfig chainId).address =
      L (Pda.bridgeConfig chainId).address) :
    Governs administrator chainId L' := by
  rcases h with ⟨bridge, hload, hchain⟩
  refine ⟨bridge, ?_, hchain⟩
  rwa [AdminConfig, Ledger.load, heq]

theorem ChainReady.place {L : Ledger} {chainId : U8} (h : ChainReady L chainId) :
    (L.place (chainPlacement chainId)) (Pda.supportedChain chainId).address =
      (chainPlacement chainId).account := by
  rcases h with habsent | hplaced
  · have hplace := Ledger.place_of_unfunded (p := chainPlacement chainId)
      habsent.lamports
    rw [hplace]
    exact Ledger.set_self _ _ _
  · have hfunded : (L (chainPlacement chainId).address).lamports ≠ 0 := by
      rw [chainPlacement, hplaced]
      exact minimumBalance_ne_zero _
    rw [Ledger.place_of_funded hfunded, hplaced]

theorem ChainReady.upserts {L L' : Ledger} {c : U8} (h : ChainReady L c) :
    L.Upserts (Pda.supportedChain c).address
        (SupportedChainConfig.addOrUpdate c true) L' ↔
      L' = L.place (chainPlacement c) := by
  rcases h with habsent | hplaced
  · exact habsent.upserts True
  · have hstores : L.Stores (Pda.supportedChain c).address (listedChain c) := by
      rw [Ledger.Stores, hplaced]
      rfl
    have hfunded : (L (chainPlacement c).address).lamports ≠ 0 := by
      rw [chainPlacement, hplaced]
      exact minimumBalance_ne_zero _
    rw [Ledger.place_of_funded hfunded]
    exact hstores.upserts rfl

theorem Governs.other {administrator : Pubkey} {chainId c : U8} {L : Ledger}
    (h : Governs administrator chainId L) :
    (∃ bridge, AdminConfig L administrator chainId bridge ∧
      bridge.chainId ≠ c) ↔ chainId ≠ c := by
  rcases h with ⟨bridge, ⟨hload, hadmin⟩, rfl⟩
  simp only [AdminConfig, hload, Except.ok.injEq]
  constructor
  · rintro ⟨_, ⟨rfl, -⟩, hne⟩
    exact hne
  · intro hne
    exact ⟨bridge, ⟨rfl, hadmin⟩, hne⟩

private theorem addOrUpdateChain_of_ready {administrator : Pubkey}
    {chainId c : U8} {L L' : Ledger} (hadmin : Governs administrator chainId L)
    (hready : ChainReady L c) :
    (∃ events, addOrUpdateChain L administrator chainId c true =
        .ok (L', events)) ↔
      chainId ≠ c ∧ L' = L.place (chainPlacement c) := by
  simp only [addOrUpdateChain_eq_ok, hadmin.other, hready.upserts,
    exists_and_left, exists_eq, and_true]

private theorem addOrUpdateChainToken_of_absent {administrator : Pubkey}
    {chainId : U8} {L L' : Ledger} {entry : TokenEntry}
    (hadmin : Governs administrator chainId L)
    (hchain : L.Stores (Pda.supportedChain entry.supportedChainId).address
      (listedChain entry.supportedChainId))
    (habsent : L.Absent
      (Pda.tokenConfig entry.supportedChainId entry.tokenId).address) :
    (∃ events, addOrUpdateChainToken L administrator chainId
        entry.supportedChainId entry.tokenId entry.tokenFeePercentage
        entry.tokenMinAmount false = .ok (L', events)) ↔
      chainId ≠ entry.supportedChainId ∧ (tokenPlacement entry).check ∧
        L' = L.place (tokenPlacement entry) := by
  simp only [addOrUpdateChainToken_eq_ok, hadmin.other, hchain.load,
    habsent.upserts (tokenPlacement entry).check, Except.ok.injEq, exists_eq',
    exists_and_left, exists_eq, and_true, true_and]
  rfl

def placeEntry (L : Ledger) (entry : TokenEntry) : Ledger :=
  (L.place (tokenPlacement entry)).place (chainPlacement entry.supportedChainId)

private theorem setEntry_eq_ok {administrator : Pubkey} {chainId : U8}
    {L L' : Ledger}
    {entry : TokenEntry} (hadmin : Governs administrator chainId L)
    (hready : ChainReady L entry.supportedChainId)
    (habsent : L.Absent
      (Pda.tokenConfig entry.supportedChainId entry.tokenId).address) :
    setEntry administrator chainId L entry = .ok L' ↔
      chainId ≠ entry.supportedChainId ∧ (tokenPlacement entry).check ∧
        L' = placeEntry L entry := by
  have hdiffer : (tokenPlacement entry).address ≠
      (chainPlacement entry.supportedChainId).address := by
    simp [tokenPlacement, chainPlacement]
  have hadmin' : Governs administrator chainId
      (L.place (chainPlacement entry.supportedChainId)) :=
    hadmin.congr (Ledger.place_of_ne L (by simp [chainPlacement]))
  have hstores : (L.place (chainPlacement entry.supportedChainId)).Stores
      (Pda.supportedChain entry.supportedChainId).address
      (listedChain entry.supportedChainId) := by
    rw [Ledger.Stores, hready.place]
    rfl
  have habsent' : (L.place (chainPlacement entry.supportedChainId)).Absent
      (Pda.tokenConfig entry.supportedChainId entry.tokenId).address := by
    rw [Ledger.Absent, Ledger.place_of_ne L (by simp [chainPlacement])]
    exact habsent
  rw [placeEntry, Ledger.place_comm L hdiffer]
  simp only [setEntry, bind_eq_ok, pure_eq_ok, Prod.exists]
  constructor
  · rintro ⟨L₁, _, hfirst, L₂, _, hsecond, rfl⟩
    rcases (addOrUpdateChain_of_ready hadmin hready).mp ⟨_, hfirst⟩ with
      ⟨hne, rfl⟩
    exact (addOrUpdateChainToken_of_absent hadmin' hstores habsent').mp
      ⟨_, hsecond⟩
  · intro h
    rcases (addOrUpdateChain_of_ready hadmin hready).mpr ⟨h.1, rfl⟩ with
      ⟨events, hfirst⟩
    rcases (addOrUpdateChainToken_of_absent hadmin' hstores habsent').mpr h with
      ⟨events', hsecond⟩
    exact ⟨_, events, hfirst, _, events', hsecond, rfl⟩

/-! ## All entries -/

def EntryAbsent (L : Ledger) (entry : TokenEntry) : Prop :=
  L.Absent (Pda.tokenConfig entry.supportedChainId entry.tokenId).address ∧
    L.Absent (Pda.supportedChain entry.supportedChainId).address

def DistinctPairs (entries : List TokenEntry) : Prop :=
  (entries.map fun entry => (entry.supportedChainId, entry.tokenId)).Nodup

private theorem placeEntry_of_ne {L : Ledger} {entry : TokenEntry} {a : Address}
    (htoken : a ≠ (tokenPlacement entry).address)
    (hchain : a ≠ (chainPlacement entry.supportedChainId).address) :
    placeEntry L entry a = L a := by
  rw [placeEntry, Ledger.place_of_ne _ hchain, Ledger.place_of_ne L htoken]

private theorem Governs.placeEntry {administrator : Pubkey} {chainId : U8}
    {L : Ledger} (h : Governs administrator chainId L) (entry : TokenEntry) :
    Governs administrator chainId (placeEntry L entry) :=
  h.congr (placeEntry_of_ne (by simp [tokenPlacement]) (by simp [chainPlacement]))

private theorem ChainReady.placeEntry {L : Ledger} {c : U8} (h : ChainReady L c)
    (entry : TokenEntry) : ChainReady (placeEntry L entry) c := by
  have htoken : ChainReady (L.place (tokenPlacement entry)) c := by
    rw [ChainReady, Ledger.Absent, Ledger.place_of_ne L (by simp [tokenPlacement])]
    exact h
  by_cases hsame : c = entry.supportedChainId
  · subst hsame
    exact .inr htoken.place
  · rw [Properties.placeEntry, ChainReady, Ledger.Absent,
      Ledger.place_of_ne _ (by simpa [chainPlacement] using hsame)]
    exact htoken

private theorem absent_placeEntry {L : Ledger} {entry : TokenEntry} {c t : U8}
    (h : L.Absent (Pda.tokenConfig c t).address)
    (hne : (entry.supportedChainId, entry.tokenId) ≠ (c, t)) :
    (placeEntry L entry).Absent (Pda.tokenConfig c t).address := by
  rw [Ledger.Absent, placeEntry_of_ne _ (by simp [chainPlacement])]
  · exact h
  · intro haddress
    apply hne
    simp only [tokenPlacement, Pda.address_inj, Pda.tokenConfig.injEq] at haddress
    rw [haddress.1, haddress.2]

private theorem foldlM_setEntry_eq_ok {administrator : Pubkey} {chainId : U8}
    {L L' : Ledger} {entries : List TokenEntry}
    (hadmin : Governs administrator chainId L) (hdistinct : DistinctPairs entries)
    (hready : ∀ entry ∈ entries, ChainReady L entry.supportedChainId)
    (habsent : ∀ entry ∈ entries, L.Absent
      (Pda.tokenConfig entry.supportedChainId entry.tokenId).address) :
    entries.foldlM (setEntry administrator chainId) L = .ok L' ↔
      (∀ entry ∈ entries, chainId ≠ entry.supportedChainId ∧
        (tokenPlacement entry).check) ∧
        L' = L.placeAll (entryPlacements entries) := by
  induction entries generalizing L with
  | nil =>
      simp only [List.foldlM_nil, pure_eq_ok, List.not_mem_nil, false_implies,
        implies_true, true_and]
      exact eq_comm
  | cons entry entries ih =>
      rw [DistinctPairs, List.map_cons, List.nodup_cons, List.mem_map] at hdistinct
      rcases hdistinct with ⟨hnew, hdistinct⟩
      have hfirstReady := hready entry List.mem_cons_self
      have hfirstAbsent := habsent entry List.mem_cons_self
      have hadmin' : Governs administrator chainId (placeEntry L entry) :=
        hadmin.placeEntry entry
      have hready' : ∀ other ∈ entries,
          ChainReady (placeEntry L entry) other.supportedChainId :=
        fun other hother =>
          (hready other (List.mem_cons_of_mem entry hother)).placeEntry entry
      have habsent' : ∀ other ∈ entries, (placeEntry L entry).Absent
          (Pda.tokenConfig other.supportedChainId other.tokenId).address := by
        intro other hother
        apply absent_placeEntry (habsent other (List.mem_cons_of_mem entry hother))
        intro hsame
        exact hnew ⟨other, hother, hsame.symm⟩
      simp only [List.foldlM_cons, bind_eq_ok,
        setEntry_eq_ok hadmin hfirstReady hfirstAbsent, List.forall_mem_cons,
        entryPlacements_cons, Ledger.placeAll]
      constructor
      · rintro ⟨_, ⟨hne, hcheck, rfl⟩, hrest⟩
        rcases (ih hadmin' hdistinct hready' habsent').mp hrest with ⟨hall, rfl⟩
        exact ⟨⟨⟨hne, hcheck⟩, hall⟩, rfl⟩
      · rintro ⟨⟨⟨hne, hcheck⟩, hall⟩, rfl⟩
        exact ⟨_, ⟨hne, hcheck, rfl⟩,
          (ih hadmin' hdistinct hready' habsent').mpr ⟨hall, rfl⟩⟩

theorem firstEntry_of_distinct {entries : List TokenEntry}
    (hdistinct : DistinctPairs entries) {entry : TokenEntry}
    (hmem : entry ∈ entries) :
    firstEntry entries entry.supportedChainId entry.tokenId = some entry :=
  find?_of_distinct hdistinct hmem fun other => by
    rw [decide_eq_true_eq, IsFor, Prod.mk.injEq]

theorem placeable_of_absent {L : Ledger} {entries : List TokenEntry}
    (hdistinct : DistinctPairs entries)
    (habsent : ∀ entry ∈ entries, EntryAbsent L entry) :
    L.Placeable (entryPlacements entries) ↔
      ∀ entry ∈ entries, (tokenPlacement entry).check := by
  rw [Ledger.placeable_iff]
  constructor
  · intro h entry hentry
    have hmem : tokenPlacement entry ∈ entryPlacements entries :=
      mem_entryPlacements.mpr ⟨entry, hentry, .inl rfl⟩
    have hfind := find_tokenPlacement entries entry.supportedChainId entry.tokenId
    rw [firstEntry_of_distinct hdistinct hentry, Option.map_some] at hfind
    exact (h _ hmem (habsent entry hentry).1.lamports).2 _ hfind
  · intro h p hp _
    have hvacant : L.Vacant p.address := by
      rcases mem_entryPlacements.mp hp with ⟨entry, hentry, rfl | rfl⟩
      · exact (habsent entry hentry).1.vacant
      · exact (habsent entry hentry).2.vacant
    refine ⟨hvacant, fun q hq => ?_⟩
    rcases mem_entryPlacements.mp (List.mem_of_find?_eq_some hq) with
      ⟨entry, hentry, rfl | rfl⟩
    · exact h entry hentry
    · trivial

section

variable (host : Host) (L : Ledger) (ctx : Context) (payer : Pubkey)
  (chainId : U8) (name symbol uri : String) (administrator feeRecipient : Pubkey)
  (entries : List TokenEntry)

def createBatch : Result (Ledger × List Event) :=
  createBridgeConfig host L ctx payer chainId name symbol uri administrator
    feeRecipient (entries.map TokenEntry.tokenId)
    (entries.map TokenEntry.supportedChainId)
    (entries.map TokenEntry.tokenFeePercentage)
    (entries.map TokenEntry.tokenMinAmount)

/-- `create_bridge_config` with empty lists, then one entry after the other. -/
def createSingly : Result Ledger := do
  let (L, _) ← createBridgeConfig host L ctx payer chainId name symbol uri
    administrator feeRecipient [] [] [] []
  entries.foldlM (setEntry administrator chainId) L

variable {host L ctx payer chainId name symbol uri administrator feeRecipient
  entries}

theorem tokenEntries_columns :
    tokenEntries (entries.map TokenEntry.tokenId)
      (entries.map TokenEntry.supportedChainId)
      (entries.map TokenEntry.tokenFeePercentage)
      (entries.map TokenEntry.tokenMinAmount) = entries := by
  simp only [tokenEntries, List.zip_map', List.map_map]
  exact List.map_id _

private theorem createBatch_eq_ok {L' : Ledger} {events : List Event} :
    createBatch host L ctx payer chainId name symbol uri administrator
        feeRecipient entries = .ok (L', events) ↔
      ∃ L₁, createBridgeConfig host L ctx payer chainId name symbol uri
          administrator feeRecipient [] [] [] [] = .ok (L₁, events) ∧
        (∀ entry ∈ entries, entry.supportedChainId ≠ chainId) ∧
        (∀ p ∈ entryPlacements entries, p.address ∈ ctx.remainingAccounts) ∧
        L₁.Placeable (entryPlacements entries) ∧
        L' = L₁.placeAll (entryPlacements entries) := by
  have hnil : tokenEntries [] [] [] [] = [] := rfl
  simp only [createBatch, createBridgeConfig_eq_ok, tokenEntries_columns, hnil,
    entryPlacements_nil, Ledger.Placeable, Ledger.placeAll, List.length_map,
    List.length_nil, List.not_mem_nil, false_implies, implies_true, true_and]
  constructor
  · rintro ⟨hvacant, hchecks, hids, hlisted, hplaceable, rfl, rfl⟩
    exact ⟨_, ⟨hvacant, hchecks, rfl, rfl⟩, hids, hlisted, hplaceable, rfl⟩
  · rintro ⟨_, ⟨hvacant, hchecks, rfl, rfl⟩, hids, hlisted, hplaceable, rfl⟩
    exact ⟨hvacant, hchecks, hids, hlisted, hplaceable, rfl, rfl⟩

private theorem empty_batch_spec {L₁ : Ledger} {events : List Event}
    (h : createBridgeConfig host L ctx payer chainId name symbol uri administrator
      feeRecipient [] [] [] [] = .ok (L₁, events)) :
    Governs administrator chainId L₁ ∧
      ∀ a, a ≠ (Pda.bridgeConfig chainId).address →
        a ≠ (Pda.sbtcMint chainId).address → L₁ a = L a := by
  rcases createBridgeConfig_eq_ok.mp h with ⟨-, -, -, -, -, -, rfl, -⟩
  constructor
  · exact ⟨_, ⟨openBridge_stores.load, rfl⟩, rfl⟩
  · intro a hbridge hmint
    exact openBridge_of_ne hbridge hmint

/-- Both ways perform the same placements after the same empty batch. -/
private theorem createSingly_eq_ok {L' : Ledger}
    (hdistinct : DistinctPairs entries)
    (habsent : ∀ entry ∈ entries, EntryAbsent L entry) :
    createSingly host L ctx payer chainId name symbol uri administrator
        feeRecipient entries = .ok L' ↔
      ∃ L₁ events, createBridgeConfig host L ctx payer chainId name symbol uri
          administrator feeRecipient [] [] [] [] = .ok (L₁, events) ∧
        (∀ entry ∈ entries, entry.supportedChainId ≠ chainId) ∧
        L₁.Placeable (entryPlacements entries) ∧
        L' = L₁.placeAll (entryPlacements entries) := by
  simp only [createSingly, bind_eq_ok, Prod.exists]
  refine exists₂_congr fun L₁ events => and_congr_right fun hempty => ?_
  rcases empty_batch_spec hempty with ⟨hadmin, hframe⟩
  have habsent' : ∀ entry ∈ entries, EntryAbsent L₁ entry := by
    intro entry hentry
    rw [EntryAbsent, Ledger.Absent, Ledger.Absent, hframe _ (by simp) (by simp),
      hframe _ (by simp) (by simp)]
    exact habsent entry hentry
  rw [foldlM_setEntry_eq_ok hadmin hdistinct
      (fun entry hentry => .inl (habsent' entry hentry).2)
      fun entry hentry => (habsent' entry hentry).1,
    placeable_of_absent hdistinct habsent']
  constructor
  · rintro ⟨hall, rfl⟩
    exact ⟨fun entry hentry => (hall entry hentry).1.symm,
      fun entry hentry => (hall entry hentry).2, rfl⟩
  · rintro ⟨hids, hchecks, rfl⟩
    exact ⟨fun entry hentry => ⟨(hids entry hentry).symm, hchecks entry hentry⟩,
      rfl⟩

private theorem createBatch_iff (hdistinct : DistinctPairs entries)
    (habsent : ∀ entry ∈ entries, EntryAbsent L entry) {L' : Ledger} :
    (∃ events, createBatch host L ctx payer chainId name symbol uri administrator
        feeRecipient entries = .ok (L', events)) ↔
      (∀ p ∈ entryPlacements entries, p.address ∈ ctx.remainingAccounts) ∧
        createSingly host L ctx payer chainId name symbol uri administrator
          feeRecipient entries = .ok L' := by
  simp only [createBatch_eq_ok, createSingly_eq_ok hdistinct habsent]
  constructor
  · rintro ⟨events, L₁, hempty, hids, hlisted, hplaceable, rfl⟩
    exact ⟨hlisted, L₁, events, hempty, hids, hplaceable, rfl⟩
  · rintro ⟨hlisted, L₁, events, hempty, hids, hplaceable, rfl⟩
    exact ⟨events, L₁, hempty, hids, hlisted, hplaceable, rfl⟩

end

/-! ## The committee -/

section

variable (L : Ledger) (ctx : Context) (payer : Pubkey) (chainId : U8)
  (submitter : Pubkey) (members : List (Pubkey × U16))

def setMember (L : Ledger) (member : Pubkey × U16) : Result Ledger := do
  let (L, _) ← addOrUpdateCommittee L payer chainId member.1 member.2 false
  return L

def createCommitteeBatch : Result (Ledger × List Event) :=
  createBridgeCommittee L ctx payer chainId submitter (members.map Prod.fst)
    (members.map Prod.snd)

def createCommitteeSingly : Result Ledger :=
  members.foldlM (setMember payer chainId) L

variable {L ctx payer chainId submitter members}

private theorem setMember_eq_ok {L' : Ledger} {member : Pubkey × U16}
    (hadmin : ∃ bridge, AdminConfig L payer chainId bridge)
    (habsent : L.Absent (Pda.committee member.1).address) :
    setMember payer chainId L member = .ok L' ↔
      L' = L.place (memberPlacement member.1 member.2) := by
  simp only [setMember, bind_eq_ok, pure_eq_ok, Prod.exists,
    addOrUpdateCommittee_eq_ok, habsent.upserts True]
  constructor
  · rintro ⟨L₁, events, ⟨-, rfl, -⟩, rfl⟩
    rfl
  · rintro rfl
    exact ⟨_, [], ⟨hadmin, rfl, rfl⟩, rfl⟩

private theorem foldlM_setMember_eq_ok {L' : Ledger}
    (hadmin : ∃ bridge, AdminConfig L payer chainId bridge)
    (hdistinct : (members.map Prod.fst).Nodup)
    (habsent : ∀ member ∈ members, L.Absent (Pda.committee member.1).address) :
    members.foldlM (setMember payer chainId) L = .ok L' ↔
      L' = L.placeAll (memberPlacements members) := by
  induction members generalizing L with
  | nil =>
      rw [List.foldlM_nil, pure_eq_ok]
      exact eq_comm
  | cons member members ih =>
      rw [List.map_cons, List.nodup_cons, List.mem_map] at hdistinct
      rcases hdistinct with ⟨hnew, hdistinct⟩
      have hadmin' : ∃ bridge, AdminConfig
          (L.place (memberPlacement member.1 member.2)) payer chainId bridge := by
        simp only [AdminConfig, Ledger.load]
        rwa [Ledger.place_of_ne L (by simp [memberPlacement])]
      have habsent' : ∀ other ∈ members,
          (L.place (memberPlacement member.1 member.2)).Absent
            (Pda.committee other.1).address := by
        intro other hother
        have hne : other.1 ≠ member.1 := fun heq => hnew ⟨other, hother, heq⟩
        rw [Ledger.Absent,
          Ledger.place_of_ne L (by simpa [memberPlacement] using hne)]
        exact habsent other (List.mem_cons_of_mem member hother)
      simp only [List.foldlM_cons, bind_eq_ok,
        setMember_eq_ok hadmin (habsent member List.mem_cons_self),
        exists_eq_left, ih hadmin' hdistinct habsent', memberPlacements,
        List.map_cons, Ledger.placeAll]

theorem placeable_members (habsent : ∀ member ∈ members,
    L.Absent (Pda.committee member.1).address) :
    L.Placeable (memberPlacements members) := by
  rw [Ledger.placeable_iff]
  intro p hp _
  rcases List.mem_map.mp hp with ⟨member, hmember, rfl⟩
  refine ⟨(habsent member hmember).vacant, fun q hq => ?_⟩
  rcases List.mem_map.mp (List.mem_of_find?_eq_some hq) with ⟨other, -, rfl⟩
  trivial

theorem zip_columns : (members.map Prod.fst).zip (members.map Prod.snd) =
    members := by
  rw [List.zip_map', List.map_id']

private theorem createCommitteeBatch_eq_ok {L' : Ledger} {events : List Event} :
    createCommitteeBatch L ctx payer chainId submitter members =
        .ok (L', events) ↔
      ∃ L₁, createBridgeCommittee L ctx payer chainId submitter [] [] =
          .ok (L₁, events) ∧ members.length < 256 ∧
        (∀ p ∈ memberPlacements members, p.address ∈ ctx.remainingAccounts) ∧
        L₁.Placeable (memberPlacements members) ∧
        L' = L₁.placeAll (memberPlacements members) := by
  simp only [createCommitteeBatch, createBridgeCommittee_eq_ok, zip_columns,
    memberPlacements_nil, Ledger.Placeable, Ledger.placeAll, List.length_map,
    List.length_nil, List.zip_nil_left, List.not_mem_nil, false_implies,
    implies_true, and_true, true_and]
  constructor
  · rintro ⟨hadmin, hlimit, hlisted, L₁, hupserts, hplaceable, rfl, rfl⟩
    exact ⟨L₁, ⟨hadmin, by decide, L₁, hupserts, rfl, rfl⟩, hlimit, hlisted,
      hplaceable, rfl⟩
  · rintro ⟨L₁, ⟨hadmin, -, _, hupserts, rfl, rfl⟩, hlimit, hlisted, hplaceable,
      rfl⟩
    exact ⟨hadmin, hlimit, hlisted, L₁, hupserts, hplaceable, rfl, rfl⟩

private theorem empty_committee_spec {L₁ : Ledger} {events : List Event}
    (h : createBridgeCommittee L ctx payer chainId submitter [] [] =
      .ok (L₁, events)) :
    (∃ bridge, AdminConfig L payer chainId bridge) ∧
      ∀ a, a ≠ (Pda.submitter submitter).address → L₁ a = L a := by
  rcases createBridgeCommittee_eq_ok.mp h with
    ⟨hadmin, -, -, L₂, hupserts, -, rfl, -⟩
  exact ⟨hadmin, fun a ha => hupserts.of_ne ha⟩

end

/-! ## Agreement -/

private theorem createBatch_agrees {host : Host} {L : Ledger} {ctx : Context}
    {payer : Pubkey} {chainId : U8} {name symbol uri : String}
    {administrator feeRecipient : Pubkey} {entries : List TokenEntry}
    (hdistinct : DistinctPairs entries)
    (habsent : ∀ entry ∈ entries, EntryAbsent L entry) :
    ((∃ L' events, createBatch host L ctx payer chainId name symbol uri
        administrator feeRecipient entries = .ok (L', events)) ↔
      (∀ p ∈ entryPlacements entries, p.address ∈ ctx.remainingAccounts) ∧
        ∃ L', createSingly host L ctx payer chainId name symbol uri
          administrator feeRecipient entries = .ok L') ∧
    ∀ L₁ events L₂, createBatch host L ctx payer chainId name symbol uri
        administrator feeRecipient entries = .ok (L₁, events) →
      createSingly host L ctx payer chainId name symbol uri administrator
        feeRecipient entries = .ok L₂ → L₁ = L₂ := by
  constructor
  · rw [← exists_and_left]
    exact exists_congr fun L' => createBatch_iff hdistinct habsent
  · intro L₁ events L₂ hbatch hsingly
    have hsingly' := ((createBatch_iff hdistinct habsent).mp ⟨events, hbatch⟩).2
    rw [hsingly'] at hsingly
    exact Except.ok.inj hsingly

private theorem createCommitteeBatch_agrees {L : Ledger} {ctx : Context}
    {payer : Pubkey} {chainId : U8} {submitter : Pubkey}
    {members : List (Pubkey × U16)} (hdistinct : (members.map Prod.fst).Nodup)
    (habsent : ∀ member ∈ members, L.Absent (Pda.committee member.1).address) :
    ((∃ L' events, createCommitteeBatch L ctx payer chainId submitter members =
        .ok (L', events)) ↔
      (∃ L' events, createBridgeCommittee L ctx payer chainId submitter [] [] =
          .ok (L', events)) ∧ members.length < 256 ∧
        (∀ p ∈ memberPlacements members, p.address ∈ ctx.remainingAccounts) ∧
        ∃ L', createCommitteeSingly L payer chainId members = .ok L') ∧
    ∀ L₁ events L₂, createCommitteeBatch L ctx payer chainId submitter members =
        .ok (L₁, events) →
      createCommitteeSingly L payer chainId members = .ok L₂ →
      ∀ key, L₁ (Pda.committee key).address = L₂ (Pda.committee key).address := by
  constructor
  · simp only [createCommitteeBatch_eq_ok]
    constructor
    · rintro ⟨L', events, L₁, hempty, hlength, hlisted, -, -⟩
      rcases empty_committee_spec hempty with ⟨hadmin, -⟩
      exact ⟨⟨L₁, events, hempty⟩, hlength, hlisted, _,
        (foldlM_setMember_eq_ok hadmin hdistinct habsent).mpr rfl⟩
    · rintro ⟨⟨L₁, events, hempty⟩, hlength, hlisted, -⟩
      rcases empty_committee_spec hempty with ⟨-, hframe⟩
      refine ⟨_, events, L₁, hempty, hlength, hlisted, ?_, rfl⟩
      apply placeable_members
      intro member hmember
      rw [Ledger.Absent, hframe _ (by simp)]
      exact habsent member hmember
  · intro L₁ events L₂ hbatch hsingly key
    rcases createCommitteeBatch_eq_ok.mp hbatch with
      ⟨L₀, hempty, -, -, -, rfl⟩
    rcases empty_committee_spec hempty with ⟨hadmin, hframe⟩
    rw [(foldlM_setMember_eq_ok hadmin hdistinct habsent).mp hsingly]
    exact Ledger.placeAll_congr _ (hframe _ (by simp))

/--
At absent addresses a batch succeeds when the single instructions do, provided
it is given the accounts it fills, and then both leave the same data.
-/
theorem batch_agrees (host : Host) (L : Ledger) (ctx : Context)
    (payer : Pubkey) (chainId : U8) :
    (∀ name symbol uri administrator feeRecipient entries,
      DistinctPairs entries → (∀ entry ∈ entries, EntryAbsent L entry) →
      ((∃ L' events, createBatch host L ctx payer chainId name symbol uri
          administrator feeRecipient entries = .ok (L', events)) ↔
        (∀ p ∈ entryPlacements entries, p.address ∈ ctx.remainingAccounts) ∧
          ∃ L', createSingly host L ctx payer chainId name symbol uri
            administrator feeRecipient entries = .ok L') ∧
      ∀ L₁ events L₂, createBatch host L ctx payer chainId name symbol uri
          administrator feeRecipient entries = .ok (L₁, events) →
        createSingly host L ctx payer chainId name symbol uri administrator
          feeRecipient entries = .ok L₂ → L₁ = L₂) ∧
    ∀ submitter members, (members.map Prod.fst).Nodup →
      (∀ member ∈ members, L.Absent (Pda.committee member.1).address) →
      ((∃ L' events, createCommitteeBatch L ctx payer chainId submitter members =
          .ok (L', events)) ↔
        (∃ L' events, createBridgeCommittee L ctx payer chainId submitter [] [] =
            .ok (L', events)) ∧ members.length < 256 ∧
          (∀ p ∈ memberPlacements members, p.address ∈ ctx.remainingAccounts) ∧
          ∃ L', createCommitteeSingly L payer chainId members = .ok L') ∧
      ∀ L₁ events L₂, createCommitteeBatch L ctx payer chainId submitter
          members = .ok (L₁, events) →
        createCommitteeSingly L payer chainId members = .ok L₂ →
        ∀ key, L₁ (Pda.committee key).address =
          L₂ (Pda.committee key).address := by
  constructor
  · intro _ _ _ _ _ _ hdistinct habsent
    exact createBatch_agrees hdistinct habsent
  · intro _ _ hdistinct habsent
    exact createCommitteeBatch_agrees hdistinct habsent

def sampleEntries : List TokenEntry := [⟨2, 0, 1000, 0⟩, ⟨2, 1, 500, 10⟩]

def sampleEntriesContext : Context :=
  sampleContext ((entryPlacements sampleEntries).map Placement.address) [] 0

def sampleMembers : List (Pubkey × U16) := [(sampleMember, 6000), (3, 4000)]

def sampleMembersContext : Context :=
  sampleContext ((memberPlacements sampleMembers).map Placement.address) [] 0

theorem batch_agrees_sample :
    (∃ L', createSingly sampleHost .empty sampleEntriesContext
      Constants.supperAdmin 1 "sBTC" "sBTC" "" sampleAdmin sampleFeeRecipient
      sampleEntries = .ok L') ∧
    ∃ L', createCommitteeSingly (execute sampleHost [sampleBridge]).state
      sampleAdmin 1 sampleMembers = .ok L' := by
  constructor
  · have hok : (createBatch sampleHost .empty sampleEntriesContext
        Constants.supperAdmin 1 "sBTC" "sBTC" "" sampleAdmin sampleFeeRecipient
        sampleEntries).isOk = true := by
      decide +kernel
    rcases isOk_eq_true.mp hok with ⟨⟨L', events⟩, h⟩
    exact (((batch_agrees sampleHost .empty sampleEntriesContext
      Constants.supperAdmin 1).1 _ _ _ _ _ sampleEntries
      (by unfold DistinctPairs; decide) fun _ _ => ⟨rfl, rfl⟩).1.mp
        ⟨L', events, h⟩).2
  · have hok : (createCommitteeBatch (execute sampleHost [sampleBridge]).state
        sampleMembersContext sampleAdmin 1 sampleSubmitter
        sampleMembers).isOk = true := by
      decide +kernel
    have habsent : ∀ member ∈ sampleMembers,
        (execute sampleHost [sampleBridge]).state.Absent
          (Pda.committee member.1).address := by
      simp only [sampleMembers, List.forall_mem_cons, List.not_mem_nil,
        false_implies, implies_true, and_true, Ledger.Absent]
      constructor
      · decide +kernel
      · decide +kernel
    rcases isOk_eq_true.mp hok with ⟨⟨L', events⟩, h⟩
    exact (((batch_agrees sampleHost _ sampleMembersContext sampleAdmin 1).2
      sampleSubmitter sampleMembers (by decide) habsent).1.mp
        ⟨L', events, h⟩).2.2.2

end SolBtcBridge.Properties
