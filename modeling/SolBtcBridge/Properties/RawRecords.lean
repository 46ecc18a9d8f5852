import SolBtcBridge.Effects.Batch
import SolBtcBridge.Effects.Step
import SolBtcBridge.Properties.Stake

/-!
# Reading back what was written by hand

The batch instructions write records into raw buffers, the single instructions
go through typed accounts, and verification decodes the raw bytes again.  All
of them agree on one layout: a record fills its account, and after any later
updates every reader gets the last logical value.
-/

namespace SolBtcBridge.Properties

open SolBtcBridge.Foundation
open SolBtcBridge.Runtime
open SolBtcBridge.Program
open SolBtcBridge.Effects

section

variable {T : Type} [AnchorAccount T]

/-- Header and fields fill a fresh buffer of `LEN` bytes, whatever the record. -/
structure FitsExactly (r : T) : Prop where
  length : anchorHeaderLen + (AnchorAccount.codec.encode r).length =
    AnchorAccount.len T
  written : ∀ (L : Ledger) (a : Address) (lamports : Nat) (code : ErrorCode),
    (L.set a ⟨lamports, .bridge (List.replicate (AnchorAccount.len T) 0)⟩).serializeRaw
        a r code = .ok (L.set a ⟨lamports, .bridge (image r)⟩)

private theorem fitsExactly (r : T) : FitsExactly r where
  length := by
    have hlength := length_image r
    rwa [image, List.length_append, AnchorAccount.length_discriminator] at hlength
  written L a lamports code := by
    rw [Ledger.serializeRaw_eq_ok, Ledger.exit_eq_ok]
    refine ⟨_, by rw [Ledger.set_self], by rw [List.length_replicate], ?_⟩
    rw [Ledger.setBody, Ledger.set_self, Ledger.set_set, List.drop_replicate,
      Nat.sub_self, List.replicate_zero, List.append_nil]

/-- The reader gets the record, and the account has no byte besides it. -/
def ReadsExactly (read : Account → Result T) (L : Ledger) (a : Address) (r : T) :
    Prop :=
  read (L a) = .ok r ∧ (borrowData (L a)).length = AnchorAccount.len T

private theorem borrowData_of_stores {L : Ledger} {a : Address} {r : T}
    (h : L.Stores a r) : borrowData (L a) = image r := by
  rw [borrowData, h]

private theorem readsExactly_load {L : Ledger} {a : Address} {r : T}
    (h : L.Stores a r) : ReadsExactly (Account.load T) L a r :=
  ⟨h.load, by rw [borrowData_of_stores h, length_image]⟩

end

private theorem readsExactly_readCommittee {L : Ledger} {a : Address}
    {r : Committee} (h : L.Stores a r) : ReadsExactly readCommittee L a r := by
  have hkeeps : L.Keeps a fun _ : Committee => True := .inr ⟨r, h, trivial⟩
  exact ⟨(readCommittee_of_keeps hkeeps).mpr h,
    by rw [borrowData_of_stores h, length_image]⟩

def memberUpdate (k : Pubkey) : Input → Committee → Committee
  | .addOrUpdateCommittee _ _ member stake isBlocklisted, r =>
      if member = k then r.addOrUpdate member stake isBlocklisted else r
  | _, r => r

def chainUpdate (c : U8) : Input → SupportedChainConfig → SupportedChainConfig
  | .addOrUpdateChain _ _ supportedChainId supported, r =>
      if supportedChainId = c then r.addOrUpdate supportedChainId supported else r
  | .mintSbtcWithSignatures _ _ _ msg, r =>
      if msg.sourceChainId = c then
        { r with mintTotal := r.mintTotal + msg.amount.setWidth 128 }
      else r
  | _, r => r

def tokenUpdate (c t : U8) : Input → TokenConfig → TokenConfig
  | .addOrUpdateChainToken _ _ supportedChainId tokenId fee minimum paused, r =>
      if supportedChainId = c ∧ tokenId = t then
        r.addOrUpdate supportedChainId tokenId fee minimum paused
      else r
  | .mintSbtcWithSignatures _ _ _ msg, r =>
      if msg.sourceChainId = c ∧ msg.sourceTokenId = t then
        { r with mintTotal := r.mintTotal + msg.amount.setWidth 128 }
      else r
  | _, r => r

private theorem mintTotal_eq {before total : U128} {amount : U64}
    (h : total.toNat = before.toNat + amount.toNat) :
    before + amount.setWidth 128 = total := by
  have hfits : before.toNat + (amount.setWidth 128).toNat < 2 ^ 128 := by
    rw [toNat_setWidth_amount, ← h]
    exact total.isLt
  apply BitVec.eq_of_toNat_eq
  rw [BitVec.toNat_add_of_lt hfits, toNat_setWidth_amount, h]

private theorem stores_of_evolves {T : Type} [AnchorAccount T] {L L' : Ledger}
    {i : Input} {p : Pda} {r : T} (h : L.Stores p.address r)
    (hevolves : Evolves L L' i p) (hnone : ¬ RecordChange L L' i p) :
    L'.Stores p.address r := by
  rcases hevolves with heq | hchange
  · exact heq.trans h
  · exact absurd hchange hnone

section

variable {host : Host} {e : BridgeRecord}

private theorem memberUpdate_step {k : Pubkey} {r : Committee}
    (hwf : WellFormed e.pre) (hstep : IsStep (step host) e)
    (h : e.pre.Stores (Pda.committee k).address r) :
    e.post.Stores (Pda.committee k).address (memberUpdate k e.input r) := by
  have hkept := stores_of_evolves h (step_evolves hwf hstep (.committee k))
  obtain ⟨L, input, events, L'⟩ := e
  cases input with
  | createBridgeCommittee =>
      apply hkept
      intro hchange
      cases hchange with
      | memberListed _ hvacant _ => exact h.not_vacant hvacant
  | addOrUpdateCommittee payer chainId member stake isBlocklisted =>
      simp only [memberUpdate]
      by_cases hmember : member = k
      · subst hmember
        obtain ⟨-, hupserts, -⟩ := addOrUpdateCommittee_eq_ok.mp hstep
        rw [if_pos rfl]
        exact h.of_upserts hupserts
      · rw [if_neg hmember]
        apply hkept
        intro hchange
        cases hchange
        exact hmember rfl
  | _ => exact hkept nofun

private theorem chainUpdate_step {c : U8} {r : SupportedChainConfig}
    (hwf : WellFormed e.pre) (hstep : IsStep (step host) e)
    (h : e.pre.Stores (Pda.supportedChain c).address r) :
    e.post.Stores (Pda.supportedChain c).address (chainUpdate c e.input r) := by
  have hkept := stores_of_evolves h (step_evolves hwf hstep (.supportedChain c))
  obtain ⟨L, input, events, L'⟩ := e
  cases input with
  | createBridgeConfig =>
      apply hkept
      intro hchange
      cases hchange with
      | chainListed _ hvacant _ => exact h.not_vacant hvacant
  | addOrUpdateChain payer chainId supportedChainId supported =>
      simp only [chainUpdate]
      by_cases hchain : supportedChainId = c
      · subst hchain
        obtain ⟨-, hupserts, -⟩ := addOrUpdateChain_eq_ok.mp hstep
        rw [if_pos rfl]
        exact h.of_upserts hupserts
      · rw [if_neg hchain]
        apply hkept
        intro hchange
        cases hchange
        exact hchain rfl
  | mintSbtcWithSignatures ctx submitter signatures msg =>
      simp only [chainUpdate]
      by_cases hchain : msg.sourceChainId = c
      · subst hchain
        obtain ⟨effect⟩ := mintEffect_of_ok hwf hstep
        obtain rfl := h.unique effect.chainStored
        rw [if_pos rfl, mintTotal_eq effect.chainTotal]
        exact effect.chainStored'
      · rw [if_neg hchain]
        apply hkept
        intro hchange
        cases hchange
        exact hchain rfl
  | _ => exact hkept nofun

private theorem tokenUpdate_step {c t : U8} {r : TokenConfig}
    (hwf : WellFormed e.pre) (hstep : IsStep (step host) e)
    (h : e.pre.Stores (Pda.tokenConfig c t).address r) :
    e.post.Stores (Pda.tokenConfig c t).address (tokenUpdate c t e.input r) := by
  have hkept := stores_of_evolves h (step_evolves hwf hstep (.tokenConfig c t))
  obtain ⟨L, input, events, L'⟩ := e
  cases input with
  | createBridgeConfig =>
      apply hkept
      intro hchange
      cases hchange with
      | tokenListed _ _ hvacant _ => exact h.not_vacant hvacant
  | addOrUpdateChainToken payer chainId supportedChainId tokenId fee minimum
      paused =>
      simp only [tokenUpdate]
      by_cases htoken : supportedChainId = c ∧ tokenId = t
      · rcases htoken with ⟨rfl, rfl⟩
        obtain ⟨-, -, -, hupserts, -⟩ := addOrUpdateChainToken_eq_ok.mp hstep
        rw [if_pos ⟨rfl, rfl⟩]
        exact h.of_upserts hupserts
      · rw [if_neg htoken]
        apply hkept
        intro hchange
        cases hchange
        exact htoken ⟨rfl, rfl⟩
  | mintSbtcWithSignatures ctx submitter signatures msg =>
      simp only [tokenUpdate]
      by_cases htoken : msg.sourceChainId = c ∧ msg.sourceTokenId = t
      · rcases htoken with ⟨rfl, rfl⟩
        obtain ⟨effect⟩ := mintEffect_of_ok hwf hstep
        obtain rfl := h.unique effect.tokenStored
        rw [if_pos ⟨rfl, rfl⟩, mintTotal_eq effect.tokenTotal]
        exact effect.tokenStored'
      · rw [if_neg htoken]
        apply hkept
        intro hchange
        cases hchange
        exact htoken ⟨rfl, rfl⟩
  | _ => exact hkept nofun

end

/-! ## Hand-written records -/

/-- The first listed stake counts, as the batch skips what it has created. -/
def writtenMember (k : Pubkey) : Input → Option Committee
  | .createBridgeCommittee _ _ _ _ committee stake =>
      (firstStake (committee.zip stake) k).map fun member =>
        listedMember member.1 member.2
  | _ => none

def writtenChain (c : U8) : Input → Option SupportedChainConfig
  | .createBridgeConfig _ _ _ _ _ _ _ _ tokenIds supportedChains fees minimums =>
      if ∃ entry ∈ tokenEntries tokenIds supportedChains fees minimums,
        entry.supportedChainId = c then some (listedChain c) else none
  | _ => none

def writtenToken (c t : U8) : Input → Option TokenConfig
  | .createBridgeConfig _ _ _ _ _ _ _ _ tokenIds supportedChains fees minimums =>
      (firstEntry (tokenEntries tokenIds supportedChains fees minimums) c t).map
        TokenEntry.tokenConfig
  | _ => none

section

variable {host : Host} {e : BridgeRecord}

private theorem writtenMember_stored {k : Pubkey} {r : Committee}
    (hstep : IsStep (step host) e)
    (hempty : (e.pre (Pda.committee k).address).lamports = 0)
    (hwritten : writtenMember k e.input = some r) :
    e.post.Stores (Pda.committee k).address r := by
  obtain ⟨L, input, events, L'⟩ := e
  cases input with
  | createBridgeCommittee ctx payer chainId submitter committee stake =>
      obtain ⟨member, hfirst, rfl⟩ := Option.map_eq_some_iff.mp hwritten
      obtain ⟨-, -, -, L₁, hupserts, -, hpost, -⟩ :=
        createBridgeCommittee_eq_ok.mp hstep
      have hfind := find_memberPlacement (committee.zip stake) k
      rw [hfirst, Option.map_some] at hfind
      have hempty' : (L₁ (Pda.committee k).address).lamports = 0 := by
        rwa [hupserts.of_ne (by simp)]
      rw [hpost]
      exact Ledger.placeAll_stores hempty' hfind rfl
  | _ => contradiction

private theorem writtenChain_stored {c : U8} {r : SupportedChainConfig}
    (hstep : IsStep (step host) e)
    (hempty : (e.pre (Pda.supportedChain c).address).lamports = 0)
    (hwritten : writtenChain c e.input = some r) :
    e.post.Stores (Pda.supportedChain c).address r := by
  obtain ⟨L, input, events, L'⟩ := e
  cases input with
  | createBridgeConfig =>
      obtain ⟨hlisted, hsome⟩ := Option.ite_none_right_eq_some.mp hwritten
      cases hsome
      obtain ⟨-, -, -, -, -, -, hpost, -⟩ := createBridgeConfig_eq_ok.mp hstep
      rw [hpost]
      refine Ledger.placeAll_stores ?_ (find_chainPlacement hlisted) rfl
      rwa [openBridge_of_ne (by simp) (by simp)]
  | _ => contradiction

private theorem writtenToken_stored {c t : U8} {r : TokenConfig}
    (hstep : IsStep (step host) e)
    (hempty : (e.pre (Pda.tokenConfig c t).address).lamports = 0)
    (hwritten : writtenToken c t e.input = some r) :
    e.post.Stores (Pda.tokenConfig c t).address r := by
  obtain ⟨L, input, events, L'⟩ := e
  cases input with
  | createBridgeConfig ctx payer chainId name symbol uri administrator feeRecipient
      tokenIds supportedChains fees minimums =>
      obtain ⟨entry, hfirst, rfl⟩ := Option.map_eq_some_iff.mp hwritten
      obtain ⟨-, -, -, -, -, -, hpost, -⟩ := createBridgeConfig_eq_ok.mp hstep
      have hfind := find_tokenPlacement
        (tokenEntries tokenIds supportedChains fees minimums) c t
      rw [hfirst, Option.map_some] at hfind
      rw [hpost]
      refine Ledger.placeAll_stores ?_ hfind rfl
      rwa [openBridge_of_ne (by simp) (by simp)]
  | _ => contradiction

end

/-! ## Reading back -/

section

variable {T : Type} [AnchorAccount T]

/--
A record that a batch has written into a fresh account is read back with every
later update applied to it.
-/
def ReadsBack (read : Account → Result T) (p : Pda) (written : Input → Option T)
    (update : Input → T → T) (trace : BridgeTrace) : Prop :=
  ∀ before e later r, trace.log = before ++ e :: later →
    (e.pre p.address).lamports = 0 → written e.input = some r →
      ReadsExactly read trace.state p.address (replay update later r)

private theorem readsBack_of_stores {read : Account → Result T} {p : Pda}
    {written : Input → Option T} {update : Input → T → T} {host : Host}
    (reads : ∀ {L : Ledger} {r : T}, L.Stores p.address r →
      ReadsExactly read L p.address r)
    (stored : ∀ {e : BridgeRecord} {r : T}, IsStep (step host) e →
      (e.pre p.address).lamports = 0 → written e.input = some r →
        e.post.Stores p.address r)
    (updated : ∀ {e : BridgeRecord} {r : T}, WellFormed e.pre →
      IsStep (step host) e → e.pre.Stores p.address r →
        e.post.Stores p.address (update e.input r))
    (inputs : List Input) :
    ReadsBack read p written update (execute host inputs) := by
  intro before e later r hlog hempty hwritten
  have he : IsStep (step host) e := (run_split hlog).1
  apply reads
  apply run_replay (R := fun L => L.Stores p.address) update wellFormed_empty
    (fun _ => wellFormed_step) hlog (stored he hempty hwritten)
  intro d _ hwf hstep v hstores
  exact updated hwf hstep hstores

end

/--
Every record fills its buffer of `LEN` bytes when it is written by hand, and
afterwards verification's strict decoding of a member, and the typed load of a
chain or token record, return the last logical value.
-/
theorem raw_records_read_back (host : Host) (inputs : List Input) :
    ((∀ r : Committee, FitsExactly r) ∧ (∀ r : SupportedChainConfig,
        FitsExactly r) ∧ ∀ r : TokenConfig, FitsExactly r) ∧
      (∀ k, ReadsBack readCommittee (.committee k) (writtenMember k)
        (memberUpdate k) (execute host inputs)) ∧
      (∀ c, ReadsBack (Account.load SupportedChainConfig) (.supportedChain c)
        (writtenChain c) (chainUpdate c) (execute host inputs)) ∧
      ∀ c t, ReadsBack (Account.load TokenConfig) (.tokenConfig c t)
        (writtenToken c t) (tokenUpdate c t) (execute host inputs) := by
  refine ⟨⟨fitsExactly, fitsExactly, fitsExactly⟩, ?_, ?_, ?_⟩
  · intro k
    exact readsBack_of_stores readsExactly_readCommittee writtenMember_stored
      memberUpdate_step inputs
  · intro c
    exact readsBack_of_stores readsExactly_load writtenChain_stored
      chainUpdate_step inputs
  · intro c t
    exact readsBack_of_stores readsExactly_load writtenToken_stored
      tokenUpdate_step inputs

/-- A member whose stake was changed after the batch. -/
def sampleRestaking : List Input :=
  [sampleBridge, sampleCommittee,
    .addOrUpdateCommittee sampleAdmin 1 sampleMember 250 true]

private theorem sampleRestaking_log :
    1 < (execute sampleHost sampleRestaking).log.length := by
  decide +kernel

theorem raw_records_read_back_sample :
    ReadsExactly readCommittee (execute sampleHost sampleRestaking).state
      (Pda.committee sampleMember).address
      { listedMember sampleMember 250 with isBlocklisted := true } := by
  have hsplit := List.take_append_drop 1 (execute sampleHost sampleRestaking).log
  rw [List.drop_eq_getElem_cons sampleRestaking_log] at hsplit
  have hreplay : replay (memberUpdate sampleMember)
      ((execute sampleHost sampleRestaking).log.drop 2)
      (listedMember sampleMember 10000) =
        { listedMember sampleMember 250 with isBlocklisted := true } := by
    decide +kernel
  rw [← hreplay]
  exact (raw_records_read_back sampleHost sampleRestaking).2.1 sampleMember _ _ _ _
    hsplit.symm (by decide +kernel) (by decide +kernel)

end SolBtcBridge.Properties
