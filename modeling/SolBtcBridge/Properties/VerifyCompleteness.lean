import SolBtcBridge.Effects.Ed25519
import SolBtcBridge.Properties.MintTotals

/-!
# Completeness of committee verification

Signatures in the layout of the client resolve to their signers, so the loop
can fail only on its own machine arithmetic: the `u8` loop bound, the `u16`
stake accumulator and the next nonce.
-/

namespace SolBtcBridge.Properties

open SolBtcBridge.Foundation
open SolBtcBridge.Runtime
open SolBtcBridge.Program
open SolBtcBridge.Effects

def createdHeader (messageLength : Nat) : List U8 :=
  [1, 0, 48, 0, 255, 255, 16, 0, 255, 255, 112, 0] ++ leBytes 2 messageLength ++
    [255, 255]

theorem createInstruction_data (key : Pubkey) (signature message : List U8) :
    (createInstructionWithPublicKey key signature message).data =
      createdHeader message.length ++
        (keyBytes key ++ (signature ++ message)) := by
  simp only [createInstructionWithPublicKey, createdHeader, List.append_assoc]

theorem length_createdHeader (messageLength : Nat) :
    (createdHeader messageLength).length = 16 := by
  simp [createdHeader]

private theorem createdHeader_matches (messageLength : Nat) (rest : List U8) :
    headerMatches (createdHeader messageLength ++ rest) expectedHeader =
      .ok true := by
  rw [headerMatches_eq_true]
  have hlength : 16 ≤ (createdHeader messageLength ++ rest).length := by
    rw [List.length_append, length_createdHeader]
    omega
  simp only [expectedHeader, List.forall_mem_cons, List.length_cons,
    List.length_nil, List.not_mem_nil, false_implies, implies_true, and_true]
  exact ⟨⟨by omega, rfl⟩, ⟨by omega, rfl⟩, ⟨by omega, rfl⟩, ⟨by omega, rfl⟩,
    ⟨by omega, rfl⟩, by omega, rfl⟩

section

variable {T : Type} [DecidableEq T] [DeserializeMessage T]

theorem resolve_created {instructions : List SolanaInstruction} {index : Nat}
    {msg : T} {key : Pubkey} {signature : List U8}
    (hvalid : DeserializeMessage.codec.Valid msg) (hlength : signature.length = 64)
    (h : instructions[index]? = some
      (createInstructionWithPublicKey key signature (encodeMessage msg))) :
    resolveEd25519WithIndex instructions index msg = .ok key := by
  have hheader := length_createdHeader (encodeMessage msg).length
  have hkey := length_keyBytes key
  have hfront : (createdHeader (encodeMessage msg).length ++
      (keyBytes key ++ signature)).length = 112 := by
    simp only [List.length_append, hheader, hkey, hlength]
  refine resolve_eq_ok.mpr ⟨_, h, ?_, ?_, ?_, hvalid, ?_⟩
  · rw [validateEd25519Ix, createInstruction_data, createdHeader_matches]
    rfl
  · rw [createInstruction_data]
    simp only [List.length_append] at hfront ⊢
    omega
  · rw [createInstruction_data, ← hheader, List.drop_left, ← hkey,
      List.take_left]
  · rw [createInstruction_data, ← List.append_assoc (keyBytes key),
      ← List.append_assoc, ← hfront, List.drop_left]

end

/-! ## Signatures of active members -/

def memberStake (L : Ledger) (key : Pubkey) : Nat :=
  match L.fetch Committee (Pda.committee key).address with
  | some record => record.stakeAmount.toNat
  | none => 0

def committeeStake (L : Ledger) (members : List Pubkey) : Nat :=
  (members.map (memberStake L)).sum

/-- The member is initialised, not blocklisted, and listed as an account. -/
def ActiveMember (L : Ledger) (accounts : List Address) (key : Pubkey) : Prop :=
  (Pda.committee key).address ∈ accounts ∧
    ∃ record ∈ L.fetch Committee (Pda.committee key).address,
      record.isInitialized = true ∧ record.isBlocklisted = false

instance (L : Ledger) (accounts : List Address) (key : Pubkey) :
    Decidable (ActiveMember L accounts key) :=
  decidable_of_iff ((Pda.committee key).address ∈ accounts ∧
    (L.fetch Committee (Pda.committee key).address).any
      (fun record => record.isInitialized && !record.isBlocklisted) = true) (by
    simp [ActiveMember, Option.any_eq_true])

section

variable {T : Type} [DeserializeMessage T]

def SignedAt (instructions : List SolanaInstruction) (msg : T) (index : Nat)
    (key : Pubkey) : Prop :=
  ∃ signature, signature.length = 64 ∧ instructions[index]? = some
    (createInstructionWithPublicKey key signature (encodeMessage msg))

/-- The instructions from 1 on are signatures of the members, one for each. -/
def SignedByMembers (instructions : List SolanaInstruction) (msg : T)
    (members : List Pubkey) : Prop :=
  List.Forall₂ (SignedAt instructions msg) (List.range' 1 members.length) members

end

/-- The payload that an emergency operation carries; other operations need none. -/
def HasRequiredPayload {T : Type} [HasPayload T] (op : Operation) (msg : T) :
    Prop :=
  op = .emergencyOp → ∃ code, payload msg = [code] ∧ code.toNat ≤ 1

section

variable {T : Type} [DecidableEq T] [HasMessageType T] [HasPayload T]
  [DeserializeMessage T] {F : Type} [NoncesTrait F]

omit [DecidableEq T] [DeserializeMessage T] in
private theorem requiredStake_isOk {msg : T} {op : Operation}
    (hop : Operation.tryFrom (messageType msg) = some op) :
    (∃ required, requiredStake msg = .ok required) ↔
      HasRequiredPayload op msg := by
  have hpayload : (∃ code, payload msg = [code] ∧ code.toNat ≤ 1) ↔
      payload msg = [0] ∨ payload msg = [1] := by
    simp only [code_le_one_iff, and_or_left, exists_or, exists_eq_right]
  rw [requiredStake_accepted, HasRequiredPayload, hpayload]
  simp only [hop, Option.some.injEq, exists_eq_left']

section

variable {accounts : List Address} {L : Ledger}
  {instructions : List SolanaInstruction} {msg : T} {op : Operation}
  {nonceConfig : F}

omit [HasPayload T] in
private theorem approves_unique : Relator.RightUnique
    (Approves accounts L instructions msg op nonceConfig) := by
  rintro index ⟨key, record⟩ ⟨key', record'⟩ h h'
  have hkey := h.resolved.symm.trans h'.resolved
  cases hkey
  have hrecord := h.record.symm.trans h'.record
  cases hrecord
  rfl

variable (hwf : WellFormed L) (hvalid : DeserializeMessage.codec.Valid msg)
  (hop : Operation.tryFrom (messageType msg) = some op)
  (hnonce : nonceEqual nonceConfig (HasMessageType.nonce msg) = true)

include hwf hvalid hop hnonce

omit [HasPayload T] in
private theorem approval_of_active {index : Nat} {key : Pubkey}
    (hsigned : SignedAt instructions msg index key)
    (hactive : ActiveMember L accounts key) :
    ∃ a, Approves accounts L instructions msg op nonceConfig index a ∧
      a.record.index = key ∧ a.record.stakeAmount.toNat = memberStake L key := by
  rcases hsigned with ⟨signature, hlength, hinstruction⟩
  rcases hactive with ⟨hlisted, record, hfetch, hinit, hblock⟩
  have hkeeps : L.Keeps (Pda.committee key).address
      (fun r : Committee => r.isInitialized = true ∧ r.index = key) :=
    hwf (.committee key)
  have hstores := hkeeps.fetch_eq_some.mp hfetch
  have happroves : Approves accounts L instructions msg op nonceConfig index
      ⟨key, record⟩ :=
    { resolved := resolve_created hvalid hlength hinstruction
      operation := hop
      nonce := hnonce
      listed := hlisted
      record := (readCommittee_of_keeps hkeeps).mpr hstores
      notBlocklisted := hblock
      isInitialized := hinit }
  refine ⟨⟨key, record⟩, happroves, (approves_member hwf happroves).2, ?_⟩
  rw [memberStake, hstores.fetch]

omit [HasPayload T] in
theorem approvals_of_signed {indices : List Nat} {members : List Pubkey}
    (hsigned : List.Forall₂ (SignedAt instructions msg) indices members)
    (hactive : ∀ key ∈ members, ActiveMember L accounts key) :
    ∃ approvals, List.Forall₂
        (Approves accounts L instructions msg op nonceConfig) indices approvals ∧
      (approvals.map fun a => a.record.index) = members ∧
      approvedStake approvals = committeeStake L members := by
  induction hsigned with
  | nil => exact ⟨[], .nil, rfl, rfl⟩
  | @cons index key indices members hfirst _ ih =>
      rcases ih fun k hk => hactive k (List.mem_cons_of_mem key hk) with
        ⟨approvals, hrest, hindices, hstake⟩
      rcases approval_of_active hwf hvalid hop hnonce hfirst
        (hactive key List.mem_cons_self) with ⟨a, ha, hindex, hshare⟩
      refine ⟨a :: approvals, .cons ha hrest, ?_, ?_⟩
      · rw [List.map_cons, hindex, hindices]
      · simp only [approvedStake, committeeStake, List.map_cons, List.sum_cons,
          hshare] at hstake ⊢
        rw [hstake]

/-- For signatures of active members only the arithmetic of the loop can fail. -/
private theorem verify_isOk_iff {numberOfSignatures : U8}
    {members : List Pubkey} (hone : 1 ≤ numberOfSignatures.toNat)
    (hcount : members.length = numberOfSignatures.toNat)
    (hdistinct : members.Nodup)
    (hactive : ∀ key ∈ members, ActiveMember L accounts key)
    (hsigned : SignedByMembers instructions msg members)
    (hstake : ∀ required, requiredStake msg = .ok required →
      required.toNat ≤ committeeStake L members) :
    (∃ nonceConfig', verify accounts L instructions numberOfSignatures msg op
        nonceConfig = .ok nonceConfig') ↔
      numberOfSignatures.toNat < 255 ∧ committeeStake L members < 2 ^ 16 ∧
        (∃ nonceConfig', incrementNonce nonceConfig = .ok nonceConfig') ∧
        HasRequiredPayload op msg := by
  rcases approvals_of_signed hwf hvalid hop hnonce hsigned hactive with
    ⟨approvals, hforall, hindices, hsum⟩
  rw [hcount] at hforall
  simp only [verify_eq_ok, ← requiredStake_isOk hop]
  constructor
  · rintro ⟨nonceConfig', ⟨-, hlt⟩, hnext, others, hothers, -, hfits, required,
      hrequired, -⟩
    have hsame := List.right_unique_forall₂' approves_unique hothers hforall
    rw [hsame, hsum] at hfits
    exact ⟨hlt, hfits, ⟨nonceConfig', hnext⟩, required, hrequired⟩
  · rintro ⟨hlt, hfits, ⟨nonceConfig', hnext⟩, required, hrequired⟩
    refine ⟨nonceConfig', ⟨hone, hlt⟩, hnext, approvals, hforall, ?_, ?_,
      required, hrequired, ?_⟩
    · rw [hindices]
      exact hdistinct
    · rw [hsum]
      exact hfits
    · rw [hsum]
      exact hstake required hrequired

end

private theorem incrementNonce_isOk (nonceConfig : Nonces) :
    (∃ nonceConfig', incrementNonce nonceConfig = .ok nonceConfig') ↔
      nonceConfig.nonce.toNat + 1 < 2 ^ 64 := by
  have hone : (1 : U64).toNat = 1 := rfl
  simp only [incrementNonce, bind_eq_ok, addOrPanic_eq_ok, pure_eq_ok]
  constructor
  · rintro ⟨_, nonce, hnonce, -⟩
    have hlt := nonce.isLt
    omega
  · intro hfits
    exact ⟨_, nonceConfig.nonce + 1, BitVec.toNat_add_of_lt hfits, rfl⟩

omit F in
/--
In every reachable ledger, signatures of enough active members are accepted
exactly when no checked addition of the loop overflows.
-/
theorem verify_complete_iff (host : Host) (inputs : List Input)
    (accounts : List Address) (instructions : List SolanaInstruction)
    (numberOfSignatures : U8) (msg : T) (op : Operation) (members : List Pubkey)
    (hvalid : DeserializeMessage.codec.Valid msg)
    (hop : Operation.tryFrom (messageType msg) = some op)
    (hone : 1 ≤ numberOfSignatures.toNat)
    (hcount : members.length = numberOfSignatures.toNat)
    (hdistinct : members.Nodup)
    (hactive : ∀ key ∈ members,
      ActiveMember (execute host inputs).state accounts key)
    (hsigned : SignedByMembers instructions msg members)
    (hstake : ∀ required, requiredStake msg = .ok required →
      required.toNat ≤ committeeStake (execute host inputs).state members) :
    (∀ nonceConfig : Nonces,
      nonceEqual nonceConfig (HasMessageType.nonce msg) = true →
        ((∃ nonceConfig', verify accounts (execute host inputs).state
            instructions numberOfSignatures msg op nonceConfig =
              .ok nonceConfig') ↔
          numberOfSignatures.toNat < 255 ∧
            committeeStake (execute host inputs).state members < 2 ^ 16 ∧
            nonceConfig.nonce.toNat + 1 < 2 ^ 64 ∧
            HasRequiredPayload op msg)) ∧
    ∀ nonceConfig : NoncesDummy,
      (∃ nonceConfig', verify accounts (execute host inputs).state
          instructions numberOfSignatures msg op nonceConfig =
            .ok nonceConfig') ↔
        numberOfSignatures.toNat < 255 ∧
          committeeStake (execute host inputs).state members < 2 ^ 16 ∧
          HasRequiredPayload op msg := by
  have hwf := execute_wellFormed host inputs
  constructor
  · intro nonceConfig hnonce
    rw [verify_isOk_iff hwf hvalid hop hnonce hone hcount hdistinct hactive
      hsigned hstake, incrementNonce_isOk]
  · intro nonceConfig
    have hnext : ∃ nonceConfig', incrementNonce nonceConfig = .ok nonceConfig' :=
      ⟨nonceConfig, rfl⟩
    rw [verify_isOk_iff hwf hvalid hop rfl hone hcount hdistinct hactive hsigned
      hstake]
    simp only [hnext, true_and]

end

def wealthyCommittee : Input :=
  .createBridgeCommittee
    (sampleContext memberAccounts [] 0) sampleAdmin 1 sampleSubmitter
    [sampleMember, secondMember] [40000, 30000]

def wealthyLedger : Ledger :=
  (execute sampleHost [sampleBridge, wealthyCommittee]).state

def doublySigned : List SolanaInstruction :=
  ⟨0, [], []⟩ :: jointSigners

private theorem signedByMembers_doublySigned :
    SignedByMembers doublySigned sampleMintMessage [sampleMember, secondMember] :=
  .cons ⟨sampleMintSignature, by decide +kernel, rfl⟩
    (.cons ⟨secondMintSignature, by decide +kernel, rfl⟩ .nil)

/-- Either member alone is enough; adding the second aborts the loop. -/
theorem not_verify_complete_sample :
    ActiveMember wealthyLedger memberAccounts sampleMember ∧
    ActiveMember wealthyLedger memberAccounts secondMember ∧
    SignedByMembers doublySigned sampleMintMessage [sampleMember, secondMember] ∧
    requiredStake sampleMintMessage = .ok transferStakeRequired ∧
    committeeStake wealthyLedger [sampleMember, secondMember] = 70000 ∧
    (∃ nonceConfig, verify memberAccounts wealthyLedger doublySigned 1
      sampleMintMessage .tokenTransfer NoncesDummy.mk = .ok nonceConfig) ∧
    ¬ ∃ nonceConfig, verify memberAccounts wealthyLedger doublySigned 2
      sampleMintMessage .tokenTransfer NoncesDummy.mk = .ok nonceConfig := by
  refine ⟨by decide +kernel, by decide +kernel, signedByMembers_doublySigned,
    by decide +kernel, by decide +kernel, ?_, ?_⟩
  · exact isOk_eq_true.mp (by decide +kernel)
  · rw [← isOk_eq_true]
    decide +kernel

def sampleNonces (nonce : U64) : Nonces where
  isInitialized := false
  nonce := nonce
  padding := Vector.replicate 10 0

theorem verify_complete_iff_sample :
    (∃ nonceConfig, verify memberAccounts jointLedger doublySigned 2
      sampleMintMessage .tokenTransfer (sampleNonces 0) = .ok nonceConfig) ∧
    ∃ nonceConfig, verify memberAccounts jointLedger doublySigned 2
      sampleMintMessage .tokenTransfer NoncesDummy.mk = .ok nonceConfig := by
  have hvalid : MintSbtcMessage.codec.Valid sampleMintMessage :=
    ⟨trivial, trivial, trivial, trivial, trivial, ⟨by decide, nofun⟩, trivial,
      trivial, trivial⟩
  have hactive : ∀ key ∈ [sampleMember, secondMember], ActiveMember
      jointLedger memberAccounts key := by
    rw [List.forall_mem_cons, List.forall_mem_singleton]
    exact ⟨by decide +kernel, by decide +kernel⟩
  have hstake : ∀ required, requiredStake sampleMintMessage = .ok required →
      required.toNat ≤ committeeStake jointLedger
        [sampleMember, secondMember] := by
    intro required hrequired
    have htransfer :
        requiredStake sampleMintMessage = .ok transferStakeRequired := by
      decide +kernel
    rw [htransfer] at hrequired
    cases hrequired
    decide +kernel
  have hiff := verify_complete_iff sampleHost [sampleBridge, jointCommittee]
    memberAccounts doublySigned 2 sampleMintMessage .tokenTransfer
    [sampleMember, secondMember] hvalid (by decide +kernel) (by decide) rfl
    (by decide) hactive signedByMembers_doublySigned hstake
  constructor
  · exact (hiff.1 (sampleNonces 0) (by decide +kernel)).mpr
      ⟨by decide, by decide +kernel, by decide, nofun⟩
  · exact (hiff.2 NoncesDummy.mk).mpr ⟨by decide, by decide +kernel, nofun⟩

end SolBtcBridge.Properties
