import SolBtcBridge.Program.Transactions
import SolBtcBridge.Properties.Acceptance
import SolBtcBridge.Properties.SignedFormat
import SolBtcBridge.Properties.VerifyCompleteness

/-!
# The signatures of the client

For instructions that the client builds, approval by the committee is a
statement about the list of signers alone: they are distinct, each is an active
member, and their stake is in range.  The precompile, reading the same bytes,
checks the signature of that key over that message.
-/

namespace SolBtcBridge.Properties

open SolBtcBridge.Foundation
open SolBtcBridge.Runtime
open SolBtcBridge.Program
open SolBtcBridge.Effects

section

variable {T : Type} [DecidableEq T] [HasMessageType T] [HasPayload T]
  [DeserializeMessage T] {F : Type} [NoncesTrait F]

variable {accounts : List Address} {L : Ledger}
  {instructions : List SolanaInstruction} {msg : T} {op : Operation}
  {nonceConfig : F}

omit [HasPayload T] in
private theorem approval_signer {index : Nat} {key : Pubkey} {a : Approval}
    (hwf : WellFormed L) (hvalid : DeserializeMessage.codec.Valid msg)
    (hsigned : SignedAt instructions msg index key)
    (h : Approves accounts L instructions msg op nonceConfig index a) :
    a.record.index = key ∧ a.record.stakeAmount.toNat = memberStake L key ∧
      ActiveMember L accounts key := by
  rcases hsigned with ⟨signature, hlength, hget⟩
  have hresolved := resolve_created hvalid hlength hget
  rw [h.resolved, Except.ok.injEq] at hresolved
  subst hresolved
  rcases approves_member hwf h with ⟨hstores, hindex⟩
  refine ⟨hindex, ?_, h.listed, a.record, ?_, h.isInitialized,
    h.notBlocklisted⟩
  · rw [memberStake, hstores.fetch]
  · exact hstores.fetch

omit [HasPayload T] in
private theorem approvals_signers {indices : List Nat} {members : List Pubkey}
    {approvals : List Approval} (hwf : WellFormed L)
    (hvalid : DeserializeMessage.codec.Valid msg)
    (hsigned : List.Forall₂ (SignedAt instructions msg) indices members)
    (h : List.Forall₂ (Approves accounts L instructions msg op nonceConfig)
      indices approvals) :
    (approvals.map fun a => a.record.index) = members ∧
      approvedStake approvals = committeeStake L members ∧
      ∀ key ∈ members, ActiveMember L accounts key := by
  induction hsigned generalizing approvals with
  | nil =>
      cases h
      exact ⟨rfl, rfl, fun _ hkey => absurd hkey List.not_mem_nil⟩
  | @cons index key indices members hfirst _ ih =>
      cases h with
      | @cons _ a _ approvals ha hrest =>
          rcases approval_signer hwf hvalid hfirst ha with
            ⟨hindex, hshare, hactive⟩
          rcases ih hrest with ⟨hindices, hstake, hothers⟩
          refine ⟨by rw [List.map_cons, hindex, hindices], ?_,
            List.forall_mem_cons.mpr ⟨hactive, hothers⟩⟩
          simp only [approvedStake, committeeStake, List.map_cons,
            List.sum_cons, hshare] at hstake ⊢
          rw [hstake]

structure Quorate (L : Ledger) (op : Operation) (members : List Pubkey) :
    Prop where
  count : 1 ≤ members.length ∧ members.length < 255
  distinct : members.Nodup
  active : ∀ key ∈ members,
    ∃ record ∈ L.fetch Committee (Pda.committee key).address,
      record.isInitialized = true ∧ record.isBlocklisted = false
  stake : (grantedStake op).toNat ≤ committeeStake L members
  fits : committeeStake L members < 2 ^ 16

omit [HasPayload T] in
theorem approved_iff_quorate {numberOfSignatures : U8} {members : List Pubkey}
    (hwf : WellFormed L) (hvalid : DeserializeMessage.codec.Valid msg)
    (hcount : members.length = numberOfSignatures.toNat)
    (hlisted : ∀ key ∈ members, (Pda.committee key).address ∈ accounts)
    (hsigned : SignedByMembers instructions msg members) :
    Approved accounts L instructions numberOfSignatures msg op nonceConfig ↔
      Operation.tryFrom (messageType msg) = some op ∧
        nonceEqual nonceConfig (HasMessageType.nonce msg) = true ∧
        Quorate L op members := by
  rw [SignedByMembers, hcount] at hsigned
  constructor
  · rintro ⟨hrange, approvals, hforall, hnodup, hle, hfits⟩
    rcases approvals_signers hwf hvalid hsigned hforall with
      ⟨hindices, hstake, hactive⟩
    rw [hindices] at hnodup
    rw [hstake] at hle hfits
    rcases checks_of_approvals hrange.1 hforall with ⟨hop, hnonce⟩
    rw [← hcount] at hrange
    exact ⟨hop, hnonce, hrange, hnodup, fun key hkey => (hactive key hkey).2, hle,
      hfits⟩
  · rintro ⟨hop, hnonce, h⟩
    have hactive : ∀ key ∈ members, ActiveMember L accounts key :=
      fun key hkey => ⟨hlisted key hkey, h.active key hkey⟩
    rcases approvals_of_signed hwf hvalid hop hnonce hsigned hactive with
      ⟨approvals, hforall, hindices, hstake⟩
    have hrange := h.count
    rw [hcount] at hrange
    refine ⟨hrange, approvals, hforall, ?_, ?_, ?_⟩
    · rw [hindices]
      exact h.distinct
    · rw [hstake]
      exact h.stake
    · rw [hstake]
      exact h.fits

end

/-! ## What the precompile checks -/

private theorem ofLeBytes_two {n : Nat} (h : n < 2 ^ 16) :
    ofLeBytes (leBytes 2 n) = n := by
  rw [ofLeBytes_leBytes, Nat.mod_eq_of_lt h]

private theorem readHeader_created {instructions : List SolanaInstruction}
    {key : Pubkey} {signature message : List U8}
    (hsignature : signature.length = 64) (hmessage : message.length < 2 ^ 16) :
    readHeader instructions
        (createInstructionWithPublicKey key signature message).data 2 =
      some ⟨keyBytes key, signature, message⟩ := by
  have hheader := length_createdHeader message.length
  have hkey := length_keyBytes key
  have hfront : (createdHeader message.length ++ keyBytes key).length = 48 := by
    simp only [List.length_append, hheader, hkey]
  have hbefore : ((createdHeader message.length ++ keyBytes key) ++
      signature).length = 112 := by
    rw [List.length_append, hfront, hsignature]
  have hlength : (createInstructionWithPublicKey key signature
      message).data.length = 112 + message.length := by
    rw [createInstruction_data, ← List.append_assoc, ← List.append_assoc,
      List.length_append, hbefore]
  have hself : 65535 = ofLeBytes [255, 255] := by decide
  simp only [readHeader, Option.bind_eq_bind, Option.bind_eq_some_iff,
    readU16_eq_some, hlength]
  refine ⟨48, ⟨by omega, rfl⟩, 65535, ⟨by omega, hself⟩, 16, ⟨by omega, rfl⟩,
    65535, ⟨by omega, hself⟩, 112, ⟨by omega, rfl⟩, message.length,
    ⟨by omega, ?_⟩, 65535, ⟨by omega, hself⟩, signature,
    dataSlice_self.mpr ⟨by omega, ?_⟩, keyBytes key,
    dataSlice_self.mpr ⟨by omega, ?_⟩, message,
    dataSlice_self.mpr ⟨by omega, ?_⟩, rfl⟩
  · exact (ofLeBytes_two hmessage).symm
  · rw [createInstruction_data, ← List.append_assoc, ← hfront, List.drop_left,
      ← hsignature, List.take_left]
  · rw [createInstruction_data, ← hheader, List.drop_left, ← hkey,
      List.take_left]
  · rw [createInstruction_data, ← List.append_assoc, ← List.append_assoc,
      ← hbefore, List.drop_left, List.take_length]

private theorem signedBytes_created {instructions : List SolanaInstruction}
    {key : Pubkey} {signature message : List U8}
    (hsignature : signature.length = 64) (hmessage : message.length < 2 ^ 16) :
    signedBytes instructions
        (createInstructionWithPublicKey key signature message).data =
      some [⟨keyBytes key, signature, message⟩] := by
  have hcount : (createInstructionWithPublicKey key signature message).data[0]? =
      some 1 := rfl
  have hone : (1 : U8).toNat = 1 := rfl
  have hzero : ¬ (1 : U8) = 0 := by decide
  simp only [signedBytes, Option.bind_eq_bind, hcount, Option.bind_some, hone,
    hzero, false_and, if_false, List.range_one, List.mapM_cons, List.mapM_nil,
    Nat.mul_zero, Nat.add_zero, readHeader_created hsignature hmessage,
    Option.pure_def]

section

variable {T : Type} [DeserializeMessage T] [BaseMsg T]
  {signDetached : SignDetached} {msg : T} {members : List Pubkey}

def memberSignatures (signDetached : SignDetached) (msg : T)
    (members : List Pubkey) : List CommitteeSignature :=
  members.map fun key =>
    ⟨encodeMessage msg, signDetached key (encodeMessage msg), key⟩

private theorem createSignature_eq (hserialize : BaseMsg.serialize msg =
    some (encodeMessage msg)) (key : Pubkey) :
    createSignature signDetached msg key = some
      ⟨encodeMessage msg, signDetached key (encodeMessage msg), key⟩ := by
  rw [createSignature, hserialize]
  rfl

theorem createSignatures_eq (hserialize : BaseMsg.serialize msg =
    some (encodeMessage msg)) (members : List Pubkey) :
    members.mapM (createSignature signDetached msg) =
      some (memberSignatures signDetached msg members) := by
  induction members with
  | nil => rfl
  | cons key members ih =>
      rw [List.mapM_cons, createSignature_eq hserialize, ih]
      rfl

omit [BaseMsg T] in
theorem signedByMembers_client (members : List Pubkey)
    (rest : List SolanaInstruction) :
    SignedByMembers (setComputeUnitLimit 10000000 ::
      ixEd25519Programs (memberSignatures signDetached msg members) ++ rest) msg
        members := by
  rw [SignedByMembers, List.forall₂_iff_get]
  refine ⟨List.length_range', fun i _ hi => ?_⟩
  refine ⟨(signDetached members[i] (encodeMessage msg)).toList, by simp, ?_⟩
  simp only [List.get_eq_getElem, List.getElem_range', ixEd25519Programs,
    memberSignatures, List.map_map, Nat.one_mul, Nat.add_comm 1 i,
    List.cons_append, List.getElem?_cons_succ]
  rw [List.getElem?_append_left (by simpa using hi)]
  simp [hi]

def SignaturesVerify (verifies : SignedBytes → Bool)
    (signDetached : SignDetached) (msg : T) (members : List Pubkey) : Prop :=
  ∀ key ∈ members, verifies ⟨keyBytes key,
    (signDetached key (encodeMessage msg)).toList, encodeMessage msg⟩ = true

omit [BaseMsg T] in
theorem precompile_accepts_iff (verifies : SignedBytes → Bool)
    (instructions : List SolanaInstruction)
    (hmessage : (encodeMessage msg).length < 2 ^ 16) :
    (∀ ix ∈ setComputeUnitLimit 10000000 ::
        ixEd25519Programs (memberSignatures signDetached msg members),
      ix.programId = ed25519ProgramId →
        PrecompileAccepts verifies instructions ix.data) ↔
      SignaturesVerify verifies signDetached msg members := by
  have hbudget : (setComputeUnitLimit 10000000).programId ≠ ed25519ProgramId := by
    decide
  have hcreated : ∀ key : Pubkey,
      PrecompileAccepts verifies instructions (createInstructionWithPublicKey key
        (signDetached key (encodeMessage msg)).toList (encodeMessage msg)).data ↔
      verifies ⟨keyBytes key, (signDetached key (encodeMessage msg)).toList,
        encodeMessage msg⟩ = true := by
    intro key
    have hsigned : signedBytes instructions (createInstructionWithPublicKey key
        (signDetached key (encodeMessage msg)).toList (encodeMessage msg)).data =
        some [⟨keyBytes key, (signDetached key (encodeMessage msg)).toList,
          encodeMessage msg⟩] :=
      signedBytes_created (by simp) hmessage
    simp [PrecompileAccepts, hsigned]
  simp only [List.forall_mem_cons, hbudget, false_implies, true_and,
    ixEd25519Programs, memberSignatures, List.map_map, List.forall_mem_map,
    Function.comp_apply, SignaturesVerify]
  refine forall₂_congr fun key _ => ?_
  rw [← hcreated key]
  exact ⟨fun h => h rfl, fun h _ => h⟩

end

end SolBtcBridge.Properties
