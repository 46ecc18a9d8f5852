import SolBtcBridge.Program.Verify
import SolBtcBridge.Runtime.Storage
import Mathlib.Data.List.Forall2
import Mathlib.Data.List.Nodup

/-!
# What verification establishes

The signature loop succeeds exactly when it can be explained by one approval
for each instruction: a signer, and the committee record found at the address
derived from that signer.  The stake it returns is the integer sum over the
approvals, because every addition is checked.
-/

namespace SolBtcBridge.Effects

open SolBtcBridge.Foundation
open SolBtcBridge.Runtime
open SolBtcBridge.Program

theorem findAtaInAccounts_eq_some {accounts : List Address} {key a : Address} :
    findAtaInAccounts accounts key = some a ↔ a = key ∧ key ∈ accounts := by
  unfold findAtaInAccounts
  constructor
  · intro h
    have hkey : a = key := by simpa using List.find?_some h
    exact ⟨hkey, hkey ▸ List.mem_of_find?_eq_some h⟩
  · rintro ⟨rfl, hmem⟩
    have hsome : (accounts.find? fun account => account = a).isSome := by
      rw [List.find?_isSome]
      exact ⟨a, hmem, by simp⟩
    rcases Option.isSome_iff_exists.mp hsome with ⟨b, hb⟩
    have hb' : b = a := by simpa using List.find?_some hb
    rw [hb, hb']

private theorem getCommiteeAccount_eq_ok {accounts : List Address}
    {key : Pubkey} {a : Address} :
    getCommiteeAccount accounts key = .ok a ↔
      a = (Pda.committee key).address ∧ (Pda.committee key).address ∈ accounts := by
  rw [getCommiteeAccount, orFail_eq_ok, findAtaInAccounts_eq_some]

private theorem readCommittee_congr {account account' : Account}
    (h : account'.body = account.body) :
    readCommittee account' = readCommittee account := by
  simp only [readCommittee, borrowData, h]

private theorem readCommittee_eq_ok {account : Account} {record : Committee} :
    readCommittee account = .ok record ↔
      anchorHeaderLen ≤ (borrowData account).length ∧
        (borrowData account).drop anchorHeaderLen =
          Committee.codec.encode record := by
  simp only [readCommittee, bind_eq_ok, orFail_eq_ok, sliceOrPanic,
    Codec.tryFromSlice_eq_some]
  have hvalid : Committee.codec.Valid record :=
    (AnchorAccount.codec_fixedSize record).1
  constructor
  · rintro ⟨fields, hslice, -, rfl⟩
    split at hslice
    · rename_i hle
      rw [List.take_length] at hslice
      exact ⟨hle.1, Except.ok.inj hslice⟩
    · contradiction
  · rintro ⟨hle, hdrop⟩
    exact ⟨_, by rw [if_pos ⟨hle, le_rfl⟩, List.take_length], hvalid, hdrop⟩

theorem readCommittee_of_keeps {L : Ledger} {a : Address}
    {P : Committee → Prop} (h : L.Keeps a P) {record : Committee} :
    readCommittee (L a) = .ok record ↔ L.Stores a record := by
  rw [readCommittee_eq_ok]
  constructor
  · rintro ⟨hle, hdrop⟩
    rcases h with hvacant | ⟨stored, hstored, -⟩
    · rw [Ledger.Vacant] at hvacant
      simp [borrowData, hvacant, anchorHeaderLen] at hle
    · have hdata : borrowData (L a) = image stored ++ [] := by
        rw [borrowData, hstored, List.append_nil]
      rw [hdata, drop_header_image, List.append_nil] at hdrop
      have heq := Codec.encode_injective _
        (AnchorAccount.codec_fixedSize stored).1
        (AnchorAccount.codec_fixedSize record).1 hdrop
      rwa [← heq]
  · intro hstored
    have hdata : borrowData (L a) = image record ++ [] := by
      rw [borrowData, hstored, List.append_nil]
    rw [hdata, drop_header_image, List.append_nil, List.append_nil,
      length_image]
    exact ⟨AnchorAccount.header_le_len, rfl⟩

theorem code_le_one_iff {code : U8} : code.toNat ≤ 1 ↔ code = 0 ∨ code = 1 := by
  constructor
  · intro h
    have hcode : code.toNat = 0 ∨ code.toNat = 1 := by omega
    rcases hcode with hzero | hone
    · exact .inl (BitVec.eq_of_toNat_eq hzero)
    · exact .inr (BitVec.eq_of_toNat_eq hone)
  · rintro (rfl | rfl)
    · decide
    · decide

theorem decodeEmergencyOpPayload_eq_ok {payload : List U8} {freeze : Bool} :
    decodeEmergencyOpPayload payload = .ok freeze ↔
      payload = [0] ∧ freeze = true ∨ payload = [1] ∧ freeze = false := by
  constructor
  · intro h
    unfold decodeEmergencyOpPayload at h
    split at h
    · split at h
      · contradiction
      · rename_i code hle
        rw [Except.ok.injEq] at h
        rcases code_le_one_iff.mp (Nat.not_lt.mp hle) with rfl | rfl
        · exact .inl ⟨rfl, h.symm⟩
        · exact .inr ⟨rfl, h.symm⟩
    · contradiction
  · rintro (⟨rfl, rfl⟩ | ⟨rfl, rfl⟩)
    · rfl
    · rfl

/-- What the code asks for an operation whose payload, if it needs one, decodes. -/
def grantedStake : Operation → U16
  | .tokenTransfer => transferStakeRequired
  | .blocklist => blocklistStakeRequired
  | .emergencyOp => freezingStakeRequired
  | .updateBridgeLimit => bridgeLimitStakeRequired
  | .updateTokenPrice => updateTokenPriceStakeRequired
  | .upgrade => upgradeStakeRequired
  | .addEvmTokens => addEvmTokensStakeRequired
  | .updateChainId => updateChainidStakeRequired

theorem requiredStake_eq_ok {T : Type} [HasMessageType T] [HasPayload T]
    {message : T} {stake : U16} :
    requiredStake message = .ok stake ↔
      ∃ op, Operation.tryFrom (messageType message) = some op ∧
        (op = .emergencyOp → payload message = [0] ∨ payload message = [1]) ∧
        stake = grantedStake op := by
  simp only [requiredStake, bind_eq_ok, orFail_eq_ok]
  refine exists_congr fun op => and_congr_right fun _ => ?_
  cases op with
  | emergencyOp =>
      simp only [if_true, bind_eq_ok, pure_eq_ok, exists_and_right,
        decodeEmergencyOpPayload_eq_ok, grantedStake, forall_const]
      refine and_congr ?_ eq_comm
      constructor
      · rintro ⟨freeze, ⟨hpayload, -⟩ | ⟨hpayload, -⟩⟩
        · exact .inl hpayload
        · exact .inr hpayload
      · rintro (hpayload | hpayload)
        · exact ⟨true, .inl ⟨hpayload, rfl⟩⟩
        · exact ⟨false, .inr ⟨hpayload, rfl⟩⟩
  | _ => simp [pure_eq_ok, grantedStake, @eq_comm U16 stake]

theorem requiredStake_accepted {T : Type} [HasMessageType T] [HasPayload T]
    (message : T) :
    (∃ stake, requiredStake message = .ok stake) ↔
      ∃ op, Operation.tryFrom (messageType message) = some op ∧
        (op = .emergencyOp → payload message = [0] ∨ payload message = [1]) := by
  simp only [requiredStake_eq_ok]
  constructor
  · rintro ⟨stake, op, hop, hpayload, -⟩
    exact ⟨op, hop, hpayload⟩
  · rintro ⟨op, hop, hpayload⟩
    exact ⟨grantedStake op, op, hop, hpayload, rfl⟩

/-! ## The signature loop -/

structure Approval where
  signer : Pubkey
  record : Committee

def approvedStake (approvals : List Approval) : Nat :=
  (approvals.map fun a => a.record.stakeAmount.toNat).sum

section

variable {T : Type} [DecidableEq T] [HasMessageType T] [DeserializeMessage T]
  {F : Type} [NoncesTrait F]

structure Approves (accounts : List Address) (L : Ledger)
    (instructions : List SolanaInstruction) (msg : T) (op : Operation)
    (nonceConfig : F) (index : Nat) (approval : Approval) : Prop where
  resolved : resolveEd25519WithIndex instructions index msg = .ok approval.signer
  operation : Operation.tryFrom (messageType msg) = some op
  nonce : nonceEqual nonceConfig (HasMessageType.nonce msg) = true
  listed : (Pda.committee approval.signer).address ∈ accounts
  record : readCommittee (L (Pda.committee approval.signer).address) =
    .ok approval.record
  notBlocklisted : approval.record.isBlocklisted = false
  isInitialized : approval.record.isInitialized = true

variable {accounts : List Address} {L : Ledger}
  {instructions : List SolanaInstruction} {msg : T} {op : Operation}
  {nonceConfig : F}

private theorem verifySigner_eq_ok {index : Nat} {seen seen' : List Pubkey}
    {stake stake' : U16} :
    verifySigner accounts L instructions msg op nonceConfig index seen stake =
        .ok (seen', stake') ↔
      ∃ approval, Approves accounts L instructions msg op nonceConfig index
          approval ∧ approval.record.index ∉ seen ∧
        seen' = approval.record.index :: seen ∧
        stake'.toNat = stake.toNat + approval.record.stakeAmount.toNat := by
  simp only [verifySigner, bind_eq_ok, require_eq_ok, pure_eq_ok,
    addOrPanic_eq_ok, getCommiteeAccount_eq_ok, exists_and_left, exists_const,
    Prod.mk.injEq]
  constructor
  · rintro ⟨signer, hresolved, hop, hnonce, _, ⟨rfl, hlisted⟩, record, hrecord,
      ⟨hblock, hinit⟩, hseen, total, htotal, rfl, rfl⟩
    exact ⟨⟨signer, record⟩, ⟨hresolved, hop, hnonce, hlisted, hrecord,
      by simpa using hblock, hinit⟩, hseen, rfl, htotal⟩
  · rintro ⟨approval, h, hseen, rfl, htotal⟩
    exact ⟨_, h.resolved, h.operation, h.nonce, _, ⟨rfl, h.listed⟩, _,
      h.record, ⟨by simp [h.notBlocklisted], h.isInitialized⟩, hseen, _,
      htotal, rfl, rfl⟩

private theorem verifyLoop_eq_ok {indices : List Nat} {seen : List Pubkey}
    {stake total : U16} :
    verifyLoop accounts L instructions msg op nonceConfig indices seen stake =
        .ok total ↔
      ∃ approvals, List.Forall₂
          (Approves accounts L instructions msg op nonceConfig) indices
          approvals ∧
        (approvals.map fun a => a.record.index).Nodup ∧
        (∀ a ∈ approvals, a.record.index ∉ seen) ∧
        total.toNat = stake.toNat + approvedStake approvals := by
  induction indices generalizing seen stake with
  | nil =>
      simp only [verifyLoop, Except.ok.injEq, List.forall₂_nil_left_iff,
        exists_eq_left, approvedStake, List.map_nil, List.nodup_nil,
        List.not_mem_nil, false_implies, implies_true, List.sum_nil,
        Nat.add_zero, true_and]
      exact ⟨fun h => h ▸ rfl, fun h => (BitVec.eq_of_toNat_eq h).symm⟩
  | cons index indices ih =>
      simp only [verifyLoop, bind_eq_ok, Prod.exists, verifySigner_eq_ok, ih]
      constructor
      · rintro ⟨_, stake', ⟨first, hfirst, hnew, rfl, hstake⟩, rest, hrest,
          hnodup, hseen, htotal⟩
        refine ⟨first :: rest, .cons hfirst hrest, ?_, ?_, ?_⟩
        · rw [List.map_cons, List.nodup_cons]
          refine ⟨?_, hnodup⟩
          rw [List.mem_map]
          rintro ⟨a, ha, heq⟩
          exact hseen a ha (by simp [heq])
        · intro a ha
          rcases List.mem_cons.mp ha with rfl | ha
          · exact hnew
          · exact fun hmem => hseen a ha (List.mem_cons_of_mem _ hmem)
        · simp only [approvedStake, List.map_cons, List.sum_cons] at htotal ⊢
          omega
      · rintro ⟨approvals, hforall, hnodup, hseen, htotal⟩
        cases hforall with
        | @cons _ first _ rest hfirst hrest =>
            rw [List.map_cons, List.nodup_cons] at hnodup
            simp only [approvedStake, List.map_cons, List.sum_cons] at htotal
            have hfits : stake.toNat + first.record.stakeAmount.toNat < 2 ^ 16 := by
              have hlt := total.isLt
              omega
            refine ⟨_, stake + first.record.stakeAmount,
              ⟨first, hfirst, hseen first List.mem_cons_self, rfl,
                BitVec.toNat_add_of_lt hfits⟩, rest, hrest, hnodup.2, ?_, ?_⟩
            · intro a ha hmem
              rcases List.mem_cons.mp hmem with heq | hmem
              · exact hnodup.1 (List.mem_map.mpr ⟨a, ha, heq⟩)
              · exact hseen a (List.mem_cons_of_mem _ ha) hmem
            · rw [BitVec.toNat_add_of_lt hfits, approvedStake]
              omega

/-- A key that verification looks up: some instruction resolves to it. -/
def IsSigner (instructions : List SolanaInstruction) (numberOfSignatures : U8)
    (msg : T) (key : Pubkey) : Prop :=
  ∃ index ∈ List.range' 1 numberOfSignatures.toNat,
    resolveEd25519WithIndex instructions index msg = .ok key

private theorem verifySigner_congr {L' : Ledger} {index : Nat}
    (h : ∀ key, resolveEd25519WithIndex instructions index msg = .ok key →
      (L' (Pda.committee key).address).body =
        (L (Pda.committee key).address).body) (seen : List Pubkey)
    (stake : U16) :
    verifySigner accounts L' instructions msg op nonceConfig index seen stake =
      verifySigner accounts L instructions msg op nonceConfig index seen
        stake := by
  simp only [verifySigner]
  refine bind_congr_ok fun signer hresolved => bind_congr fun _ =>
    bind_congr fun _ => bind_congr_ok fun a haccount => ?_
  rcases getCommiteeAccount_eq_ok.mp haccount with ⟨rfl, -⟩
  rw [readCommittee_congr (h signer hresolved)]

private theorem verifyLoop_congr {L' : Ledger} {indices : List Nat}
    (h : ∀ index ∈ indices, ∀ key,
      resolveEd25519WithIndex instructions index msg = .ok key →
        (L' (Pda.committee key).address).body =
          (L (Pda.committee key).address).body) (seen : List Pubkey)
    (stake : U16) :
    verifyLoop accounts L' instructions msg op nonceConfig indices seen stake =
      verifyLoop accounts L instructions msg op nonceConfig indices seen
        stake := by
  induction indices generalizing seen stake with
  | nil => rfl
  | cons index indices ih =>
      have htail := ih fun index' hindex' =>
        h index' (List.mem_cons_of_mem index hindex')
      simp only [verifyLoop, htail,
        verifySigner_congr (h index List.mem_cons_self)]

variable [HasPayload T]

/-- Verification succeeds exactly when enough distinct members approve. -/
theorem verify_eq_ok {numberOfSignatures : U8} {nonceConfig' : F} :
    verify accounts L instructions numberOfSignatures msg op nonceConfig =
        .ok nonceConfig' ↔
      (1 ≤ numberOfSignatures.toNat ∧ numberOfSignatures.toNat < 255) ∧
      incrementNonce nonceConfig = .ok nonceConfig' ∧
      ∃ approvals, List.Forall₂
          (Approves accounts L instructions msg op nonceConfig)
          (List.range' 1 numberOfSignatures.toNat) approvals ∧
        (approvals.map fun a => a.record.index).Nodup ∧
        approvedStake approvals < 2 ^ 16 ∧
        ∃ required, requiredStake msg = .ok required ∧
          required.toNat ≤ approvedStake approvals := by
  simp only [verify, bind_eq_ok, require_eq_ok, pure_eq_ok, addOrPanic_eq_ok,
    verifyLoop_eq_ok, exists_and_left, exists_const]
  constructor
  · rintro ⟨hone, stop, hstop, total, ⟨approvals, hforall, hnodup, -, htotal⟩,
      _, hnonce, required, hrequired, hle, rfl⟩
    have hone' : (1 : U8).toNat = 1 := rfl
    have hstopLt := stop.isLt
    have htotalLt := total.isLt
    have hzero : (0 : U16).toNat = 0 := rfl
    rw [hone'] at hstop
    rw [hstop, Nat.add_sub_cancel] at hforall
    rw [hzero, Nat.zero_add] at htotal
    exact ⟨⟨hone, by omega⟩, hnonce, approvals, hforall, hnodup, by omega,
      required, hrequired, by omega⟩
  · rintro ⟨⟨hone, hlt⟩, hnonce, approvals, hforall, hnodup, hfits, required,
      hrequired, hle⟩
    have hstop : numberOfSignatures.toNat + (1 : U8).toNat < 2 ^ 8 := by
      have hone' : (1 : U8).toNat = 1 := rfl
      omega
    have htotal : (BitVec.ofNat 16 (approvedStake approvals)).toNat =
        approvedStake approvals := by
      rw [BitVec.toNat_ofNat, Nat.mod_eq_of_lt hfits]
    refine ⟨hone, numberOfSignatures + 1, BitVec.toNat_add_of_lt hstop,
      BitVec.ofNat 16 (approvedStake approvals),
      ⟨approvals, ?_, hnodup, ?_, ?_⟩, nonceConfig', hnonce, required,
      hrequired, by rw [htotal]; exact hle, rfl⟩
    · rw [BitVec.toNat_add_of_lt hstop]
      exact hforall
    · simp
    · rw [htotal]
      simp

theorem verify_congr {L' : Ledger} {numberOfSignatures : U8}
    (h : ∀ key, IsSigner instructions numberOfSignatures msg key →
      (L' (Pda.committee key).address).body =
        (L (Pda.committee key).address).body) :
    verify accounts L' instructions numberOfSignatures msg op nonceConfig =
      verify accounts L instructions numberOfSignatures msg op nonceConfig := by
  simp only [verify]
  refine bind_congr fun _ => bind_congr_ok fun stop hstop => ?_
  have hindices : stop.toNat - 1 = numberOfSignatures.toNat := by
    have hone : (1 : U8).toNat = 1 := rfl
    rw [addOrPanic_eq_ok.mp hstop, hone, Nat.add_sub_cancel]
  have hsigners : ∀ index ∈ List.range' 1 numberOfSignatures.toNat, ∀ key,
      resolveEd25519WithIndex instructions index msg = .ok key →
        (L' (Pda.committee key).address).body =
          (L (Pda.committee key).address).body :=
    fun index hindex key hkey => h key ⟨index, hindex, hkey⟩
  rw [hindices, verifyLoop_congr hsigners]

end

end SolBtcBridge.Effects
