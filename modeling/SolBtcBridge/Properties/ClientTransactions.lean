import SolBtcBridge.Properties.ClientSignatures
import SolBtcBridge.Properties.LimitAcceptance
import SolBtcBridge.Properties.MintAcceptance
import SolBtcBridge.Properties.WithdrawAcceptance

/-!
# Transactions of the client, end to end

A transaction of the client carries every account that the handler looks for
and every signature where the verifier and the precompile expect it.  Whether
it lands is up to the state, the committee and the signatures.
-/

namespace SolBtcBridge.Properties

open SolBtcBridge.Foundation
open SolBtcBridge.Runtime
open SolBtcBridge.Program
open SolBtcBridge.Effects

private theorem numberOfSignatures_eq_some {members : List Pubkey} {n : U8} :
    numberOfSignatures members = some n ↔ members.length = n.toNat := by
  unfold numberOfSignatures
  split
  · rename_i hlt
    rw [Option.some.injEq, ← BitVec.toNat_inj, BitVec.toNat_ofNat,
      Nat.mod_eq_of_lt hlt]
  · rename_i hge
    have hn := n.isLt
    simp only [reduceCtorEq, false_iff]
    omega

private theorem committeePda_mem {members : List Pubkey} {others : List Address}
    {key : Pubkey} (h : key ∈ members) :
    (Pda.committee key).address ∈ members.map getCommitteePda ++ others :=
  List.mem_append_left _ (List.mem_map_of_mem h)

section

variable {signDetached : SignDetached} {submitter : Pubkey}
  {members : List Pubkey} {tx : ClientTransaction}

theorem mintSBtc_eq_some {msg : MintSbtcMessage}
    (hserialize : BaseMsg.serialize msg = some (encodeMessage msg)) :
    mintSBtc signDetached submitter members msg = some tx ↔
      ∃ n : U8, members.length = n.toNat ∧
        tx = MintSbtcMessageTxnDetails.createTx
          { signatures := memberSignatures signDetached msg members
            msg := msg
            numberOfSignatures := n
            submitter := submitter
            committeePdas := members.map getCommitteePda
            sbtcMint := (Pda.sbtcMint msg.toChainId).address
            userSbtcAta := getAssociatedTokenAddress msg.toAddress
              (Pda.sbtcMint msg.toChainId).address
            user := msg.toAddress } := by
  simp only [mintSBtc, createSignatures_eq hserialize, Option.bind_eq_bind,
    Option.bind_some, Option.bind_eq_some_iff, numberOfSignatures_eq_some,
    Option.pure_def, Option.some.injEq, eq_comm (a := tx)]

theorem updateLimiterTx_eq_some {msg : UpdateLimiterMsg} :
    updateLimiterTx signDetached submitter members msg = some tx ↔
      ∃ n : U8, members.length = n.toNat ∧
        tx = UpdateLimiterMsgTxnDetails.createTx
          { signatures := memberSignatures signDetached msg members
            msg := msg
            numberOfSignatures := n
            submitter := submitter
            committeePdas := members.map getCommitteePda } := by
  simp only [updateLimiterTx,
    createSignatures_eq (serialize_updateLimiterMsg msg), Option.bind_eq_bind,
    Option.bind_some, Option.bind_eq_some_iff, numberOfSignatures_eq_some,
    Option.pure_def, Option.some.injEq, eq_comm (a := tx)]

end

/-! ## Landing -/

section

variable {host : Host} {L : Ledger} {verifies : SignedBytes → Bool}
  {signDetached : SignDetached} {submitter : Pubkey} {members : List Pubkey}
  {n : U8} {others : List SolanaInstruction} {unixTimestamp : Int}

private theorem mint_admissible_iff {msg : MintSbtcMessage} (hwf : WellFormed L)
    (hlength : msg.fromAddress.length < 2 ^ 32)
    (hcount : members.length = n.toNat) :
    MintAdmissible L
        ⟨members.map getCommitteePda ++
          [(Pda.sbtcMint msg.toChainId).address,
            getAssociatedTokenAddress msg.toAddress
              (Pda.sbtcMint msg.toChainId).address, .wallet msg.toAddress],
          setComputeUnitLimit 10000000 ::
            ixEd25519Programs (memberSignatures signDetached msg members) ++
              others, unixTimestamp⟩ submitter n msg ↔
      MintOpen L unixTimestamp submitter msg ∧
        Operation.tryFrom (messageType msg) = some .tokenTransfer ∧
        Quorate L .tokenTransfer members := by
  have hvalid := valid_mintSbtcMessage.mpr hlength
  have hsigned : SignedByMembers (setComputeUnitLimit 10000000 ::
      ixEd25519Programs (memberSignatures signDetached msg members) ++ others) msg
      members := signedByMembers_client members others
  constructor
  · intro h
    have happroved := (approved_iff_quorate hwf hvalid hcount
      (fun key hkey => committeePda_mem hkey) hsigned).mp h.approved
    exact ⟨h.toMintOpen, happroved.1, happroved.2.2⟩
  · rintro ⟨hopen, hop, hquorate⟩
    exact
      { toMintOpen := hopen
        approved := (approved_iff_quorate hwf hvalid hcount
          (fun key hkey => committeePda_mem hkey) hsigned).mpr
            ⟨hop, rfl, hquorate⟩
        user := by simp
        userSbtcAta := by simp
        sbtcMint := by simp }

private theorem limit_admissible_iff {msg : UpdateLimiterMsg}
    (hwf : WellFormed L) (hcount : members.length = n.toNat) :
    LimitAdmissible L
        ⟨members.map getCommitteePda,
          setComputeUnitLimit 10000000 ::
            ixEd25519Programs (memberSignatures signDetached msg members) ++
              others, unixTimestamp⟩ submitter n msg ↔
      LimitOpen L submitter msg ∧
        Operation.tryFrom (messageType msg) = some .updateBridgeLimit ∧
        msg.nonce.toNat = counter .updateBridgeLimit L ∧
        Quorate L .updateBridgeLimit members := by
  have hvalid := valid_updateLimiterMsg msg
  have hsigned : SignedByMembers (setComputeUnitLimit 10000000 ::
      ixEd25519Programs (memberSignatures signDetached msg members) ++ others) msg
      members := signedByMembers_client members others
  have hlisted : ∀ key ∈ members,
      (Pda.committee key).address ∈ members.map getCommitteePda :=
    fun key hkey => List.mem_map_of_mem hkey
  have hnonce : ∀ r : Nonces,
      L.Provides (Pda.operationNonce .updateBridgeLimit).address r →
        (nonceEqual r (HasMessageType.nonce msg) = true ↔
          msg.nonce.toNat = counter .updateBridgeLimit L) := by
    intro r hr
    rw [counter_of_provides hr, BitVec.toNat_inj, eq_comm (a := msg.nonce)]
    exact decide_eq_true_iff
  constructor
  · intro h
    rcases h.approved with ⟨r, hr, happroved⟩
    rcases (approved_iff_quorate hwf hvalid hcount hlisted hsigned).mp happroved
      with ⟨hop, hequal, hquorate⟩
    exact ⟨h.toLimitOpen, hop, (hnonce r hr).mp hequal, hquorate⟩
  · rintro ⟨hopen, hop, hequal, hquorate⟩
    rcases Ledger.Keeps.initIfNeeded_isOk
      (hwf (.operationNonce .updateBridgeLimit)) with ⟨_, r, -, hr, -⟩
    exact
      { toLimitOpen := hopen
        approved := ⟨r, hr,
          (approved_iff_quorate hwf hvalid hcount hlisted hsigned).mpr
            ⟨hop, (hnonce r hr).mpr hequal, hquorate⟩⟩ }

theorem withdraw_admissible_iff {user feeRecipient : Pubkey}
    {msg : WithdrawBtcMessage} :
    (∃ recipient, WithdrawAdmissible L
        ⟨members.map getCommitteePda ++
          [(Pda.sbtcMint msg.chainId).address,
            getAssociatedTokenAddress user (Pda.sbtcMint msg.chainId).address,
            .wallet user,
            getAssociatedTokenAddress feeRecipient
              (Pda.sbtcMint msg.chainId).address, .wallet feeRecipient],
          others, unixTimestamp⟩ user msg recipient) ↔
      WithdrawOpen L user msg feeRecipient := by
  constructor
  · rintro ⟨recipient, h⟩
    have hne : recipient ≠ user := h.fromUser ▸ h.notRecipient.symm
    have hlisted := h.recipient
    simp only [List.mem_append, List.mem_map, getCommitteePda, Pda.address,
      getAssociatedTokenAddress, List.mem_cons, List.not_mem_nil, reduceCtorEq,
      and_false, exists_false, Address.wallet.injEq, hne, or_false,
      false_or] at hlisted
    rw [← hlisted]
    exact h.toWithdrawOpen
  · intro h
    exact ⟨feeRecipient,
      { toWithdrawOpen := h
        userSbtcAta := by simp [userSbtcAta, h.fromUser]
        recipient := by simp
        recipientSbtcAta := by simp
        sbtcMint := by simp }⟩

variable (verifies) in
theorem mintSBtc_lands_of {msg : MintSbtcMessage} (hcon : Consistent host L)
    (hsize : (encodeMessage msg).length < 2 ^ 16)
    (hopen : MintOpen L unixTimestamp submitter msg)
    (hop : Operation.tryFrom (messageType msg) = some .tokenTransfer)
    (hquorate : Quorate L .tokenTransfer members)
    (hverify : SignaturesVerify verifies signDetached msg members)
    (instruction : SolanaInstruction) :
    ∃ tx, mintSBtc signDetached submitter members msg = some tx ∧
      tx.Lands host verifies L instruction unixTimestamp := by
  have hlength : msg.fromAddress.length < 2 ^ 32 := by
    rw [length_encode_mintSbtcMessage] at hsize
    omega
  have hcount : members.length = (BitVec.ofNat 8 members.length).toNat := by
    have hlt := hquorate.count.2
    rw [BitVec.toNat_ofNat, Nat.mod_eq_of_lt (by omega)]
  refine ⟨_, (mintSBtc_eq_some (serialize_mintSbtcMessage msg hlength)).mpr
    ⟨_, hcount, rfl⟩, ?_, ?_⟩
  · exact (precompile_accepts_iff verifies _ hsize).mpr hverify
  · exact mint_isOk_of_admissible hcon
      ((mint_admissible_iff hcon.wellFormed hlength hcount).mpr
        ⟨hopen, hop, hquorate⟩)

variable (verifies) in
theorem updateLimiterTx_lands_of {msg : UpdateLimiterMsg} (hwf : WellFormed L)
    (hopen : LimitOpen L submitter msg)
    (hop : Operation.tryFrom (messageType msg) = some .updateBridgeLimit)
    (hnonce : msg.nonce.toNat = counter .updateBridgeLimit L)
    (hquorate : Quorate L .updateBridgeLimit members)
    (hverify : SignaturesVerify verifies signDetached msg members)
    (instruction : SolanaInstruction) (unixTimestamp : Int) :
    ∃ tx, updateLimiterTx signDetached submitter members msg = some tx ∧
      tx.Lands host verifies L instruction unixTimestamp := by
  have hsize : (encodeMessage msg).length < 2 ^ 16 := by
    rw [length_encode_updateLimiterMsg]
    decide
  have hcount : members.length = (BitVec.ofNat 8 members.length).toNat := by
    have hlt := hquorate.count.2
    rw [BitVec.toNat_ofNat, Nat.mod_eq_of_lt (by omega)]
  refine ⟨_, updateLimiterTx_eq_some.mpr ⟨_, hcount, rfl⟩, ?_, ?_⟩
  · exact (precompile_accepts_iff verifies _ hsize).mpr hverify
  · exact limit_isOk_of_admissible hwf
      ((limit_admissible_iff hwf hcount).mpr ⟨hopen, hop, hnonce, hquorate⟩)

variable (verifies) in
theorem withdrawBtcTx_lands_of {user feeRecipient : Pubkey}
    {msg : WithdrawBtcMessage} (hcon : Consistent host L)
    (h : WithdrawOpen L user msg feeRecipient) (members : List Pubkey)
    (instruction : SolanaInstruction) (unixTimestamp : Int) :
    (withdrawBtcTx members user feeRecipient msg).Lands host verifies L
      instruction unixTimestamp := by
  rcases withdraw_admissible_iff.mpr h with ⟨recipient, hadmissible⟩
  refine ⟨?_, withdraw_isOk_of_admissible hcon hadmissible⟩
  intro ix hix heq
  rw [List.mem_singleton.mp hix] at heq
  exact absurd heq (by decide)

end

def sampleSignDetached : SignDetached :=
  fun _ _ => ⟨sampleMintSignature.toArray, by decide +kernel⟩

def sampleChecks (entry : SignedBytes) : Bool :=
  entry = ⟨keyBytes sampleMember, sampleMintSignature,
    encodeMessage sampleMintMessage⟩

/-- For a limiter update the message must also carry the current counter. -/
theorem updateLimiterTx_lands_iff (host : Host) (inputs : List Input)
    (verifies : SignedBytes → Bool) (signDetached : SignDetached)
    (submitter : Pubkey) (members : List Pubkey) (msg : UpdateLimiterMsg)
    (instruction : SolanaInstruction) (unixTimestamp : Int) :
    (∃ tx, updateLimiterTx signDetached submitter members msg = some tx ∧
      tx.Lands host verifies (execute host inputs).state instruction
        unixTimestamp) ↔
    LimitOpen (execute host inputs).state submitter msg ∧
      Operation.tryFrom (messageType msg) = some .updateBridgeLimit ∧
      msg.nonce.toNat =
        counter .updateBridgeLimit (execute host inputs).state ∧
      Quorate (execute host inputs).state .updateBridgeLimit members ∧
      SignaturesVerify verifies signDetached msg members := by
  have hwf := execute_wellFormed host inputs
  have hsize : (encodeMessage msg).length < 2 ^ 16 := by
    rw [length_encode_updateLimiterMsg]
    decide
  constructor
  · rintro ⟨tx, hbuild, hprecompile, ⟨L', events⟩, hstep⟩
    rcases updateLimiterTx_eq_some.mp hbuild with ⟨n, hcount, rfl⟩
    rcases (limit_admissible_iff hwf hcount).mp
      (admissible_of_limit_ok hwf hstep) with ⟨hopen, hop, hnonce, hquorate⟩
    exact ⟨hopen, hop, hnonce, hquorate,
      (precompile_accepts_iff verifies _ hsize).mp hprecompile⟩
  · rintro ⟨hopen, hop, hnonce, hquorate, hverify⟩
    exact updateLimiterTx_lands_of verifies hwf hopen hop hnonce hquorate hverify
      instruction unixTimestamp

/-- A withdrawal of the client needs the bridge's own recipient, and no signatures. -/
theorem withdrawBtcTx_lands_iff (host : Host) (inputs : List Input)
    (verifies : SignedBytes → Bool) (members : List Pubkey)
    (user feeRecipient : Pubkey) (msg : WithdrawBtcMessage)
    (instruction : SolanaInstruction) (unixTimestamp : Int) :
    (withdrawBtcTx members user feeRecipient msg).Lands host verifies
        (execute host inputs).state instruction unixTimestamp ↔
      WithdrawOpen (execute host inputs).state user msg feeRecipient := by
  have hcon := execute_consistent host inputs
  constructor
  · rintro ⟨-, ⟨L', events⟩, hstep⟩
    exact withdraw_admissible_iff.mp (admissible_of_withdraw_ok hcon hstep)
  · intro h
    exact withdrawBtcTx_lands_of verifies hcon h members instruction unixTimestamp

end SolBtcBridge.Properties
