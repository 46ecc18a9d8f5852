import SolBtcBridge.Program.Sdk

/-!
# The signed message format

The client and the program describe each message by a field list of their own.
Both lists produce the same bytes, and the two message types never share an
encoding.
-/

namespace SolBtcBridge.Properties

open SolBtcBridge.Foundation
open SolBtcBridge.Runtime
open SolBtcBridge.Program

theorem serialize_mintSbtcMessage (msg : MintSbtcMessage)
    (h : msg.fromAddress.length < 2 ^ 32) :
    BaseMsg.serialize msg = some (encodeMessage msg) := by
  have hfields : BaseMsg.serialize msg =
      some (Codec.u8.encode msg.messageType ++ (Codec.u8.encode msg.version ++
        (Codec.u64.encode msg.nonce ++ (Codec.u8.encode msg.sourceChainId ++
        (Codec.u8.encode msg.sourceTokenId ++
        (Codec.u8.vec.encode msg.fromAddress ++ (Codec.u8.encode msg.toChainId ++
        (pubkeyCodec.encode msg.toAddress ++
          (Codec.u64.encode msg.amount ++ []))))))))) := by
    refine writes_u8.field trivial rfl <| writes_u8.field trivial rfl <|
      writes_u64.field trivial rfl <| writes_u8.field trivial rfl <|
      writes_u8.field trivial rfl <|
      writes_u8.array.field ⟨h, fun _ _ => trivial⟩ rfl <|
      writes_u8.field trivial rfl <| (writes_word 32).field trivial rfl <|
      writes_u64.field trivial rfl rfl
  rw [hfields, List.append_nil]
  rfl

theorem serialize_updateLimiterMsg (msg : UpdateLimiterMsg) :
    BaseMsg.serialize msg = some (encodeMessage msg) := by
  have hfields : BaseMsg.serialize msg =
      some (Codec.u8.encode msg.messageType ++ (Codec.u8.encode msg.version ++
        (Codec.u64.encode msg.nonce ++ (Codec.u8.encode msg.chainId ++
        (Codec.u8.encode msg.targetChainId ++ (Codec.u8.encode msg.tokenId ++
          (Codec.u64.encode msg.totalLimit ++ []))))))) := by
    refine writes_u8.field trivial rfl <| writes_u8.field trivial rfl <|
      writes_u64.field trivial rfl <| writes_u8.field trivial rfl <|
      writes_u8.field trivial rfl <| writes_u8.field trivial rfl <|
      writes_u64.field trivial rfl rfl
  rw [hfields, List.append_nil]
  rfl

theorem valid_mintSbtcMessage {msg : MintSbtcMessage} :
    MintSbtcMessage.codec.Valid msg ↔ msg.fromAddress.length < 2 ^ 32 := by
  constructor
  · intro h
    exact h.2.2.2.2.2.1.1
  · intro h
    exact ⟨trivial, trivial, trivial, trivial, trivial,
      ⟨h, fun _ _ => trivial⟩, trivial, trivial, trivial⟩

theorem valid_updateLimiterMsg (msg : UpdateLimiterMsg) :
    UpdateLimiterMsg.codec.Valid msg :=
  ⟨trivial, trivial, trivial, trivial, trivial, trivial, trivial⟩

theorem length_encode_mintSbtcMessage (msg : MintSbtcMessage) :
    (encodeMessage msg).length = 57 + msg.fromAddress.length := by
  have hfields : (encodeMessage msg).length =
      1 + (1 + (8 + (1 + (1 + (4 + msg.fromAddress.length + (1 + (32 + 8))))))) := by
    simp only [encodeMessage, DeserializeMessage.codec, MintSbtcMessage.codec,
      Codec.imap, Codec.prod, Codec.vec, Codec.u8, Codec.u32, Codec.u64,
      pubkeyCodec, List.length_append, (Codec.word_fixedSize _ _).2,
      Codec.length_encodeList (Codec.word_fixedSize 1), Nat.mul_one]
  omega

theorem length_encode_updateLimiterMsg (msg : UpdateLimiterMsg) :
    (encodeMessage msg).length = 21 := by
  simp only [encodeMessage, DeserializeMessage.codec, UpdateLimiterMsg.codec,
    Codec.imap, Codec.prod, Codec.u8, Codec.u64, List.length_append,
    (Codec.word_fixedSize _ _).2]

private theorem deserializeMessage_eq_ok_iff_serialize {T : Type}
    [DeserializeMessage T] [BaseMsg T]
    (h : ∀ msg : T, DeserializeMessage.codec.Valid msg →
      BaseMsg.serialize msg = some (encodeMessage msg)) {data : List U8} {msg : T} :
    deserializeMessage T data = .ok msg ↔
      DeserializeMessage.codec.Valid msg ∧ BaseMsg.serialize msg = some data := by
  rw [deserializeMessage_eq_ok]
  constructor
  · rintro ⟨hvalid, rfl⟩
    exact ⟨hvalid, h msg hvalid⟩
  · rintro ⟨hvalid, hserialize⟩
    rw [h msg hvalid] at hserialize
    exact ⟨hvalid, (Option.some.inj hserialize).symm⟩

/-- The client and the program agree on the bytes of both signed messages. -/
theorem signed_format :
    (∀ msg : MintSbtcMessage, msg.fromAddress.length < 2 ^ 32 →
      ∃ data, BaseMsg.serialize msg = some data ∧
        deserializeMessage MintSbtcMessage data = .ok msg) ∧
    (∀ msg : UpdateLimiterMsg,
      ∃ data, BaseMsg.serialize msg = some data ∧
        deserializeMessage UpdateLimiterMsg data = .ok msg) ∧
    (∀ data (msg : MintSbtcMessage),
      deserializeMessage MintSbtcMessage data = .ok msg →
        BaseMsg.serialize msg = some data) ∧
    (∀ data (msg : UpdateLimiterMsg),
      deserializeMessage UpdateLimiterMsg data = .ok msg →
        BaseMsg.serialize msg = some data) ∧
    ∀ data (mint : MintSbtcMessage) (update : UpdateLimiterMsg),
      deserializeMessage MintSbtcMessage data = .ok mint →
        deserializeMessage UpdateLimiterMsg data ≠ .ok update := by
  have hmint : ∀ msg : MintSbtcMessage, DeserializeMessage.codec.Valid msg →
      BaseMsg.serialize msg = some (encodeMessage msg) := by
    intro msg hvalid
    exact serialize_mintSbtcMessage msg (valid_mintSbtcMessage.mp hvalid)
  have hupdate : ∀ msg : UpdateLimiterMsg, DeserializeMessage.codec.Valid msg →
      BaseMsg.serialize msg = some (encodeMessage msg) :=
    fun msg _ => serialize_updateLimiterMsg msg
  refine ⟨?_, ?_, ?_, ?_, ?_⟩
  · intro msg hlength
    have hvalid := valid_mintSbtcMessage.mpr hlength
    exact ⟨_, hmint msg hvalid, deserializeMessage_eq_ok.mpr ⟨hvalid, rfl⟩⟩
  · intro msg
    have hvalid := valid_updateLimiterMsg msg
    exact ⟨_, hupdate msg hvalid, deserializeMessage_eq_ok.mpr ⟨hvalid, rfl⟩⟩
  · intro data msg h
    exact ((deserializeMessage_eq_ok_iff_serialize hmint).mp h).2
  · intro data msg h
    exact ((deserializeMessage_eq_ok_iff_serialize hupdate).mp h).2
  · intro data mint update h₁ h₂
    have hlength₁ := length_encode_mintSbtcMessage mint
    have hlength₂ := length_encode_updateLimiterMsg update
    rw [← (deserializeMessage_eq_ok.mp h₁).2] at hlength₁
    rw [← (deserializeMessage_eq_ok.mp h₂).2] at hlength₂
    omega

end SolBtcBridge.Properties
