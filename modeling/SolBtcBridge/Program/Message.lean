import SolBtcBridge.Program.State

/-!
# Messages, operations and events

The committee signs `MintSbtcMessage` and `UpdateLimiterMsg` in their borsh
encoding; `WithdrawBtcMessage` is an argument of the user's own instruction.
-/

namespace SolBtcBridge.Program

open SolBtcBridge.Foundation
open SolBtcBridge.Runtime

inductive Operation where
  | tokenTransfer
  | blocklist
  | emergencyOp
  | updateBridgeLimit
  | updateTokenPrice
  | upgrade
  | addEvmTokens
  | updateChainId
  deriving DecidableEq, Repr

namespace Operation

/-- The discriminant of the `repr(u8)` enum; code 6 is unused. -/
def toU8 : Operation → U8
  | .tokenTransfer => 0
  | .blocklist => 1
  | .emergencyOp => 2
  | .updateBridgeLimit => 3
  | .updateTokenPrice => 4
  | .upgrade => 5
  | .addEvmTokens => 7
  | .updateChainId => 8

def toBytes (op : Operation) : List U8 := [op.toU8]

def tryFrom (value : U8) : Option Operation :=
  if value = 0 then some .tokenTransfer
  else if value = 1 then some .blocklist
  else if value = 2 then some .emergencyOp
  else if value = 3 then some .updateBridgeLimit
  else if value = 4 then some .updateTokenPrice
  else if value = 5 then some .upgrade
  else if value = 7 then some .addEvmTokens
  else if value = 8 then some .updateChainId
  else none

theorem tryFrom_toU8 (op : Operation) : tryFrom op.toU8 = some op := by
  cases op <;> rfl

theorem toU8_injective : Function.Injective toU8 := by
  intro a b h
  have hdecode := congrArg tryFrom h
  rw [tryFrom_toU8, tryFrom_toU8] at hdecode
  exact Option.some.inj hdecode

end Operation

/-! ## Messages -/

structure MintSbtcMessage where
  messageType : U8
  version : U8
  nonce : U64
  sourceChainId : U8
  sourceTokenId : U8
  fromAddress : List U8
  toChainId : U8
  toAddress : Pubkey
  amount : U64
  deriving DecidableEq

structure UpdateLimiterMsg where
  messageType : U8
  version : U8
  nonce : U64
  chainId : U8
  targetChainId : U8
  tokenId : U8
  totalLimit : U64
  deriving DecidableEq

structure WithdrawBtcMessage where
  toChainId : U8
  toTokenId : U8
  toAddress : List U8
  chainId : U8
  fromAddress : Pubkey
  amount : U64
  deriving DecidableEq

def MintSbtcMessage.codec : Codec MintSbtcMessage :=
  (Codec.u8.prod <| Codec.u8.prod <| Codec.u64.prod <| Codec.u8.prod <|
    Codec.u8.prod <| Codec.u8.vec.prod <| Codec.u8.prod <|
    pubkeyCodec.prod Codec.u64).imap
    (fun (a, b, c, d, e, f, g, h, i) => ⟨a, b, c, d, e, f, g, h, i⟩)
    (fun m => (m.messageType, m.version, m.nonce, m.sourceChainId,
      m.sourceTokenId, m.fromAddress, m.toChainId, m.toAddress, m.amount))
    (fun _ => rfl) (fun _ => rfl)

def UpdateLimiterMsg.codec : Codec UpdateLimiterMsg :=
  (Codec.u8.prod <| Codec.u8.prod <| Codec.u64.prod <| Codec.u8.prod <|
    Codec.u8.prod <| Codec.u8.prod Codec.u64).imap
    (fun (a, b, c, d, e, f, g) => ⟨a, b, c, d, e, f, g⟩)
    (fun m => (m.messageType, m.version, m.nonce, m.chainId, m.targetChainId,
      m.tokenId, m.totalLimit))
    (fun _ => rfl) (fun _ => rfl)

class HasMessageType (T : Type) where
  messageType : T → U8
  chainId : T → U8
  nonce : T → U64

class HasPayload (T : Type) where
  payload : T → List U8

/-- The derived borsh codec; `deserializeMessage` below is the trait's method. -/
class DeserializeMessage (T : Type) where
  codec : Codec T

export HasMessageType (messageType)
export HasPayload (payload)

instance : HasMessageType MintSbtcMessage where
  messageType m := m.messageType
  chainId m := m.toChainId
  nonce m := m.nonce

instance : HasPayload MintSbtcMessage where
  payload _ := []

instance : DeserializeMessage MintSbtcMessage where
  codec := MintSbtcMessage.codec

instance : HasMessageType UpdateLimiterMsg where
  messageType m := m.messageType
  chainId m := m.chainId
  nonce m := m.nonce

instance : HasPayload UpdateLimiterMsg where
  payload _ := []

instance : DeserializeMessage UpdateLimiterMsg where
  codec := UpdateLimiterMsg.codec

section

variable {T : Type} [DeserializeMessage T]

def encodeMessage (msg : T) : List U8 := DeserializeMessage.codec.encode msg

variable (T) in
def deserializeMessage (data : List U8) : Result T :=
  orFail (.program .deserializeMessageError)
    (DeserializeMessage.codec.tryFromSlice data)

theorem deserializeMessage_eq_ok {data : List U8} {msg : T} :
    deserializeMessage T data = .ok msg ↔
      DeserializeMessage.codec.Valid msg ∧ data = encodeMessage msg := by
  rw [deserializeMessage, orFail_eq_ok, Codec.tryFromSlice_eq_some]
  rfl

end

class NoncesTrait (F : Type) where
  incrementNonce : F → Result F
  nonceEqual : F → U64 → Bool

export NoncesTrait (incrementNonce nonceEqual)

instance : NoncesTrait Nonces where
  incrementNonce n := do
    let nonce ← addOrPanic n.nonce 1
    return { n with nonce }
  nonceEqual n value := n.nonce = value

/-- A mint's nonce is consumed by creating its account, so the check is vacuous. -/
instance : NoncesTrait NoncesDummy where
  incrementNonce n := .ok n
  nonceEqual _ _ := true

/-! ## Events -/

structure MintSbtcEvent where
  messageType : U8
  version : U8
  nonce : U64
  sourceChainId : U8
  sourceTokenId : U8
  fromAddress : List U8
  toChainId : U8
  toAddress : Pubkey
  amount : U64
  chainMintTotal : U128
  tokenMintTotal : U128
  deriving DecidableEq

structure WithdrawBtcEvent where
  nonce : U64
  toChainId : U8
  toTokenId : U8
  toAddress : List U8
  chainId : U8
  fromAddress : Pubkey
  amount : U64
  originalAmount : U64
  chainMintTotal : U128
  tokenMintTotal : U128
  deriving DecidableEq

structure LimitUpdated where
  chainId : U8
  tokenId : U8
  totalLimit : U64
  nonce : U64
  deriving DecidableEq

structure LimitEvent where
  currentH : U32
  currentSlot : U8
  totalBefore : U64
  totalAfter : U64
  deriving DecidableEq

inductive Event where
  | mintSbtc (event : MintSbtcEvent)
  | withdrawBtc (event : WithdrawBtcEvent)
  | limitUpdated (event : LimitUpdated)
  | limit (event : LimitEvent)
  deriving DecidableEq

end SolBtcBridge.Program
