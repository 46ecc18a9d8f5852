import SolBtcBridge.Program.Message
import SolBtcBridge.Foundation.Schema

/-!
# The message classes of the TypeScript client

The client signs what its `borsh` schemas serialize.  A schema lists the
fields by name; an object of the class is a lookup from names to values.
-/

namespace SolBtcBridge.Program

open SolBtcBridge.Foundation
open SolBtcBridge.Runtime

/-- `BaseMsg` with the static `schema` and the properties of its subclass. -/
class BaseMsg (T : Type) where
  schema : Schema
  property : T → String → Option FieldValue

def BaseMsg.serialize {T : Type} [BaseMsg T] (msg : T) : Option (List U8) :=
  Foundation.serialize (BaseMsg.schema T) (BaseMsg.property msg)

def numberValue {w : Nat} (value : BitVec w) : FieldValue := .number value.toNat

def uint8Array (bytes : List U8) : FieldValue := .list (bytes.map numberValue)

instance : BaseMsg MintSbtcMessage where
  schema :=
    [("messageType", .u8), ("version", .u8), ("nonce", .u64),
      ("sourceChainId", .u8), ("sourceTokenId", .u8),
      ("fromAddress", .array .u8), ("toChainId", .u8),
      ("toAddress", .fixedArray .u8 32), ("amount", .u64)]
  property m
    | "messageType" => some (numberValue m.messageType)
    | "version" => some (numberValue m.version)
    | "nonce" => some (numberValue m.nonce)
    | "sourceChainId" => some (numberValue m.sourceChainId)
    | "sourceTokenId" => some (numberValue m.sourceTokenId)
    | "fromAddress" => some (uint8Array m.fromAddress)
    | "toChainId" => some (numberValue m.toChainId)
    | "toAddress" => some (uint8Array (keyBytes m.toAddress))
    | "amount" => some (numberValue m.amount)
    | _ => none

instance : BaseMsg UpdateLimiterMsg where
  schema :=
    [("messageType", .u8), ("version", .u8), ("nonce", .u64), ("chainId", .u8),
      ("targetChainId", .u8), ("tokenId", .u8), ("totalLimit", .u64)]
  property m
    | "messageType" => some (numberValue m.messageType)
    | "version" => some (numberValue m.version)
    | "nonce" => some (numberValue m.nonce)
    | "chainId" => some (numberValue m.chainId)
    | "targetChainId" => some (numberValue m.targetChainId)
    | "tokenId" => some (numberValue m.tokenId)
    | "totalLimit" => some (numberValue m.totalLimit)
    | _ => none

end SolBtcBridge.Program
