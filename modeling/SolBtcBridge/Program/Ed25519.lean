import SolBtcBridge.Program.Message
import SolBtcBridge.Runtime.Transaction

/-!
# Resolving a signer from an Ed25519 instruction
-/

namespace SolBtcBridge.Program

open SolBtcBridge.Foundation
open SolBtcBridge.Runtime

/-- Compare header fields in order; a later field is read only if the earlier match. -/
def headerMatches (data : List U8) : List (Nat × List U8) → Result Bool
  | [] => .ok true
  | (start, expected) :: fields => do
      let actual ← sliceOrPanic data start (start + expected.length)
      if actual = expected then headerMatches data fields else .ok false

/--
The fields compared by `validate_ed25519_ix`: the key offset, the signature
count, the padding byte and the three instruction indices.
-/
def expectedHeader : List (Nat × List U8) :=
  [(6, [16, 0]), (0, [1]), (1, [0]), (4, [255, 255]), (8, [255, 255]),
    (14, [255, 255])]

def validateEd25519Ix (ix : SolanaInstruction) : Result Bool :=
  if ix.programId ≠ ed25519ProgramId ∨ ix.accounts.length ≠ 0 then .ok false
  else headerMatches ix.data expectedHeader

section

variable {T : Type} [DeserializeMessage T] [DecidableEq T]

def resolveEd25519WithIndex (instructions : List SolanaInstruction)
    (index : Nat) (msg : T) : Result Pubkey := do
  let ix ← loadInstructionAtChecked index instructions
  let valid ← validateEd25519Ix ix
  require (valid = true) (.program .instructionMissing)
  let pubKey ← sliceOrPanic ix.data 16 48
  let data ← sliceOrPanic ix.data 112 ix.data.length
  let messageOfSigner ← deserializeMessage T data
  require (messageOfSigner = msg) (.program .messageMismatch)
  return BitVec.ofNat 256 (ofLeBytes pubKey)

end

end SolBtcBridge.Program
