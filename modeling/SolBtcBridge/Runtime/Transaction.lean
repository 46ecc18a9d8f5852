import SolBtcBridge.Runtime.Ledger

/-!
# Transactions and the Ed25519 precompile

An instruction sees the other instructions of its transaction through the
instructions sysvar.  Among them are those of the Ed25519 precompile, which
reads a signature count and one 14-byte header per signature.  A header says
where the signature, the key and the signed bytes are: in which instruction of
the transaction, and at which offset of its data.
-/

namespace SolBtcBridge.Runtime

open SolBtcBridge.Foundation

structure SolanaInstruction where
  programId : Pubkey
  accounts : List Pubkey
  data : List U8
  deriving DecidableEq

/-- What the runtime hands to one instruction besides its typed accounts. -/
structure Context where
  remainingAccounts : List Address
  instructions : List SolanaInstruction
  unixTimestamp : Int

/-- The parts of the chain that are outside this repository. -/
structure Host where
  /-- The 32 bytes of a program-derived address. -/
  programAddress : List U8 → Pubkey
  /-- Whether the metadata program accepts a name, a symbol and a URI. -/
  createMetadataAccountsV3 : String → String → String → Bool

def ed25519ProgramId : Pubkey :=
  0x804470cafc648af42749747005ff408d838f42f912befb937cd6467d03

/--
The instruction that `Ed25519Program.createInstructionWithPublicKey` builds:
one signature, the key at 16, the signature at 48 and the message at 112.
-/
def createInstructionWithPublicKey (publicKey : Pubkey)
    (signature message : List U8) : SolanaInstruction where
  programId := ed25519ProgramId
  accounts := []
  data := [1, 0, 48, 0, 255, 255, 16, 0, 255, 255, 112, 0] ++
    leBytes 2 message.length ++ [255, 255] ++ keyBytes publicKey ++ signature ++
    message

def loadInstructionAtChecked (index : Nat)
    (instructions : List SolanaInstruction) : Result SolanaInstruction :=
  orFail .missingInstruction instructions[index]?

structure SignedBytes where
  key : List U8
  signature : List U8
  message : List U8
  deriving DecidableEq

def readU16 (data : List U8) (offset : Nat) : Option Nat :=
  if offset + 2 ≤ data.length then
    some (ofLeBytes ((data.drop offset).take 2))
  else none

/-- Bytes of the instruction at `index`; `u16::MAX` is the instruction itself. -/
def dataSlice (instructions : List SolanaInstruction) (self : List U8)
    (index offset size : Nat) : Option (List U8) := do
  let source ←
    if index = 0xffff then some self
    else instructions[index]?.map SolanaInstruction.data
  if offset + size ≤ source.length then some ((source.drop offset).take size)
  else none

def readHeader (instructions : List SolanaInstruction) (data : List U8)
    (start : Nat) : Option SignedBytes := do
  let signatureOffset ← readU16 data start
  let signatureIndex ← readU16 data (start + 2)
  let keyOffset ← readU16 data (start + 4)
  let keyIndex ← readU16 data (start + 6)
  let messageOffset ← readU16 data (start + 8)
  let messageSize ← readU16 data (start + 10)
  let messageIndex ← readU16 data (start + 12)
  let signature ← dataSlice instructions data signatureIndex signatureOffset 64
  let key ← dataSlice instructions data keyIndex keyOffset 32
  let message ← dataSlice instructions data messageIndex messageOffset messageSize
  some ⟨key, signature, message⟩

def signedBytes (instructions : List SolanaInstruction) (data : List U8) :
    Option (List SignedBytes) := do
  let count ← data[0]?
  if count = 0 ∧ 2 < data.length then none
  else (List.range count.toNat).mapM fun i =>
    readHeader instructions data (2 + 14 * i)

/--
The precompile accepts the instruction: every header is in range and every
signature verifies.  Verification itself is a parameter.
-/
def PrecompileAccepts (verifies : SignedBytes → Bool)
    (instructions : List SolanaInstruction) (data : List U8) : Prop :=
  ∃ checked, signedBytes instructions data = some checked ∧
    ∀ entry ∈ checked, verifies entry = true

end SolBtcBridge.Runtime
