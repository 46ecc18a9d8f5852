import SolBtcBridge.Effects.Ed25519
import SolBtcBridge.Foundation.Slices
import SolBtcBridge.Properties.MintTotals

/-!
# What a signer has signed

The resolver reads the message at offset 112, the precompile at the offset and
with the size in the header, and nothing compares the two.  They are the same
bytes when the header says so, and otherwise only if the instruction repeats
itself from the signed bytes on.
-/

namespace SolBtcBridge.Properties

open SolBtcBridge.Foundation
open SolBtcBridge.Runtime
open SolBtcBridge.Program
open SolBtcBridge.Effects

section

variable {T : Type} [DeserializeMessage T] [DecidableEq T]

/-- The one signature that the precompile verified is the key's, on the message. -/
def SignsMessage (verifies : SignedBytes → Bool)
    (instructions : List SolanaInstruction) (data : List U8) (key : Pubkey)
    (msg : T) : Prop :=
  ∃ entry, signedBytes instructions data = some [entry] ∧
    verifies entry = true ∧ entry.key = keyBytes key ∧
    entry.message = data.drop 112 ∧ data.drop 112 = encodeMessage msg

/--
The header announces as many bytes as follow offset 112, and from the offset it
announces the data repeats itself with the distance to 112 as period.  At offset
112 nothing has to repeat; every other offset is degenerate.
-/
def HeaderMatches (data : List U8) : Prop :=
  messageDataSize data = data.length - 112 ∧
    Repeats (112 - messageDataOffset data) (data.drop (messageDataOffset data))

instance (data : List U8) : Decidable (HeaderMatches data) :=
  inferInstanceAs (Decidable (_ ∧ _))

/-- A resolved signer has signed the message if and only if the header matches. -/
theorem signsMessage_iff (verifies : SignedBytes → Bool)
    (instructions : List SolanaInstruction) (index : Nat)
    (ix : SolanaInstruction) (key : Pubkey) (msg : T)
    (hix : instructions[index]? = some ix)
    (haccepts : PrecompileAccepts verifies instructions ix.data)
    (hresolve : resolveEd25519WithIndex instructions index msg = .ok key) :
    SignsMessage verifies instructions ix.data key msg ↔
      HeaderMatches ix.data := by
  obtain ⟨ix', hix', hvalid, hlength, hkey, -, hmsg⟩ := resolve_eq_ok.mp hresolve
  obtain rfl : ix = ix' := by
    rw [hix] at hix'
    exact Option.some.inj hix'
  have hpinned := pinnedHeader_of_valid hvalid
  obtain ⟨checked, hchecked, hverifies⟩ := haccepts
  obtain ⟨entry, hentry, rfl⟩ := signedBytes_of_pinned hpinned hchecked
  obtain ⟨hentryKey, hfits, hentryMessage⟩ := readHeader_of_pinned hpinned hentry
  have hslice := slice_eq_drop_iff hfits hlength
  constructor
  · rintro ⟨signed, hsigned, -, -, hmessage, -⟩
    obtain rfl : signed = entry := by
      rw [hchecked] at hsigned
      simpa using hsigned.symm
    rw [hentryMessage] at hmessage
    exact hslice.mp hmessage
  · intro hmatches
    refine ⟨entry, hchecked, hverifies entry (by simp), ?_, ?_, hmsg⟩
    · rw [hentryKey, hkey]
    · rw [hentryMessage]
      exact hslice.mpr hmatches

end

def sampleVerifies (entry : SignedBytes) : Bool :=
  entry = ⟨keyBytes sampleMember, sampleMintSignature,
    encodeMessage sampleMintMessage⟩

theorem signsMessage_sample :
    SignsMessage sampleVerifies [⟨0, [], []⟩, sampleMintInstruction]
      sampleMintInstruction.data sampleMember sampleMintMessage :=
  (signsMessage_iff sampleVerifies [⟨0, [], []⟩, sampleMintInstruction] 1
    sampleMintInstruction sampleMember sampleMintMessage rfl
    ⟨[⟨keyBytes sampleMember, sampleMintSignature,
      encodeMessage sampleMintMessage⟩], by decide +kernel, by decide +kernel⟩
    (by decide +kernel)).mpr (by decide +kernel)

/-- Another mint, whose source address is the message that the member signed. -/
def forgedMessage : MintSbtcMessage where
  messageType := 0
  version := 1
  nonce := 1
  sourceChainId := 2
  sourceTokenId := 0
  fromAddress := encodeMessage sampleMintMessage
  toChainId := 1
  toAddress := 10
  amount := 1000000

def forgedInstruction : SolanaInstruction where
  programId := ed25519ProgramId
  accounts := []
  data := [1, 0, 48, 0, 255, 255, 16, 0, 255, 255, 128, 0, 57, 0, 255, 255] ++
    keyBytes sampleMember ++ sampleMintSignature ++ encodeMessage forgedMessage

/-- The member counts as signer of a message it never signed. -/
theorem not_signsMessage_forged :
    PrecompileAccepts sampleVerifies [⟨0, [], []⟩, forgedInstruction]
        forgedInstruction.data ∧
      resolveEd25519WithIndex [⟨0, [], []⟩, forgedInstruction] 1 forgedMessage =
        .ok sampleMember ∧
      ¬ SignsMessage sampleVerifies [⟨0, [], []⟩, forgedInstruction]
        forgedInstruction.data sampleMember forgedMessage := by
  have hchecked : signedBytes [⟨0, [], []⟩, forgedInstruction]
      forgedInstruction.data = some [⟨keyBytes sampleMember, sampleMintSignature,
        encodeMessage sampleMintMessage⟩] := by
    decide +kernel
  refine ⟨⟨_, hchecked, by decide +kernel⟩, by decide +kernel, ?_⟩
  rintro ⟨entry, hsigned, -, -, hmessage, -⟩
  rw [hchecked] at hsigned
  cases hsigned
  revert hmessage
  decide +kernel

end SolBtcBridge.Properties
