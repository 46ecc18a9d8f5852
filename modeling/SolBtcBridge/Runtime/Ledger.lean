import SolBtcBridge.Foundation.Borsh
import SolBtcBridge.Foundation.Fallible

/-!
# The ledger and how an instruction fails

Addresses are symbolic.  A program-derived address is the concatenation of its
seeds and an associated token account is named by its owner and mint, so
distinct seeds give distinct addresses and no derived address is a wallet key.
This is the collision freedom the program relies on; nothing else about the
hash is used.
-/

namespace SolBtcBridge.Runtime

open SolBtcBridge.Foundation

/-- A 32-byte key, read as one little-endian word. -/
abbrev Pubkey := BitVec 256

def keyBytes (key : Pubkey) : List U8 := leBytes 32 key.toNat

theorem length_keyBytes (key : Pubkey) : (keyBytes key).length = 32 :=
  length_leBytes 32 key.toNat

theorem ofNat_ofLeBytes_eq_iff {key : Pubkey} {bytes : List U8}
    (h : bytes.length = 32) :
    BitVec.ofNat 256 (ofLeBytes bytes) = key ↔ keyBytes key = bytes := by
  constructor
  · rintro rfl
    have hlt : ofLeBytes bytes < 2 ^ 256 := by
      simpa [h] using ofLeBytes_lt bytes
    rw [keyBytes, BitVec.toNat_ofNat, Nat.mod_eq_of_lt hlt, ← h,
      leBytes_ofLeBytes]
  · rintro rfl
    apply BitVec.eq_of_toNat_eq
    rw [BitVec.toNat_ofNat, keyBytes, ofLeBytes_leBytes, Nat.mod_mod_of_dvd _
      (dvd_refl _), Nat.mod_eq_of_lt key.isLt]

theorem keyBytes_injective : Function.Injective keyBytes := by
  intro a b h
  have hlength : (keyBytes a).length = 32 := length_leBytes 32 a.toNat
  rw [← (ofNat_ofLeBytes_eq_iff hlength).mpr rfl]
  exact (ofNat_ofLeBytes_eq_iff hlength).mpr h.symm

inductive Address where
  | wallet (key : Pubkey)
  | pda (seeds : List U8)
  | ata (owner mint : Address)
  deriving DecidableEq

def Address.isWallet : Address → Bool
  | wallet _ => true
  | _ => false

inductive ErrorCode where
  | insufficientStake
  | invalidMessageType
  | invalidOpCode
  | invalidChain
  | invalidTokenFeePercentage
  | invalidTokenMinimumAmount
  | invalidTokenIds
  | invalidAdminAddress
  | invalidFeeRecipientAddress
  | cannotSupportSelf
  | tokenConfigAddressMissing
  | supportedChainAddressMissing
  | bridgeConfigSerializationError
  | supportedChainSerializationError
  | committeeLengthExceedsLimit
  | committeeAndStakeLengthMismatch
  | committeeConfigAddressMissing
  | bridgeCommitteeSerializationError
  | invalidPayloadLength
  | insufficientSignatures
  | deserializeMessageError
  | messageMismatch
  | messageOpTypeMismatch
  | bridgeConfigNotInitialized
  | supportedChainConfigNotInitialized
  | tokenConfigNotInitialized
  | supportedChainConfigNoSupported
  | duplicateSignature
  | notSubmitter
  | instructionMissing
  | invalidSigner
  | invalidNonce
  | withdrawPaused
  | bridgeWithdrawPaused
  | invalidAddress
  | invalidMinAmount
  | invalidUserAddress
  | lackTargetMint
  | lackTargetMintOfChain
  | chainIdShouldDiffFromSolanaChainId
  | feeRecipientNotFound
  | feeRecipientSbtcAtaNotFound
  | userSbtcAtaNotFound
  | sbtcMintAccountNotFound
  | transferLimitExceeded
  | biggerThanFeeDenominator
  | userNotFound
  | invalidCommittee
  deriving DecidableEq, Repr

inductive AnchorError where
  | accountNotInitialized
  | accountOwnedByWrongProgram
  | accountDiscriminatorNotFound
  | accountDiscriminatorMismatch
  | accountDidNotDeserialize
  | accountDidNotSerialize
  | constraintSpace
  deriving DecidableEq, Repr

inductive Failure where
  | program (code : ErrorCode)
  | anchor (code : AnchorError)
  /-- The instructions sysvar has no instruction at the requested index. -/
  | missingInstruction
  /-- A system, token, associated-token or metadata program call failed. -/
  | invocation
  /-- Arithmetic overflow, a slice out of range, or an unwrapped `None`. -/
  | panicked
  deriving DecidableEq, Repr

abbrev Result (α : Type) := Except Failure α

/-- `a + b` in the source, with overflow checks on. -/
def addOrPanic {w : Nat} (a b : BitVec w) : Result (BitVec w) :=
  orFail .panicked (checkedAdd a b)

def subOrPanic {w : Nat} (a b : BitVec w) : Result (BitVec w) :=
  orFail .panicked (checkedSub a b)

theorem addOrPanic_eq_ok {w : Nat} {a b c : BitVec w} :
    addOrPanic a b = .ok c ↔ c.toNat = a.toNat + b.toNat := by
  rw [addOrPanic, orFail_eq_ok, checkedAdd_eq_some]

theorem subOrPanic_eq_ok {w : Nat} {a b c : BitVec w} :
    subOrPanic a b = .ok c ↔ a.toNat = c.toNat + b.toNat := by
  rw [subOrPanic, orFail_eq_ok, checkedSub_eq_some]

def sliceOrPanic (data : List U8) (start stop : Nat) : Result (List U8) :=
  if start ≤ stop ∧ stop ≤ data.length then .ok ((data.take stop).drop start)
  else .error .panicked

theorem sliceOrPanic_eq_ok {data bytes : List U8} {start stop : Nat} :
    sliceOrPanic data start stop = .ok bytes ↔
      (start ≤ stop ∧ stop ≤ data.length) ∧
        bytes = (data.drop start).take (stop - start) := by
  unfold sliceOrPanic
  rw [List.drop_take]
  split
  · rename_i hle
    simp [hle, eq_comm]
  · rename_i hgt
    simp [hgt]

/-! ## Accounts -/

structure Mint where
  mintAuthority : Address
  supply : U64
  deriving DecidableEq

structure TokenAccount where
  mint : Address
  owner : Address
  amount : U64
  deriving DecidableEq

/-- The owner program of an account together with the data it keeps there. -/
inductive AccountBody where
  | system
  | bridge (data : List U8)
  | mint (mint : Mint)
  | token (account : TokenAccount)
  deriving DecidableEq

structure Account where
  lamports : Nat
  body : AccountBody
  deriving DecidableEq

def Ledger := Address → Account

namespace Ledger

def empty : Ledger := fun _ => ⟨0, .system⟩

def set (L : Ledger) (a : Address) (account : Account) : Ledger :=
  fun b => if b = a then account else L b

@[simp] theorem set_self (L : Ledger) (a : Address) (account : Account) :
    L.set a account a = account := if_pos rfl

theorem set_of_ne (L : Ledger) {a b : Address} (account : Account)
    (h : b ≠ a) : L.set a account b = L b := if_neg h

theorem set_set (L : Ledger) (a : Address) (first second : Account) :
    (L.set a first).set a second = L.set a second := by
  funext b
  by_cases h : b = a
  · rw [h, set_self, set_self]
  · rw [set_of_ne _ _ h, set_of_ne _ _ h, set_of_ne _ _ h]

theorem set_comm (L : Ledger) {a b : Address} (first second : Account)
    (h : a ≠ b) :
    (L.set a first).set b second = (L.set b second).set a first := by
  funext c
  by_cases hb : c = b
  · rw [hb, set_self, set_of_ne _ _ h.symm, set_self]
  · rw [set_of_ne _ _ hb]
    by_cases ha : c = a
    · rw [ha, set_self, set_self]
    · rw [set_of_ne _ _ ha, set_of_ne _ _ ha, set_of_ne _ _ hb]

theorem set_lamports_body (L : Ledger) (a b : Address) (lamports : Nat) :
    (L.set a ⟨lamports, (L a).body⟩ b).body = (L b).body := by
  by_cases h : b = a
  · rw [h, set_self]
  · rw [set_of_ne L _ h]

def setBody (L : Ledger) (a : Address) (body : AccountBody) : Ledger :=
  L.set a ⟨(L a).lamports, body⟩

@[simp] theorem setBody_self (L : Ledger) (a : Address) (body : AccountBody) :
    (L.setBody a body a).body = body := by
  simp [setBody]

theorem setBody_of_ne (L : Ledger) {a b : Address} (body : AccountBody)
    (h : b ≠ a) : L.setBody a body b = L b := set_of_ne L _ h

end Ledger

def minimumBalance (space : Nat) : Nat := (128 + space) * 6960

/--
Turn an address that still belongs to the system program into a zero-filled
account of the bridge.  Lamports that somebody already sent there are kept.
-/
def Account.allocate (account : Account) (space : Nat) : Result Account :=
  match account.body with
  | .system =>
      .ok ⟨max account.lamports (minimumBalance space),
        .bridge (List.replicate space 0)⟩
  | _ => .error .invocation

theorem Account.allocate_eq_ok {account created : Account} {space : Nat} :
    account.allocate space = .ok created ↔ account.body = .system ∧
      created = ⟨max account.lamports (minimumBalance space),
        .bridge (List.replicate space 0)⟩ := by
  unfold Account.allocate
  cases account.body <;> simp [eq_comm]

end SolBtcBridge.Runtime
