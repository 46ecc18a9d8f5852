import SolBtcBridge.Foundation.Tagged
import SolBtcBridge.Program.Message

/-!
# Constants and program-derived addresses

Every record of the program lives at an address derived from a tag and a key.
Solana hashes the concatenation of the seeds, without separators, so two
records are kept apart only by the bytes themselves.
-/

namespace SolBtcBridge.Program

open SolBtcBridge.Foundation
open SolBtcBridge.Runtime

namespace Constants

def asciiBytes (s : String) : List U8 :=
  s.toList.map fun c => BitVec.ofNat 8 c.toNat

def globalConfig : List U8 := asciiBytes "GLOBAL_CONFIG"

def sbtcMint : List U8 := asciiBytes "SBTC_MINT"

def nonceConfig : List U8 := asciiBytes "NONCE_CONFIG"

def tokenConfig : List U8 := asciiBytes "TOKEN_CONFIG"

def committeeConfig : List U8 := asciiBytes "COMMITTEE_CONFIG"

def committeeSubmitterConfig : List U8 := asciiBytes "COMMITTEE_SUBMITTER_CONFIG"

def supportedChainsConfig : List U8 := asciiBytes "SUPPORTED_CHAINS_CONFIG"

def limiterConfig : List U8 := asciiBytes "LIMITER_CONFIG"

def maxStringLength : Nat := 255

def feeDenominator : Nat := 1000000

/-- `supper_admin::ID`, the key `admvjpCSCJxquTVPsNtCCoTno4zC1ozAnSu6wt2BmnV`. -/
def supperAdmin : Pubkey :=
  0xfe7d9c6b168cfd3ef18818834f0bc537c85658e4087250ee1b73e63274bf9d08

end Constants

/-- The records of the program, each with the key its address is derived from. -/
inductive Pda where
  | bridgeConfig (chainId : U8)
  | sbtcMint (chainId : U8)
  | supportedChain (chainId : U8)
  | tokenConfig (chainId tokenId : U8)
  | limiter (chainId tokenId : U8)
  | committee (member : Pubkey)
  | submitter (submitter : Pubkey)
  | operationNonce (op : Operation)
  | mintNonce (sourceChainId : U8) (nonce : U64)
  deriving DecidableEq

def toBeBytes (nonce : U64) : List U8 := (leBytes 8 nonce.toNat).reverse

theorem toBeBytes_injective : Function.Injective toBeBytes := by
  intro a b h
  have hle := congrArg ofLeBytes (List.reverse_injective h)
  simp only [ofLeBytes_leBytes] at hle
  have ha : a.toNat % 2 ^ (8 * 8) = a.toNat := Nat.mod_eq_of_lt a.isLt
  have hb : b.toNat % 2 ^ (8 * 8) = b.toNat := Nat.mod_eq_of_lt b.isLt
  rw [ha, hb] at hle
  exact BitVec.eq_of_toNat_eq hle

namespace Pda

def seeds : Pda → List (List U8)
  | bridgeConfig chainId => [Constants.globalConfig, [chainId]]
  | sbtcMint chainId => [Constants.sbtcMint, [chainId]]
  | supportedChain chainId => [Constants.supportedChainsConfig, [chainId]]
  | tokenConfig chainId tokenId => [Constants.tokenConfig, [chainId], [tokenId]]
  | limiter chainId tokenId => [Constants.limiterConfig, [chainId], [tokenId]]
  | committee member => [Constants.committeeConfig, keyBytes member]
  | submitter key => [Constants.committeeSubmitterConfig, keyBytes key]
  | operationNonce op => [Constants.nonceConfig, op.toBytes]
  | mintNonce sourceChainId nonce =>
      [Constants.nonceConfig, Operation.tokenTransfer.toBytes, [sourceChainId],
        toBeBytes nonce]

def seedBytes (p : Pda) : List U8 := p.seeds.flatten

end Pda

inductive SeedFamily where
  | bridgeConfig
  | sbtcMint
  | supportedChain
  | tokenConfig
  | limiter
  | committee
  | submitter
  | operationNonce
  | mintNonce
  deriving DecidableEq

namespace SeedFamily

def tag : SeedFamily → List U8
  | bridgeConfig => Constants.globalConfig
  | sbtcMint => Constants.sbtcMint
  | supportedChain => Constants.supportedChainsConfig
  | tokenConfig => Constants.tokenConfig
  | limiter => Constants.limiterConfig
  | committee => Constants.committeeConfig
  | submitter => Constants.committeeSubmitterConfig
  | operationNonce => Constants.nonceConfig
  | mintNonce => Constants.nonceConfig

def width : SeedFamily → Nat
  | bridgeConfig => 1
  | sbtcMint => 1
  | supportedChain => 1
  | tokenConfig => 2
  | limiter => 2
  | committee => 32
  | submitter => 32
  | operationNonce => 1
  | mintNonce => 10

def all : List SeedFamily :=
  [bridgeConfig, sbtcMint, supportedChain, tokenConfig, limiter, committee,
    submitter, operationNonce, mintNonce]

theorem mem_all (f : SeedFamily) : f ∈ all := by
  cases f <;> decide

/--
Only the bridge and the token configuration have seeds of the same length, and
their tags differ in the first byte.
-/
theorem all_apart : ∀ f ∈ all, ∀ g ∈ all, f ≠ g → Apart tag width f g := by
  decide +kernel

theorem apart (f g : SeedFamily) (hne : f ≠ g) : Apart tag width f g :=
  all_apart f (mem_all f) g (mem_all g) hne

end SeedFamily

namespace Pda

def family : Pda → SeedFamily
  | bridgeConfig _ => .bridgeConfig
  | sbtcMint _ => .sbtcMint
  | supportedChain _ => .supportedChain
  | tokenConfig _ _ => .tokenConfig
  | limiter _ _ => .limiter
  | committee _ => .committee
  | submitter _ => .submitter
  | operationNonce _ => .operationNonce
  | mintNonce _ _ => .mintNonce

def keySeeds (p : Pda) : List U8 := p.seeds.tail.flatten

theorem seedBytes_eq (p : Pda) : p.seedBytes = p.family.tag ++ p.keySeeds := by
  cases p <;> rfl

theorem length_keySeeds (p : Pda) : p.keySeeds.length = p.family.width := by
  cases p with
  | committee member =>
      rw [keySeeds, seeds, List.tail_cons, List.flatten_singleton]
      exact length_keyBytes member
  | submitter key =>
      rw [keySeeds, seeds, List.tail_cons, List.flatten_singleton]
      exact length_keyBytes key
  | mintNonce sourceChainId nonce =>
      simp [keySeeds, seeds, Operation.toBytes, toBeBytes, length_leBytes, family,
        SeedFamily.width]
  | _ => rfl

theorem keySeeds_injective {p q : Pda} (hfamily : p.family = q.family)
    (hkey : p.keySeeds = q.keySeeds) : p = q := by
  cases p <;> cases q <;> cases hfamily <;>
    simpa [keySeeds, seeds, Operation.toBytes, keyBytes_injective.eq_iff,
      toBeBytes_injective.eq_iff, Operation.toU8_injective.eq_iff] using hkey

/-- The concatenated seeds determine the family of a record, and then its key. -/
theorem seedBytes_injective : Function.Injective seedBytes := by
  intro p q h
  rw [seedBytes_eq, seedBytes_eq] at h
  have hparts := eq_of_tagged_eq SeedFamily.apart (length_keySeeds p)
    (length_keySeeds q) h
  exact keySeeds_injective hparts.1 hparts.2

def signerSeeds (p : Pda) (bump : U8) : List (List U8) := p.seeds ++ [[bump]]

/-- No two records share their seeds, whatever bumps are chosen. -/
theorem signerSeeds_flatten_eq_iff (p q : Pda) (bump bump' : U8) :
    (p.signerSeeds bump).flatten = (q.signerSeeds bump').flatten ↔
      p = q ∧ bump = bump' := by
  simp only [signerSeeds, List.flatten_append, List.flatten_singleton]
  constructor
  · intro h
    have hparts := List.append_inj' h rfl
    exact ⟨seedBytes_injective hparts.1, List.cons.inj hparts.2 |>.1⟩
  · rintro ⟨rfl, rfl⟩
    rfl

/-- `find_program_address` under the bridge program. -/
def address (p : Pda) : Address := .pda p.seedBytes

theorem address_injective : Function.Injective address := by
  intro p q h
  exact seedBytes_injective (Address.pda.inj h)

@[simp] theorem address_inj {p q : Pda} : p.address = q.address ↔ p = q :=
  address_injective.eq_iff

end Pda

@[simp] theorem Pda.isWallet_address (p : Pda) :
    p.address.isWallet = false := rfl

def getAssociatedTokenAddress (wallet : Pubkey) (mint : Address) : Address :=
  .ata (.wallet wallet) mint

@[simp] theorem getAssociatedTokenAddress_ne_pda {wallet : Pubkey}
    {mint : Address} {p : Pda} :
    getAssociatedTokenAddress wallet mint ≠ p.address := nofun

@[simp] theorem pda_ne_getAssociatedTokenAddress {wallet : Pubkey}
    {mint : Address} {p : Pda} :
    p.address ≠ getAssociatedTokenAddress wallet mint := nofun

end SolBtcBridge.Program
