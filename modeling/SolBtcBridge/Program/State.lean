import SolBtcBridge.Runtime.Anchor

/-!
# Account records

The record types of the four `state.rs` files, each with its borsh layout and
the `LEN` its accounts are created with.  The layout lemmas show that every
hand-computed `LEN` is the discriminator plus exactly the encoded fields.
-/

namespace SolBtcBridge.Program

open SolBtcBridge.Foundation
open SolBtcBridge.Runtime

def pubkeyCodec : Codec Pubkey := Codec.word 32

abbrev Padding := Vector U64 10

def paddingCodec : Codec Padding := Codec.u64.array 10

structure BridgeConfig where
  isInitialized : Bool
  withdrawPaused : Bool
  chainId : U8
  admin : Pubkey
  feeRecipient : Pubkey
  sbtcMint : Pubkey
  padding : Padding
  deriving DecidableEq

structure TokenConfig where
  isInitialized : Bool
  withdrawPaused : Bool
  tokenId : U8
  chainId : U8
  native : Bool
  tokenFeePercentage : U64
  tokenMinAmount : U64
  mintTotal : U128
  padding : Padding
  deriving DecidableEq

structure SupportedChainConfig where
  isInitialized : Bool
  chainId : U8
  supported : Bool
  mintTotal : U128
  padding : Padding
  deriving DecidableEq

structure Nonces where
  isInitialized : Bool
  nonce : U64
  padding : Padding
  deriving DecidableEq

structure NoncesDummy where
  deriving DecidableEq

structure Committee where
  isInitialized : Bool
  index : Pubkey
  stakeAmount : U16
  isBlocklisted : Bool
  padding : Padding
  deriving DecidableEq

structure Submitter where
  isInitialized : Bool
  submitter : Pubkey
  isSubmitter : Bool
  padding : Padding
  deriving DecidableEq

structure ChainTokenLimiter where
  isInitialized : Bool
  chainId : U8
  tokenId : U8
  totalLimit : U64
  oldestHour : U32
  hourlyTransfers : Vector U64 24
  deriving DecidableEq

/-! ## Layouts -/

theorem u8_fixedSize : Codec.u8.FixedSize 1 := Codec.word_fixedSize 1

theorem u16_fixedSize : Codec.u16.FixedSize 2 := Codec.word_fixedSize 2

theorem u32_fixedSize : Codec.u32.FixedSize 4 := Codec.word_fixedSize 4

theorem u64_fixedSize : Codec.u64.FixedSize 8 := Codec.word_fixedSize 8

theorem u128_fixedSize : Codec.u128.FixedSize 16 := Codec.word_fixedSize 16

theorem pubkey_fixedSize : pubkeyCodec.FixedSize 32 := Codec.word_fixedSize 32

theorem padding_fixedSize : paddingCodec.FixedSize (10 * 8) :=
  u64_fixedSize.array 10

def BridgeConfig.codec : Codec BridgeConfig :=
  (Codec.bool.prod <| Codec.bool.prod <| Codec.u8.prod <| pubkeyCodec.prod <|
    pubkeyCodec.prod <| pubkeyCodec.prod paddingCodec).imap
    (fun (a, b, c, d, e, f, g) => ⟨a, b, c, d, e, f, g⟩)
    (fun r => (r.isInitialized, r.withdrawPaused, r.chainId, r.admin,
      r.feeRecipient, r.sbtcMint, r.padding))
    (fun _ => rfl) (fun _ => rfl)

def TokenConfig.codec : Codec TokenConfig :=
  (Codec.bool.prod <| Codec.bool.prod <| Codec.u8.prod <| Codec.u8.prod <|
    Codec.bool.prod <| Codec.u64.prod <| Codec.u64.prod <|
    Codec.u128.prod paddingCodec).imap
    (fun (a, b, c, d, e, f, g, h, i) => ⟨a, b, c, d, e, f, g, h, i⟩)
    (fun r => (r.isInitialized, r.withdrawPaused, r.tokenId, r.chainId,
      r.native, r.tokenFeePercentage, r.tokenMinAmount, r.mintTotal, r.padding))
    (fun _ => rfl) (fun _ => rfl)

def SupportedChainConfig.codec : Codec SupportedChainConfig :=
  (Codec.bool.prod <| Codec.u8.prod <| Codec.bool.prod <|
    Codec.u128.prod paddingCodec).imap
    (fun (a, b, c, d, e) => ⟨a, b, c, d, e⟩)
    (fun r => (r.isInitialized, r.chainId, r.supported, r.mintTotal, r.padding))
    (fun _ => rfl) (fun _ => rfl)

def Nonces.codec : Codec Nonces :=
  (Codec.bool.prod <| Codec.u64.prod paddingCodec).imap
    (fun (a, b, c) => ⟨a, b, c⟩)
    (fun r => (r.isInitialized, r.nonce, r.padding))
    (fun _ => rfl) (fun _ => rfl)

def NoncesDummy.codec : Codec NoncesDummy :=
  Codec.unit.imap (fun _ => ⟨⟩) (fun _ => ()) (fun _ => rfl) (fun _ => rfl)

def Committee.codec : Codec Committee :=
  (Codec.bool.prod <| pubkeyCodec.prod <| Codec.u16.prod <|
    Codec.bool.prod paddingCodec).imap
    (fun (a, b, c, d, e) => ⟨a, b, c, d, e⟩)
    (fun r => (r.isInitialized, r.index, r.stakeAmount, r.isBlocklisted,
      r.padding))
    (fun _ => rfl) (fun _ => rfl)

def Submitter.codec : Codec Submitter :=
  (Codec.bool.prod <| pubkeyCodec.prod <| Codec.bool.prod paddingCodec).imap
    (fun (a, b, c, d) => ⟨a, b, c, d⟩)
    (fun r => (r.isInitialized, r.submitter, r.isSubmitter, r.padding))
    (fun _ => rfl) (fun _ => rfl)

def ChainTokenLimiter.codec : Codec ChainTokenLimiter :=
  (Codec.bool.prod <| Codec.u8.prod <| Codec.u8.prod <| Codec.u64.prod <|
    Codec.u32.prod (Codec.u64.array 24)).imap
    (fun (a, b, c, d, e, f) => ⟨a, b, c, d, e, f⟩)
    (fun r => (r.isInitialized, r.chainId, r.tokenId, r.totalLimit,
      r.oldestHour, r.hourlyTransfers))
    (fun _ => rfl) (fun _ => rfl)

instance : AnchorAccount BridgeConfig where
  discriminator := [40, 206, 51, 233, 246, 40, 178, 85]
  codec := BridgeConfig.codec
  len := 8 + 1 + 1 + 1 + 32 + 32 + 32 + 10 * 8
  zeroed := ⟨false, false, 0, 0, 0, 0, Vector.replicate 10 0⟩
  length_discriminator := rfl
  header_le_len := by decide
  codec_fixedSize := (Codec.bool_fixedSize.prod <| Codec.bool_fixedSize.prod <|
    u8_fixedSize.prod <| pubkey_fixedSize.prod <| pubkey_fixedSize.prod <|
    pubkey_fixedSize.prod padding_fixedSize).imap
  encode_zeroed := by decide +kernel

instance : AnchorAccount TokenConfig where
  discriminator := [92, 73, 255, 43, 107, 51, 117, 101]
  codec := TokenConfig.codec
  len := 8 + 1 + 1 + 1 + 1 + 1 + 8 + 8 + 16 + 10 * 8
  zeroed := ⟨false, false, 0, 0, false, 0, 0, 0, Vector.replicate 10 0⟩
  length_discriminator := rfl
  header_le_len := by decide
  codec_fixedSize := (Codec.bool_fixedSize.prod <| Codec.bool_fixedSize.prod <|
    u8_fixedSize.prod <| u8_fixedSize.prod <| Codec.bool_fixedSize.prod <|
    u64_fixedSize.prod <| u64_fixedSize.prod <|
    u128_fixedSize.prod padding_fixedSize).imap
  encode_zeroed := by decide +kernel

instance : AnchorAccount SupportedChainConfig where
  discriminator := [253, 85, 88, 130, 136, 25, 173, 235]
  codec := SupportedChainConfig.codec
  len := 8 + 1 + 1 + 1 + 16 + 10 * 8
  zeroed := ⟨false, 0, false, 0, Vector.replicate 10 0⟩
  length_discriminator := rfl
  header_le_len := by decide
  codec_fixedSize := (Codec.bool_fixedSize.prod <| u8_fixedSize.prod <|
    Codec.bool_fixedSize.prod <| u128_fixedSize.prod padding_fixedSize).imap
  encode_zeroed := by decide +kernel

instance : AnchorAccount Nonces where
  discriminator := [11, 161, 69, 123, 206, 79, 55, 34]
  codec := Nonces.codec
  len := 8 + 1 + 8 + 10 * 8
  zeroed := ⟨false, 0, Vector.replicate 10 0⟩
  length_discriminator := rfl
  header_le_len := by decide
  codec_fixedSize := (Codec.bool_fixedSize.prod <|
    u64_fixedSize.prod padding_fixedSize).imap
  encode_zeroed := by decide +kernel

instance : AnchorAccount NoncesDummy where
  discriminator := [157, 238, 197, 185, 185, 240, 37, 40]
  codec := NoncesDummy.codec
  len := 8
  zeroed := ⟨⟩
  length_discriminator := rfl
  header_le_len := by decide
  codec_fixedSize := Codec.unit_fixedSize.imap
  encode_zeroed := rfl

instance : AnchorAccount Committee where
  discriminator := [96, 136, 210, 244, 137, 110, 178, 104]
  codec := Committee.codec
  len := 8 + 1 + 32 + 2 + 1 + 10 * 8
  zeroed := ⟨false, 0, 0, false, Vector.replicate 10 0⟩
  length_discriminator := rfl
  header_le_len := by decide
  codec_fixedSize := (Codec.bool_fixedSize.prod <| pubkey_fixedSize.prod <|
    u16_fixedSize.prod <| Codec.bool_fixedSize.prod padding_fixedSize).imap
  encode_zeroed := by decide +kernel

instance : AnchorAccount Submitter where
  discriminator := [152, 236, 111, 227, 188, 231, 38, 129]
  codec := Submitter.codec
  len := 8 + 1 + 32 + 1 + 10 * 8
  zeroed := ⟨false, 0, false, Vector.replicate 10 0⟩
  length_discriminator := rfl
  header_le_len := by decide
  codec_fixedSize := (Codec.bool_fixedSize.prod <| pubkey_fixedSize.prod <|
    Codec.bool_fixedSize.prod padding_fixedSize).imap
  encode_zeroed := by decide +kernel

instance : AnchorAccount ChainTokenLimiter where
  discriminator := [19, 12, 9, 105, 36, 80, 235, 159]
  codec := ChainTokenLimiter.codec
  len := 8 + 1 + 1 + 1 + 8 + 4 + 24 * 8
  zeroed := ⟨false, 0, 0, 0, 0, Vector.replicate 24 0⟩
  length_discriminator := rfl
  header_le_len := by decide
  codec_fixedSize := (Codec.bool_fixedSize.prod <| u8_fixedSize.prod <|
    u8_fixedSize.prod <| u64_fixedSize.prod <|
    u32_fixedSize.prod (u64_fixedSize.array 24)).imap
  encode_zeroed := by decide +kernel

end SolBtcBridge.Program
