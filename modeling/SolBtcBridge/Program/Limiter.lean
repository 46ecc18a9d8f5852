import SolBtcBridge.Program.Verify

/-!
# The transfer limiter

Each (chain, token) pair has a ring buffer of 24 hourly totals.  A transfer
first moves the window forward, clearing slots from the oldest hour on, then
compares the sum of all slots with the limit.
-/

namespace SolBtcBridge.Program

open SolBtcBridge.Foundation
open SolBtcBridge.Runtime

def currentHour (unixTimestamp : Int) : U32 :=
  BitVec.ofInt 32 unixTimestamp / 3600

def hourSlot (hour : U32) : Fin 24 := ⟨hour.toNat % 24, Nat.mod_lt _ (by decide)⟩

def clearSlots (startIdx : Nat) : Nat → Vector U64 24 → Vector U64 24
  | 0, slots => slots
  | n + 1, slots =>
      (clearSlots startIdx n slots).set ((startIdx + n) % 24) 0 (by omega)

/-- The number of hours the clock is ahead of the cursor, with `u32` wrap-around. -/
def hoursPassed (limiter : ChainTokenLimiter) (currentH : U32) : Nat :=
  (currentH - limiter.oldestHour).toNat

def slotsToClear (limiter : ChainTokenLimiter) (currentH : U32) : Nat :=
  min (hoursPassed limiter currentH) 24

def clearExpired (limiter : ChainTokenLimiter) (currentH : U32) :
    ChainTokenLimiter :=
  if 0 < hoursPassed limiter currentH then
    let startIdx := limiter.oldestHour.toNat % 24
    let cleared := slotsToClear limiter currentH
    { limiter with
      hourlyTransfers := clearSlots startIdx cleared limiter.hourlyTransfers
      oldestHour := limiter.oldestHour + BitVec.ofNat 32 cleared }
  else limiter

def checkTransfer (limiter : ChainTokenLimiter) (unixTimestamp : Int)
    (amount : U64) : Result (ChainTokenLimiter × LimitEvent) := do
  let currentH := currentHour unixTimestamp
  let limiter := clearExpired limiter currentH
  let currentSlot := hourSlot currentH
  let total ← orFail .panicked (checkedSum 0 limiter.hourlyTransfers.toList)
  let totalAfter ← addOrPanic total amount
  require (totalAfter.toNat ≤ limiter.totalLimit.toNat)
    (.program .transferLimitExceeded)
  let slot ← addOrPanic limiter.hourlyTransfers[currentSlot] amount
  let hourlyTransfers := limiter.hourlyTransfers.set currentSlot slot
  return ({ limiter with hourlyTransfers },
    { currentH, currentSlot := BitVec.ofNat 8 currentSlot.val,
      totalBefore := total, totalAfter })

def updateLimiter (limiter : ChainTokenLimiter) (unixTimestamp : Int)
    (msg : UpdateLimiterMsg) : ChainTokenLimiter :=
  if ¬ limiter.isInitialized then
    { isInitialized := true
      chainId := msg.chainId
      tokenId := msg.tokenId
      totalLimit := msg.totalLimit
      oldestHour := currentHour unixTimestamp
      hourlyTransfers := Vector.replicate 24 0 }
  else { limiter with totalLimit := msg.totalLimit }

def addOrUpdateLimiterWithSignatures (L : Ledger) (ctx : Context)
    (submitter : Pubkey) (numberOfSignatures : U8) (msg : UpdateLimiterMsg) :
    Result (Ledger × List Event) := do
  let chainPda := (Pda.supportedChain msg.targetChainId).address
  let tokenPda := (Pda.tokenConfig msg.targetChainId msg.tokenId).address
  let noncePda := (Pda.operationNonce .updateBridgeLimit).address
  let limiterPda := (Pda.limiter msg.targetChainId msg.tokenId).address
  let submitterAccount ← L.load Submitter (Pda.submitter submitter).address
  let _ ← L.load BridgeConfig (Pda.bridgeConfig msg.chainId).address
  let supportedChainConfig ← L.load SupportedChainConfig chainPda
  let tokenConfig ← L.load TokenConfig tokenPda
  let (L, nonceConfig) ← L.initIfNeeded Nonces noncePda (AnchorAccount.len Nonces)
  let (L, limiter) ← L.initIfNeeded ChainTokenLimiter limiterPda
    (AnchorAccount.len ChainTokenLimiter)
  require submitterAccount.isSubmitter (.program .notSubmitter)
  require supportedChainConfig.isInitialized
    (.program .supportedChainConfigNotInitialized)
  require supportedChainConfig.supported
    (.program .supportedChainConfigNoSupported)
  require tokenConfig.isInitialized (.program .tokenConfigNotInitialized)
  require (¬ tokenConfig.withdrawPaused) (.program .withdrawPaused)
  let nonceConfig ← verify ctx.remainingAccounts L ctx.instructions
    numberOfSignatures msg .updateBridgeLimit nonceConfig
  let limiter := updateLimiter limiter ctx.unixTimestamp msg
  let event : LimitUpdated :=
    { chainId := limiter.chainId, tokenId := limiter.tokenId,
      totalLimit := msg.totalLimit, nonce := nonceConfig.nonce }
  let L ← L.exit chainPda supportedChainConfig
  let L ← L.exit tokenPda tokenConfig
  let L ← L.exit noncePda nonceConfig
  let L ← L.exit limiterPda limiter
  return (L, [.limitUpdated event])

end SolBtcBridge.Program
