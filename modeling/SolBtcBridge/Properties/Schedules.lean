import SolBtcBridge.Effects.Footprints
import SolBtcBridge.Foundation.Schedules
import SolBtcBridge.Properties.MintTotals

/-!
# Transactions in parallel

The accounts of an input, and which of them it may write, are known before it
runs, and the validator runs inputs side by side unless one writes what another
touches.  Every schedule that respects these conflicts gives the same ledger.
-/

namespace SolBtcBridge.Properties

open SolBtcBridge.Foundation
open SolBtcBridge.Runtime
open SolBtcBridge.Program
open SolBtcBridge.Effects

theorem step_footprint (host : Host) :
    Footprint (step host) readAccounts writeAccounts where
  frame h := by
    rcases step_follows host _ _ (fun _ _ => rfl) h with ⟨_, -, hwithin⟩
    exact hwithin.frame
  congr hagrees h := by
    rcases step_follows host _ _ hagrees h with ⟨L₁', h', hwithin⟩
    exact ⟨L₁', h', hwithin.agrees.mono Set.subset_union_right⟩

/-- Neither input writes an account that the other touches. -/
abbrev Parallel (i j : Input) : Prop :=
  Independent readAccounts writeAccounts i j

private theorem ata_inj {owner owner' : Pubkey} {mint mint' : Address} :
    getAssociatedTokenAddress owner mint =
        getAssociatedTokenAddress owner' mint' ↔
      owner = owner' ∧ mint = mint' := by
  simp [getAssociatedTokenAddress]

section

variable {ctx ctx' : Context} {submitter submitter' user user' : Pubkey}
  {n n' : U8} {mint mint' : MintSbtcMessage} {withdrawal : WithdrawBtcMessage}
  {limit : UpdateLimiterMsg}

private theorem mint_apart (hsource : mint.sourceChainId ≠ mint'.sourceChainId)
    (htarget : mint.toChainId ≠ mint'.toChainId) :
    Disjoint (writeAccounts (.mintSbtcWithSignatures ctx submitter n mint))
      (readAccounts (.mintSbtcWithSignatures ctx' submitter' n' mint') ∪
        writeAccounts (.mintSbtcWithSignatures ctx' submitter' n' mint')) := by
  rw [Set.disjoint_left]
  intro a ha
  simp only [writeAccounts, Set.mem_insert_iff, Set.mem_singleton_iff] at ha
  rcases ha with rfl | rfl | rfl | rfl | rfl | rfl | rfl <;>
    simp [readAccounts, writeAccounts, signerRecords, ata_inj, hsource, htarget]

private theorem parallel_mints :
    Parallel (.mintSbtcWithSignatures ctx submitter n mint)
        (.mintSbtcWithSignatures ctx' submitter' n' mint') ↔
      mint.sourceChainId ≠ mint'.sourceChainId ∧
        mint.toChainId ≠ mint'.toChainId := by
  constructor
  · rintro ⟨h, -⟩
    rw [Set.disjoint_left] at h
    constructor
    · intro heq
      exact h (a := (Pda.supportedChain mint.sourceChainId).address)
        (by simp [writeAccounts]) (by simp [writeAccounts, heq])
    · intro heq
      exact h (a := (Pda.bridgeConfig mint.toChainId).address)
        (by simp [writeAccounts]) (by simp [writeAccounts, heq])
  · rintro ⟨hsource, htarget⟩
    exact ⟨mint_apart hsource htarget, mint_apart hsource.symm htarget.symm⟩

private theorem parallel_mint_withdrawal :
    Parallel (.mintSbtcWithSignatures ctx submitter n mint)
        (.withdrawBtc ctx' user withdrawal) ↔
      mint.toChainId ≠ withdrawal.chainId ∧
        mint.sourceChainId ≠ withdrawal.toChainId := by
  constructor
  · rintro ⟨h, -⟩
    rw [Set.disjoint_left] at h
    constructor
    · intro heq
      exact h (a := (Pda.bridgeConfig mint.toChainId).address)
        (by simp [writeAccounts]) (by simp [readAccounts, heq])
    · intro heq
      exact h (a := (Pda.supportedChain mint.sourceChainId).address)
        (by simp [writeAccounts]) (by simp [readAccounts, heq])
  · rintro ⟨hbridge, hchain⟩
    constructor
    · rw [Set.disjoint_left]
      intro a ha
      simp only [writeAccounts, Set.mem_insert_iff, Set.mem_singleton_iff] at ha
      rcases ha with rfl | rfl | rfl | rfl | rfl | rfl | rfl <;>
        simp [readAccounts, writeAccounts, listedAtas, ata_inj, hbridge, hchain]
    · rw [Set.disjoint_left]
      rintro a ((rfl | rfl) | ⟨-, owner, rfl⟩) <;>
        simp [readAccounts, writeAccounts, signerRecords, ata_inj, hbridge.symm]

private theorem parallel_mint_limit :
    Parallel (.mintSbtcWithSignatures ctx submitter n mint)
        (.addOrUpdateLimiterWithSignatures ctx' submitter' n' limit) ↔
      mint.toChainId ≠ limit.chainId ∧
        mint.sourceChainId ≠ limit.targetChainId := by
  constructor
  · rintro ⟨h, -⟩
    rw [Set.disjoint_left] at h
    constructor
    · intro heq
      exact h (a := (Pda.bridgeConfig mint.toChainId).address)
        (by simp [writeAccounts]) (by simp [readAccounts, heq])
    · intro heq
      exact h (a := (Pda.supportedChain mint.sourceChainId).address)
        (by simp [writeAccounts]) (by simp [writeAccounts, heq])
  · rintro ⟨hbridge, hchain⟩
    constructor
    · rw [Set.disjoint_left]
      intro a ha
      simp only [writeAccounts, Set.mem_insert_iff, Set.mem_singleton_iff] at ha
      rcases ha with rfl | rfl | rfl | rfl | rfl | rfl | rfl <;>
        simp [readAccounts, writeAccounts, signerRecords, hbridge, hchain]
    · rw [Set.disjoint_left]
      rintro a (rfl | rfl | rfl | rfl) <;>
        simp [readAccounts, writeAccounts, signerRecords, hchain.symm]

private theorem parallel_withdrawal_limit :
    Parallel (.withdrawBtc ctx user withdrawal)
        (.addOrUpdateLimiterWithSignatures ctx' submitter' n' limit) ↔
      withdrawal.toChainId ≠ limit.targetChainId := by
  constructor
  · rintro ⟨-, h⟩ heq
    rw [Set.disjoint_left] at h
    exact h (a := (Pda.supportedChain limit.targetChainId).address)
      (by simp [writeAccounts]) (by simp [readAccounts, heq])
  · intro hchain
    constructor
    · rw [Set.disjoint_left]
      rintro a ((rfl | rfl) | ⟨-, owner, rfl⟩) <;>
        simp [readAccounts, writeAccounts, signerRecords]
    · rw [Set.disjoint_left]
      rintro a (rfl | rfl | rfl | rfl) <;>
        simp [readAccounts, writeAccounts, listedAtas, hchain.symm]

private theorem not_parallel {i j : Input} {a : Address}
    (hi : a ∈ writeAccounts i) (hj : a ∈ writeAccounts j) :
    ¬ Parallel i j := fun h =>
  Set.disjoint_left.mp h.1 hi (.inr hj)

end

/--
Two schedules of the same transactions that order every conflicting pair alike
give the same ledger, and accept the same transactions with the same events.
-/
theorem schedules_agree (host : Host) (inputs : List Input) {α : Type}
    (transaction : α → Input) (xs ys : List α) (hnodup : xs.Nodup)
    (hperm : xs.Perm ys)
    (order : ∀ x y, ¬ Parallel (transaction x) (transaction y) →
      [x, y].Sublist xs → [x, y].Sublist ys) :
    (run (step host) (execute host inputs).state (xs.map transaction)).Agrees
      (run (step host) (execute host inputs).state (ys.map transaction)) :=
  (step_footprint host).run_agrees transaction hnodup hperm order _

theorem schedules_agree_sample :
    (run (step sampleHost)
      (execute sampleHost [sampleBridge, sampleCommittee, sampleLimiter]).state
      [sampleMint, .sendLamports (.wallet sampleFeeRecipient) 1000]).Agrees
    (run (step sampleHost)
      (execute sampleHost [sampleBridge, sampleCommittee, sampleLimiter]).state
      [.sendLamports (.wallet sampleFeeRecipient) 1000, sampleMint]) := by
  refine schedules_agree sampleHost [sampleBridge, sampleCommittee, sampleLimiter]
    (fun mints : Bool => if mints then sampleMint
      else .sendLamports (.wallet sampleFeeRecipient) 1000)
    [true, false] [false, true] (by decide) (.swap false true []) ?_
  have hparallel : Parallel sampleMint
      (.sendLamports (.wallet sampleFeeRecipient) 1000) := by
    constructor <;>
      simp [sampleMint, readAccounts, writeAccounts, signerRecords, Pda.address,
        getAssociatedTokenAddress]
  rintro (_ | _) (_ | _) hconflict hsublist
  · exact absurd hsublist (by decide)
  · exact absurd hsublist (by decide)
  · exact absurd hparallel hconflict
  · exact absurd hsublist (by decide)

end SolBtcBridge.Properties
