import SolBtcBridge.Effects.Footprints

/-!
# What a transfer can observe

The seeds of four families of records name no bridge, so all bridges share
them.  A mint or a withdrawal reads a few of these records by name and never
looks at the others.
-/

namespace SolBtcBridge.Effects

open SolBtcBridge.Foundation
open SolBtcBridge.Runtime
open SolBtcBridge.Program

/-- No bridge appears in the seeds of the record. -/
def isShared : Pda → Bool
  | .supportedChain _ => true
  | .tokenConfig _ _ => true
  | .committee _ => true
  | .submitter _ => true
  | _ => false

inductive Reads : Input → Pda → Prop
  | mintSubmitter {ctx submitter signatures msg} :
      Reads (.mintSbtcWithSignatures ctx submitter signatures msg)
        (.submitter submitter)
  | mintChain {ctx submitter signatures msg} :
      Reads (.mintSbtcWithSignatures ctx submitter signatures msg)
        (.supportedChain msg.sourceChainId)
  | mintToken {ctx submitter signatures msg} :
      Reads (.mintSbtcWithSignatures ctx submitter signatures msg)
        (.tokenConfig msg.sourceChainId msg.sourceTokenId)
  | mintSigner {ctx submitter signatures msg key} :
      IsSigner ctx.instructions signatures msg key →
      Reads (.mintSbtcWithSignatures ctx submitter signatures msg)
        (.committee key)
  | withdrawChain {ctx user msg} :
      Reads (.withdrawBtc ctx user msg) (.supportedChain msg.toChainId)
  | withdrawToken {ctx user msg} :
      Reads (.withdrawBtc ctx user msg) (.tokenConfig msg.toChainId msg.toTokenId)

def unshared : Set Address := {a | ∀ p : Pda, isShared p = true → a ≠ p.address}

/-- Everything but the shared records that the input does not look at. -/
def observed (i : Input) : Set Address :=
  {a | ∀ p : Pda, isShared p = true → a = p.address → Reads i p}

theorem exists_of_not_mem_unshared {a : Address} (h : a ∉ unshared) :
    ∃ p, isShared p = true ∧ a = p.address := by
  by_contra hnone
  apply h
  intro p hp heq
  exact hnone ⟨p, hp, heq⟩

private theorem mem_observed {i : Input} {p : Pda}
    (h : isShared p = false ∨ Reads i p) :
    p.address ∈ observed i := by
  intro q hq heq
  rw [Pda.address_inj] at heq
  subst heq
  rcases h with hprivate | hreads
  · rw [hprivate] at hq
    contradiction
  · exact hreads

private theorem ata_mem_observed {i : Input} {owner : Pubkey} {mint : Address} :
    getAssociatedTokenAddress owner mint ∈ observed i := by
  intro p _ heq
  exact absurd heq getAssociatedTokenAddress_ne_pda

theorem unshared_subset_observed (i : Input) : unshared ⊆ observed i := by
  intro a ha p hp heq
  exact absurd heq (ha p hp)

private theorem alike_of_within {S : Set Address} {base : Ledger} {α : Type}
    {x y : Ledger × α} (h : Ledger.WithinPair S S base x y) :
    Ledger.Alike S x y :=
  ⟨h.1.agrees.mono Set.subset_union_left, h.2⟩

theorem mintSbtcWithSignatures_local {L L' : Ledger} {ctx : Context}
    {submitter : Pubkey} {signatures : U8} {msg : MintSbtcMessage}
    (h : Set.EqOn L L'
      (observed (.mintSbtcWithSignatures ctx submitter signatures msg))) :
    Related (Ledger.Alike
        (observed (.mintSbtcWithSignatures ctx submitter signatures msg)))
      (mintSbtcWithSignatures L ctx submitter signatures msg)
      (mintSbtcWithSignatures L' ctx submitter signatures msg) := by
  rw [← Set.union_self (observed _)] at h
  refine (mintSbtcWithSignatures_within (.start h) ?_ ?_).imp
    fun _ _ _ _ hwithin => alike_of_within hwithin
  · rintro a (rfl | ⟨key, hkey, rfl⟩)
    · exact mem_observed (.inr .mintSubmitter)
    · exact mem_observed (.inr (.mintSigner hkey))
  · intro a ha
    simp only [writeAccounts, Set.mem_insert_iff, Set.mem_singleton_iff] at ha
    rcases ha with rfl | rfl | rfl | rfl | rfl | rfl | rfl
    · exact mem_observed (.inl rfl)
    · exact mem_observed (.inr .mintChain)
    · exact mem_observed (.inr .mintToken)
    · exact mem_observed (.inl rfl)
    · exact mem_observed (.inl rfl)
    · exact mem_observed (.inl rfl)
    · exact ata_mem_observed

theorem withdrawBtc_local {L L' : Ledger} {ctx : Context} {user : Pubkey}
    {msg : WithdrawBtcMessage}
    (h : Set.EqOn L L' (observed (.withdrawBtc ctx user msg))) :
    Related (Ledger.Alike (observed (.withdrawBtc ctx user msg)))
      (withdrawBtc L ctx user msg) (withdrawBtc L' ctx user msg) := by
  rw [← Set.union_self (observed _)] at h
  refine (withdrawBtc_within (.start h) ?_ ?_).imp
    fun _ _ _ _ hwithin => alike_of_within hwithin
  · intro a ha
    simp only [readAccounts, Set.mem_insert_iff, Set.mem_singleton_iff] at ha
    rcases ha with rfl | rfl | rfl
    · exact .inl (mem_observed (.inl rfl))
    · exact .inl (mem_observed (.inr .withdrawChain))
    · exact .inl (mem_observed (.inr .withdrawToken))
  · rintro a ((rfl | rfl) | ⟨-, owner, rfl⟩)
    · exact mem_observed (.inl rfl)
    · exact mem_observed (.inl rfl)
    · exact ata_mem_observed

end SolBtcBridge.Effects
