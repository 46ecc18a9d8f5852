import SolBtcBridge.Properties.AdminAcceptance
import SolBtcBridge.Properties.BridgeHistory
import SolBtcBridge.Properties.LimitAcceptance
import SolBtcBridge.Properties.MintAcceptance

/-!
# Who may change a record

Every change of a record has the right signature behind it: the super
administrator's, an administrator's, the committee's or the holder's.  The
committee and the submitters are appointed by administrators, and these by the
super administrator, so every right in a run goes back to that one key.
-/

namespace SolBtcBridge.Properties

open SolBtcBridge.Foundation
open SolBtcBridge.Runtime
open SolBtcBridge.Program
open SolBtcBridge.Effects

def Registered (L : Ledger) (submitter : Pubkey) : Prop :=
  ∃ r : Submitter, L.Stores (Pda.submitter submitter).address r ∧
    r.isSubmitter = true

/-- The right that an input has to have. -/
def Entitled (L : Ledger) : Input → Prop
  | .createBridgeConfig _ payer .. => payer = Constants.supperAdmin
  | .addOrUpdateChain payer chainId .. => Administered L payer chainId
  | .addOrUpdateChainToken payer chainId .. => Administered L payer chainId
  | .createBridgeCommittee _ payer chainId .. => Administered L payer chainId
  | .addOrUpdateCommittee payer chainId .. => Administered L payer chainId
  | .addOrUpdateSubmitter payer chainId .. => Administered L payer chainId
  | .mintSbtcWithSignatures ctx submitter numberOfSignatures msg =>
      Registered L submitter ∧
        Approved ctx.remainingAccounts L ctx.instructions numberOfSignatures msg
          .tokenTransfer NoncesDummy.mk
  | .withdrawBtc _ user msg => msg.fromAddress = user
  | .addOrUpdateLimiterWithSignatures ctx submitter numberOfSignatures msg =>
      Registered L submitter ∧ ∃ r : Nonces,
        L.Provides (Pda.operationNonce .updateBridgeLimit).address r ∧
          Approved ctx.remainingAccounts L ctx.instructions numberOfSignatures
            msg .updateBridgeLimit r
  | _ => False

section

variable {host : Host}

private theorem entitled_of_change {inputs : List Input} {e : BridgeRecord}
    {p : Pda} (hreached : (execute host inputs).state = e.pre)
    (hstep : IsStep (step host) e)
    (hchange : RecordChange e.pre e.post e.input p) :
    Entitled e.pre e.input := by
  rcases e with ⟨L, input, events, L'⟩
  simp only at hreached hchange ⊢
  have hwf := execute_wellFormed host inputs
  have hadmin : IsAdministrative input → AdminAdmissible host L input := by
    intro h
    rw [← hreached]
    refine (admin_isOk_iff hwf (execute_mintsOwned inputs)
      (execute_rentExempt host inputs) input).mp ⟨h, (L', events), ?_⟩
    rw [hreached]
    exact hstep
  rw [hreached] at hwf
  cases input with
  | createBridgeConfig => exact (hadmin trivial).payer
  | addOrUpdateChain => exact (hadmin trivial).1
  | addOrUpdateChainToken => exact (hadmin trivial).1
  | createBridgeCommittee => exact (hadmin trivial).1
  | addOrUpdateCommittee => exact hadmin trivial
  | addOrUpdateSubmitter => exact hadmin trivial
  | mintSbtcWithSignatures =>
      have hadmissible := admissible_of_mint_ok hwf hstep
      exact ⟨hadmissible.submitter, hadmissible.approved⟩
  | withdrawBtc =>
      rcases withdrawEffect_of_ok hwf hstep with ⟨effect⟩
      exact effect.fromUser
  | addOrUpdateLimiterWithSignatures =>
      have hadmissible := admissible_of_limit_ok hwf hstep
      exact ⟨hadmissible.submitter, hadmissible.approved⟩
  | sendLamports => cases hchange
  | openTokenAccount => cases hchange
  | sendTokens => cases hchange

private theorem reached_of_split {inputs : List Input}
    {before after : List BridgeRecord} {e : BridgeRecord}
    (h : (execute host inputs).log = before ++ e :: after) :
    IsStep (step host) e ∧
      ∃ earlier, execute host earlier = ⟨e.pre, before⟩ := by
  rcases run_split h with ⟨hstep, earlier, later, -, hearlier⟩
  exact ⟨hstep, earlier, hearlier⟩

end

/-- The payer gives the member this stake and flag, in the name of the bridge. -/
def AppointsMember (key : Pubkey) (stake : U16) (isBlocklisted : Bool)
    (payer : Pubkey) (b : U8) : Input → Prop
  | .createBridgeCommittee _ admin chainId _ committee stakes =>
      admin = payer ∧ chainId = b ∧ (key, stake) ∈ committee.zip stakes ∧
        isBlocklisted = false
  | .addOrUpdateCommittee admin chainId member share flag =>
      admin = payer ∧ chainId = b ∧ member = key ∧ share = stake ∧
        flag = isBlocklisted
  | _ => False

def AppointsSubmitter (key : Pubkey) (isSubmitter : Bool) (payer : Pubkey)
    (b : U8) : Input → Prop
  | .createBridgeCommittee _ admin chainId submitter _ _ =>
      admin = payer ∧ chainId = b ∧ submitter = key ∧ isSubmitter = true
  | .addOrUpdateSubmitter admin chainId submitter flag =>
      admin = payer ∧ chainId = b ∧ submitter = key ∧ flag = isSubmitter
  | _ => False

/--
The record was last changed by an appointment, and the super administrator had
named the one who made it administrator of the bridge.
-/
def AppointedLast (p : Pda) (appoints : Pubkey → U8 → Input → Prop)
    (log : List BridgeRecord) : Prop :=
  ∃ before e after, log = before ++ e :: after ∧
    (∃ payer b feeRecipient, appoints payer b e.input ∧
      ∃ d ∈ before, Creates b payer feeRecipient d.input) ∧
    ∀ d ∈ after, (d.post p.address).body = (d.pre p.address).body

section

variable {host : Host} {inputs : List Input}

private theorem administrator_named {payer : Pubkey} {b : U8}
    (h : Administered (execute host inputs).state payer b) :
    ∃ d ∈ (execute host inputs).log, ∃ feeRecipient,
      Creates b payer feeRecipient d.input := by
  rcases h with ⟨r, hstores, rfl⟩
  rcases run_last_change (fun L : Ledger => (L (Pda.bridgeConfig b).address).body)
    Ledger.empty inputs with hnone | ⟨before, d, after, hlog, hchanged, hlast, -⟩
  · exact absurd hnone hstores.not_vacant
  · have hmem : d ∈ (execute host inputs).log := by
      rw [execute, hlog]
      exact List.mem_append_right before List.mem_cons_self
    rcases bridge_step (b := b) (wellFormed_pre hmem) (isStep_of_mem hmem) with
      hsame | ⟨admin, feeRecipient, hcreates, -, hstores', -⟩
    · exact absurd hsame hchanged
    · have hsame : r = createdConfig host b admin feeRecipient := by
        refine hstores.unique ?_
        rw [Ledger.Stores, execute, ← hlast]
        exact hstores'
      exact ⟨d, hmem, feeRecipient, by rw [hsame]; exact hcreates⟩

private theorem appointed_of_stored {T : Type} [AnchorAccount T] {p : Pda}
    {r : T} {appoints : Pubkey → U8 → Input → Prop}
    (hchange : ∀ e : BridgeRecord, WellFormed e.pre →
      RecordChange e.pre e.post e.input p → e.post.Stores p.address r →
        ∃ payer b, appoints payer b e.input ∧
          (Entitled e.pre e.input → Administered e.pre payer b))
    (h : (execute host inputs).state.Stores p.address r) :
    AppointedLast p appoints (execute host inputs).log := by
  rcases run_last_change (fun L : Ledger => (L p.address).body) Ledger.empty
    inputs with hnone | ⟨before, e, after, hlog, hchanged, hlast, hkept⟩
  · exact absurd hnone h.not_vacant
  · rcases reached_of_split hlog with ⟨hstep, earlier, hearlier⟩
    have hpre : (execute host earlier).state = e.pre := by rw [hearlier]
    have hwf : WellFormed e.pre := hpre ▸ execute_wellFormed host earlier
    rcases (step_evolves hwf hstep p).resolve_left hchanged with hrecord
    rcases hchange e hwf hrecord (hlast.trans h) with ⟨payer, b, happoints, hadmin⟩
    have hadministered := hadmin (entitled_of_change hpre hstep hrecord)
    rw [← hpre] at hadministered
    rcases administrator_named hadministered with ⟨d, hd, feeRecipient, hcreates⟩
    rw [hearlier] at hd
    exact ⟨before, e, after, hlog, ⟨payer, b, feeRecipient, happoints, d, hd,
      hcreates⟩, hkept⟩

private theorem appointsMember_of_change {e : BridgeRecord} {key : Pubkey}
    {r : Committee} (hchange : RecordChange e.pre e.post e.input (.committee key))
    (h : e.post.Stores (Pda.committee key).address r) :
    ∃ payer b, AppointsMember key r.stakeAmount r.isBlocklisted payer b e.input ∧
      (Entitled e.pre e.input → Administered e.pre payer b) := by
  rcases e with ⟨L, input, events, L'⟩
  cases hchange with
  | @memberListed ctx payer chainId _ _ _ _ share hmem _ hstores =>
      obtain rfl := hstores.unique h
      exact ⟨payer, chainId, ⟨rfl, rfl, hmem, rfl⟩, id⟩
  | @memberSet payer chainId _ stake isBlocklisted record _ hstores =>
      obtain rfl := hstores.unique h
      refine ⟨payer, chainId, ⟨rfl, rfl, rfl, ?_, ?_⟩, id⟩
      · unfold Committee.addOrUpdate
        split <;> rfl
      · unfold Committee.addOrUpdate
        split <;> rfl

private theorem appointsSubmitter_of_change {e : BridgeRecord} {key : Pubkey}
    {r : Submitter} (hwf : WellFormed e.pre)
    (hchange : RecordChange e.pre e.post e.input (.submitter key))
    (h : e.post.Stores (Pda.submitter key).address r) :
    ∃ payer b, AppointsSubmitter key r.isSubmitter payer b e.input ∧
      (Entitled e.pre e.input → Administered e.pre payer b) := by
  rcases e with ⟨L, input, events, L'⟩
  cases hchange with
  | @submitterCreated ctx payer chainId _ _ _ record hprovides hstores =>
      obtain rfl := hstores.unique h
      refine ⟨payer, chainId, ⟨rfl, rfl, rfl, ?_⟩, id⟩
      rw [Submitter.create, submitter_unmarked hwf hprovides]
      rfl
  | @submitterSet payer chainId _ isSubmitter record _ hstores =>
      obtain rfl := hstores.unique h
      refine ⟨payer, chainId, ⟨rfl, rfl, rfl, ?_⟩, id⟩
      unfold Submitter.addOrUpdate
      split <;> rfl

end

/--
Every member and every submitter holds its place by the last appointment of an
administrator whom the super administrator named.
-/
theorem chain_of_trust (host : Host) (inputs : List Input) :
    (∀ key (r : Committee),
      (execute host inputs).state.Stores (Pda.committee key).address r →
        AppointedLast (.committee key)
          (AppointsMember key r.stakeAmount r.isBlocklisted)
          (execute host inputs).log) ∧
    ∀ key (r : Submitter),
      (execute host inputs).state.Stores (Pda.submitter key).address r →
        AppointedLast (.submitter key) (AppointsSubmitter key r.isSubmitter)
          (execute host inputs).log := by
  constructor
  · intro key r
    exact appointed_of_stored fun e _ hchange h =>
      appointsMember_of_change hchange h
  · intro key r
    exact appointed_of_stored fun e hwf hchange h =>
      appointsSubmitter_of_change hwf hchange h

end SolBtcBridge.Properties
