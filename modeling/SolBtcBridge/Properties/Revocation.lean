import SolBtcBridge.Properties.MintTotals

/-!
# Revoked submitters

Two instructions write a submitter record.  The one that creates committees
enables the submitter it names unless the record is marked as initialised, and
no instruction ever sets that mark.  A revocation therefore lasts until the
submitter is named in another committee creation.
-/

namespace SolBtcBridge.Properties

open SolBtcBridge.Foundation
open SolBtcBridge.Runtime
open SolBtcBridge.Program
open SolBtcBridge.Effects

def submitterFlag (s : Pubkey) (L : Ledger) : Option Bool :=
  (L.fetch Submitter (Pda.submitter s).address).map fun r => r.isSubmitter

def setsSubmitter (s : Pubkey) (isSubmitter : Bool) : Input → Bool
  | .addOrUpdateSubmitter _ _ submitter flag =>
      submitter = s && flag = isSubmitter
  | _ => false

def namesSubmitter (s : Pubkey) : Input → Bool
  | .createBridgeCommittee _ _ _ submitter _ _ => submitter = s
  | _ => false

def submittedBy (s : Pubkey) : Input → Bool
  | .mintSbtcWithSignatures _ submitter _ _ => submitter = s
  | .addOrUpdateLimiterWithSignatures _ submitter _ _ => submitter = s
  | _ => false

/-- Between a revocation and a later submission there is a new grant. -/
def RevocationHolds (s : Pubkey) (t : BridgeTrace) : Prop :=
  ∀ before r between u after, t.log = before ++ r :: (between ++ u :: after) →
    setsSubmitter s false r.input = true → submittedBy s u.input = true →
    ∃ e ∈ between, setsSubmitter s true e.input = true

private theorem submitterFlag_of_stores {s : Pubkey} {L : Ledger}
    {record : Submitter} (h : L.Stores (Pda.submitter s).address record) :
    submitterFlag s L = some record.isSubmitter := by
  simp [submitterFlag, h.fetch]

theorem submitterFlag_set {host : Host} {e : BridgeRecord} {s : Pubkey}
    {flag : Bool} (hstep : IsStep (step host) e)
    (h : setsSubmitter s flag e.input = true) :
    submitterFlag s e.post = some flag := by
  obtain ⟨L, input, events, L'⟩ := e
  cases input with
  | addOrUpdateSubmitter payer chainId submitter isSubmitter =>
      simp only [setsSubmitter, Bool.and_eq_true, decide_eq_true_eq] at h
      obtain ⟨rfl, rfl⟩ := h
      rcases addOrUpdateSubmitter_eq_ok.mp hstep with ⟨-, hupserts, -⟩
      exact hupserts.map_fetch fun record => by
        unfold Submitter.addOrUpdate
        split <;> rfl
  | _ => simp [setsSubmitter] at h

theorem submitterFlag_of_submitted {host : Host} {e : BridgeRecord} {s : Pubkey}
    (hwf : WellFormed e.pre) (hstep : IsStep (step host) e)
    (h : submittedBy s e.input = true) : submitterFlag s e.pre = some true := by
  obtain ⟨L, input, events, L'⟩ := e
  cases input with
  | mintSbtcWithSignatures ctx submitter signatures msg =>
      obtain rfl : submitter = s := by simpa [submittedBy] using h
      obtain ⟨effect⟩ := mintEffect_of_ok hwf hstep
      rw [submitterFlag_of_stores effect.submitterStored, effect.isSubmitter]
  | addOrUpdateLimiterWithSignatures ctx submitter signatures msg =>
      obtain rfl : submitter = s := by simpa [submittedBy] using h
      obtain ⟨effect⟩ := limitEffect_of_ok hwf hstep
      rw [submitterFlag_of_stores effect.submitterStored, effect.isSubmitter]
  | _ => simp [submittedBy] at h

private theorem revoked_step {host : Host} {e : BridgeRecord} {s : Pubkey}
    (hwf : WellFormed e.pre) (hstep : IsStep (step host) e)
    (hgrant : setsSubmitter s true e.input ≠ true)
    (hname : namesSubmitter s e.input ≠ true)
    (hrevoked : submitterFlag s e.pre = some false) :
    submitterFlag s e.post = some false := by
  obtain ⟨L, input, events, L'⟩ := e
  rcases step_evolves hwf hstep (.submitter s) with heq | hchange
  · rwa [submitterFlag, Ledger.fetch_congr heq]
  · cases hchange with
    | submitterCreated => simp [namesSubmitter] at hname
    | @submitterSet payer chainId _ isSubmitter =>
        cases isSubmitter with
        | true => simp [setsSubmitter] at hgrant
        | false => exact submitterFlag_set hstep (by simp [setsSubmitter])

theorem submitterFlag_named {host : Host} {e : BridgeRecord} {s : Pubkey}
    (hwf : WellFormed e.pre) (hstep : IsStep (step host) e)
    (h : namesSubmitter s e.input = true) :
    submitterFlag s e.post = some true := by
  obtain ⟨L, input, events, L'⟩ := e
  cases input with
  | createBridgeCommittee ctx payer chainId submitter committee stake =>
      obtain rfl : submitter = s := by simpa [namesSubmitter] using h
      simp only [IsStep] at hwf hstep ⊢
      rcases createBridgeCommittee_eq_ok.mp hstep with
        ⟨-, -, -, L₁, hupserts, -, hplaced, -⟩
      rcases hupserts.stores (hwf (.submitter submitter)) with
        ⟨record, hprovides, hstores⟩
      have hkept : L' (Pda.submitter submitter).address =
          L₁ (Pda.submitter submitter).address := by
        rw [hplaced]
        exact Ledger.placeAll_of_ne L₁ fun p hp => (member_ne_submitter hp).symm
      rw [submitterFlag_of_stores (hstores.congr hkept), Submitter.create,
        submitter_unmarked hwf hprovides]
      rfl
  | _ => simp [namesSubmitter] at h

/-! ## Runs -/

/-- The input re-enables the key in the ledger: it names a revoked submitter. -/
def Reenables (s : Pubkey) (L : Ledger) (input : Input) : Prop :=
  namesSubmitter s input = true ∧ submitterFlag s L = some false

private theorem not_grant_of_names {s : Pubkey} {input : Input}
    (h : namesSubmitter s input = true) : setsSubmitter s true input ≠ true := by
  cases input with
  | createBridgeCommittee => simp [setsSubmitter]
  | _ => simp [namesSubmitter] at h

private theorem reenabled_of_submitted {host : Host} {inputs : List Input}
    {s : Pubkey} {before between after : List BridgeRecord} {r u : BridgeRecord}
    (hlog : (execute host inputs).log = before ++ r :: (between ++ u :: after))
    (hrevokes : setsSubmitter s false r.input = true)
    (hsubmits : submittedBy s u.input = true)
    (hnone : ∀ d ∈ between, setsSubmitter s true d.input ≠ true) :
    ∃ d ∈ between, Reenables s d.pre d.input := by
  by_contra hkept
  have hassoc : (execute host inputs).log =
      (before ++ r :: between) ++ u :: after := by
    rw [hlog, List.append_assoc, List.cons_append]
  have hr : r ∈ (execute host inputs).log := by
    rw [hlog]
    exact List.mem_append_right _ List.mem_cons_self
  obtain ⟨hstep, prior, rest, hinputs, hprior⟩ := run_split hassoc
  have hrevoked : submitterFlag s (execute host prior).state = some false := by
    apply run_since (Q := fun L => submitterFlag s L = some false)
      wellFormed_empty (fun _ hwf hstep => wellFormed_step hwf hstep)
      (congrArg Trace.log hprior)
    · exact submitterFlag_set (isStep_of_mem hr) hrevokes
    · intro d hd hwf hdstep hdrevoked
      exact revoked_step hwf hdstep (hnone d hd)
        (fun hname => hkept ⟨d, hd, hname, hdrevoked⟩) hdrevoked
  have hpre : (execute host prior).state = u.pre := congrArg Trace.state hprior
  have hwf := execute_wellFormed host prior
  rw [hpre] at hrevoked hwf
  rw [submitterFlag_of_submitted hwf hstep hsubmits] at hrevoked
  contradiction

/--
A revocation holds in every run that does not name the submitter in a
committee creation while it is revoked.
-/
theorem revocation_holds (host : Host) (inputs : List Input) (s : Pubkey)
    (h : ∀ e ∈ (execute host inputs).log, namesSubmitter s e.input = true →
      submitterFlag s e.pre ≠ some false) :
    RevocationHolds s (execute host inputs) := by
  intro before r between u after hlog hrevokes hsubmits
  by_contra hnone
  obtain ⟨d, hd, hname, hrevoked⟩ := reenabled_of_submitted hlog hrevokes
    hsubmits fun d hd hgrant => hnone ⟨d, hd, hgrant⟩
  have hmem : d ∈ (execute host inputs).log := by
    rw [hlog]
    simp [hd]
  exact h d hmem hname hrevoked

private theorem revoked_before {host : Host} {e : BridgeRecord} {s : Pubkey}
    (hwf : WellFormed e.pre) (hstep : IsStep (step host) e)
    (hset : setsSubmitter s false e.input ≠ true)
    (hrevoked : submitterFlag s e.post = some false) :
    submitterFlag s e.pre = some false := by
  rcases step_evolves hwf hstep (.submitter s) with heq | hchange
  · rwa [submitterFlag, Ledger.fetch_congr heq] at hrevoked
  · obtain ⟨L, input, events, L'⟩ := e
    cases hchange with
    | submitterCreated =>
        rw [submitterFlag_named hwf hstep (by simp [namesSubmitter])] at hrevoked
        contradiction
    | @submitterSet payer chainId _ isSubmitter =>
        cases isSubmitter with
        | false => simp [setsSubmitter] at hset
        | true =>
            have hgranted : submitterFlag s L' = some true :=
              submitterFlag_set hstep (by simp [setsSubmitter])
            rw [hgranted] at hrevoked
            contradiction

private theorem revocation_of_revoked (host : Host) (inputs : List Input)
    (s : Pubkey) :
    submitterFlag s (execute host inputs).state = some false →
      ∃ before r between,
        (execute host inputs).log = before ++ r :: between ∧
          setsSubmitter s false r.input = true ∧
          ∀ d ∈ between, setsSubmitter s true d.input ≠ true := by
  refine (run_induction (P := fun t : BridgeTrace => WellFormed t.state ∧
    (submitterFlag s t.state = some false → ∃ before r between,
      t.log = before ++ r :: between ∧ setsSubmitter s false r.input = true ∧
        ∀ d ∈ between, setsSubmitter s true d.input ≠ true))
    ⟨wellFormed_empty, ?_⟩ ?_ inputs).2
  · intro hrevoked
    contradiction
  · rintro log e ⟨hwf, ih⟩ hstep
    refine ⟨wellFormed_step hwf hstep, fun hrevoked => ?_⟩
    by_cases hset : setsSubmitter s false e.input = true
    · exact ⟨log, e, [], rfl, hset, by simp⟩
    · obtain ⟨before, r, between, rfl, hrevokes, hnone⟩ :=
        ih (revoked_before hwf hstep hset hrevoked)
      refine ⟨before, r, between ++ [e], by simp, hrevokes, fun d hd => ?_⟩
      rcases List.mem_append.mp hd with hd | hd
      · exact hnone d hd
      · rw [List.mem_singleton.mp hd]
        intro hgrant
        rw [submitterFlag_set hstep hgrant] at hrevoked
        contradiction

/--
A revocation holds in exactly the runs in which every submission that follows a
re-enabling also follows a grant made in between.
-/
theorem revocation_holds_iff (host : Host) (inputs : List Input) (s : Pubkey) :
    RevocationHolds s (execute host inputs) ↔
      ∀ before n between u after,
        (execute host inputs).log = before ++ n :: (between ++ u :: after) →
        Reenables s n.pre n.input → submittedBy s u.input = true →
        ∃ e ∈ between, setsSubmitter s true e.input = true := by
  constructor
  · rintro h before n between u after hlog ⟨hname, hrevoked⟩ hsubmits
    obtain ⟨-, prior, rest, hinputs, hprior⟩ := run_split hlog
    have hpre : (execute host prior).state = n.pre := congrArg Trace.state hprior
    have hlogged : (execute host prior).log = before := congrArg Trace.log hprior
    obtain ⟨first, r, second, hbefore, hrevokes, hnone⟩ :=
      revocation_of_revoked host prior s (by rw [hpre]; exact hrevoked)
    rw [hlogged] at hbefore
    obtain ⟨e, he, hgrant⟩ := h first r (second ++ n :: between) u after
      (by rw [hlog, hbefore]; simp) hrevokes hsubmits
    rcases List.mem_append.mp he with he | he
    · exact absurd hgrant (hnone e he)
    · rcases List.mem_cons.mp he with rfl | he
      · exact absurd hgrant (not_grant_of_names hname)
      · exact ⟨e, he, hgrant⟩
  · intro h before r between u after hlog hrevokes hsubmits
    by_contra hnone
    obtain ⟨n, hn, hreenables⟩ := reenabled_of_submitted hlog hrevokes
      hsubmits fun d hd hgrant => hnone ⟨d, hd, hgrant⟩
    obtain ⟨first, second, rfl⟩ := List.append_of_mem hn
    obtain ⟨e, he, hgrant⟩ := h (before ++ r :: first) n second u after
      (by rw [hlog]; simp) hreenables hsubmits
    exact hnone ⟨e, by simp [he], hgrant⟩

def sampleRevocation : Input :=
  .addOrUpdateSubmitter sampleAdmin 1 sampleSubmitter false

def sampleGrant : Input :=
  .addOrUpdateSubmitter sampleAdmin 1 sampleSubmitter true

theorem revocation_holds_sample :
    RevocationHolds sampleSubmitter (execute sampleHost [sampleBridge,
      sampleCommittee, sampleRevocation, sampleGrant, sampleLimiter]) :=
  revocation_holds sampleHost _ sampleSubmitter (by decide +kernel)

theorem not_revocationHolds_sample :
    ¬ RevocationHolds sampleSubmitter (execute sampleHost [sampleBridge,
      sampleCommittee, sampleRevocation, sampleCommittee, sampleLimiter]) := by
  intro h
  generalize ht : execute sampleHost [sampleBridge, sampleCommittee,
    sampleRevocation, sampleCommittee, sampleLimiter] = t at h
  have hlength : t.log.length = 5 := by
    rw [← ht]
    decide +kernel
  have hinputs : t.log.map (fun e => (setsSubmitter sampleSubmitter false e.input,
        setsSubmitter sampleSubmitter true e.input,
        submittedBy sampleSubmitter e.input)) =
      [(false, false, false), (false, false, false), (true, false, false),
        (false, false, false), (false, false, true)] := by
    rw [← ht]
    decide +kernel
  match hlog : t.log, hlength with
  | [a, b, r, c, u], _ =>
      simp only [hlog, List.map_cons, List.map_nil, List.cons.injEq,
        Prod.mk.injEq, and_true] at hinputs
      obtain ⟨-, -, hrevoked, hcreated, hsubmitted⟩ := hinputs
      obtain ⟨e, he, hgrant⟩ := h [a, b] r [c] u [] hlog hrevoked.1
        hsubmitted.2.2
      obtain rfl : e = c := by simpa using he
      simp [hcreated] at hgrant

end SolBtcBridge.Properties
