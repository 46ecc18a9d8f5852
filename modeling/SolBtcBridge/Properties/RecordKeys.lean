import SolBtcBridge.Properties.MintTotals

/-!
# Records carry the key of their address

Every record names the key its address is derived from, with one exception: a
new limiter is keyed by the target chain of the message but stores the chain of
the bridge.  The wrong chain id stays in the record and in every event about it.
-/

namespace SolBtcBridge.Properties

open SolBtcBridge.Foundation
open SolBtcBridge.Runtime
open SolBtcBridge.Program
open SolBtcBridge.Effects

/-- Every record carries the key of its own address. -/
structure SelfNaming (host : Host) (L : Ledger) : Prop where
  bridgeConfig : ∀ (b : U8) (r : BridgeConfig),
    L.fetch BridgeConfig (Pda.bridgeConfig b).address = some r →
      r.isInitialized = true → r.chainId = b ∧
        r.sbtcMint = host.programAddress (Pda.sbtcMint b).seedBytes
  supportedChain : ∀ (c : U8) (r : SupportedChainConfig),
    L.fetch SupportedChainConfig (Pda.supportedChain c).address = some r →
      r.isInitialized = true → r.chainId = c
  tokenConfig : ∀ (c t : U8) (r : TokenConfig),
    L.fetch TokenConfig (Pda.tokenConfig c t).address = some r →
      r.isInitialized = true → r.chainId = c ∧ r.tokenId = t
  limiter : ∀ (c t : U8) (r : ChainTokenLimiter),
    L.fetch ChainTokenLimiter (Pda.limiter c t).address = some r →
      r.isInitialized = true → r.chainId = c ∧ r.tokenId = t
  committee : ∀ (k : Pubkey) (r : Committee),
    L.fetch Committee (Pda.committee k).address = some r →
      r.isInitialized = true → r.index = k
  submitter : ∀ (s : Pubkey) (r : Submitter),
    L.fetch Submitter (Pda.submitter s).address = some r → r.submitter = s

def limitMessage : Input → Option UpdateLimiterMsg
  | .addOrUpdateLimiterWithSignatures _ _ _ msg => some msg
  | _ => none

def ReportsTarget (e : BridgeRecord) : Prop :=
  ∀ update, Event.limitUpdated update ∈ e.output →
    ∃ msg, limitMessage e.input = some msg ∧
      update.chainId = msg.targetChainId ∧ update.tokenId = msg.tokenId

/-- If the step creates a limiter, the bridge and the target are the same chain. -/
def CreatesUnderTarget (e : BridgeRecord) : Prop :=
  ∀ msg, limitMessage e.input = some msg →
    e.pre.Vacant (Pda.limiter msg.targetChainId msg.tokenId).address →
      msg.chainId = msg.targetChainId

def NamesMints (host : Host) (L : Ledger) : Prop :=
  ∀ (b : U8) (r : BridgeConfig),
    L.fetch BridgeConfig (Pda.bridgeConfig b).address = some r →
      r.sbtcMint = host.programAddress (Pda.sbtcMint b).seedBytes

private theorem createdConfig_fetched {host : Host} {L L' : Ledger}
    {ctx : Context} {payer : Pubkey} {chainId : U8} {name symbol uri : String}
    {administrator feeRecipient : Pubkey} {tokenIds supportedChains : List U8}
    {fees minimums : List U64} {events : List Event}
    (h : createBridgeConfig host L ctx payer chainId name symbol uri
      administrator feeRecipient tokenIds supportedChains fees minimums =
        .ok (L', events)) :
    L'.fetch BridgeConfig (Pda.bridgeConfig chainId).address =
      some (createdConfig host chainId administrator feeRecipient) := by
  obtain ⟨-, -, -, -, -, -, rfl, -⟩ := createBridgeConfig_eq_ok.mp h
  have hkept : (openBridge host L chainId administrator feeRecipient).placeAll
      (entryPlacements (tokenEntries tokenIds supportedChains fees minimums))
        (Pda.bridgeConfig chainId).address =
      openBridge host L chainId administrator feeRecipient
        (Pda.bridgeConfig chainId).address := by
    apply Ledger.placeAll_of_ne
    intro p hp
    exact (entry_ne_bridge hp).symm
  exact (openBridge_stores.congr hkept).fetch

private theorem namesMints_step {host : Host} {e : BridgeRecord}
    (hwf : WellFormed e.pre) (hstep : IsStep (step host) e)
    (h : NamesMints host e.pre) :
    NamesMints host e.post := by
  obtain ⟨L, input, events, L'⟩ := e
  intro b r hr
  cases step_evolves hwf hstep (.bridgeConfig b) with
  | inl heq =>
      rw [Ledger.fetch_congr heq] at hr
      exact h b r hr
  | inr hchange =>
      cases hchange with
      | bridgeCreated =>
          rw [createdConfig_fetched hstep, Option.some.injEq] at hr
          rw [← hr]
          rfl

/-! ## The chain id of a limiter -/

def limiterChain (c t : U8) (L : Ledger) : Option U8 :=
  (L.fetch ChainTokenLimiter (Pda.limiter c t).address).map
    ChainTokenLimiter.chainId

private theorem limiterChain_of_stores {c t : U8} {L : Ledger}
    {r : ChainTokenLimiter} (h : L.Stores (Pda.limiter c t).address r) :
    limiterChain c t L = some r.chainId := by
  rw [limiterChain, h.fetch, Option.map_some]

private theorem limiterChain_of_vacant {c t : U8} {L : Ledger}
    (h : L.Vacant (Pda.limiter c t).address) : limiterChain c t L = none := by
  rw [limiterChain, h.fetch, Option.map_none]

private theorem limiterChain_step {host : Host} {e : BridgeRecord} (c t : U8)
    (hwf : WellFormed e.pre) (hstep : IsStep (step host) e) :
    limiterChain c t e.post = limiterChain c t e.pre ∨
      ∃ msg, limitMessage e.input = some msg ∧ msg.targetChainId = c ∧
        msg.tokenId = t ∧ e.pre.Vacant (Pda.limiter c t).address ∧
        limiterChain c t e.post = some msg.chainId := by
  obtain ⟨L, input, events, L'⟩ := e
  cases step_evolves hwf hstep (.limiter c t) with
  | inl heq =>
      left
      rw [limiterChain, limiterChain, Ledger.fetch_congr heq]
  | inr hchange =>
      cases hchange with
      | limiterMinted hstores htransfer hstores' =>
          left
          have hsame := (checkTransfer_fields htransfer).2.1
          rw [limiterChain_of_stores hstores, limiterChain_of_stores hstores',
            hsame]
      | @limiterSet ctx _ _ msg limiter hprovides hstores' =>
          rw [limiterChain_of_stores hstores']
          cases hprovides with
          | inl hstores =>
              left
              have hinit : limiter.isInitialized = true :=
                (Ledger.Keeps.of_stores (hwf (.limiter _ _)) hstores).1
              rw [limiterChain_of_stores hstores]
              simp [updateLimiter, hinit]
          | inr hcreated =>
              right
              obtain ⟨hvacant, rfl⟩ := hcreated
              exact ⟨msg, rfl, rfl, rfl, hvacant, rfl⟩

private theorem limiterChain_kept {host : Host} {e : BridgeRecord} {c t x : U8}
    (hwf : WellFormed e.pre) (hstep : IsStep (step host) e)
    (h : limiterChain c t e.pre = some x) : limiterChain c t e.post = some x := by
  cases limiterChain_step c t hwf hstep with
  | inl heq => rw [heq, h]
  | inr hcreated =>
      obtain ⟨msg, -, -, -, hvacant, -⟩ := hcreated
      rw [limiterChain_of_vacant hvacant] at h
      contradiction

private theorem limiterChain_created {host : Host} {e : BridgeRecord}
    {msg : UpdateLimiterMsg} (hwf : WellFormed e.pre)
    (hstep : IsStep (step host) e) (hmsg : limitMessage e.input = some msg)
    (hvacant : e.pre.Vacant (Pda.limiter msg.targetChainId msg.tokenId).address) :
    limiterChain msg.targetChainId msg.tokenId e.post = some msg.chainId := by
  obtain ⟨L, input, events, L'⟩ := e
  cases input with
  | addOrUpdateLimiterWithSignatures ctx submitter signatures msg' =>
      obtain rfl : msg' = msg := by simpa [limitMessage] using hmsg
      obtain ⟨effect⟩ := limitEffect_of_ok hwf hstep
      rw [limiterChain_of_stores effect.limiterStored']
      cases effect.limiterProvided with
      | inl hstores => exact absurd hvacant hstores.not_vacant
      | inr hcreated =>
          rw [hcreated.2]
          rfl
  | _ => simp [limitMessage] at hmsg

private theorem limitUpdated_of_step {host : Host} {e : BridgeRecord}
    {update : LimitUpdated} (hwf : WellFormed e.pre)
    (hstep : IsStep (step host) e) (h : Event.limitUpdated update ∈ e.output) :
    ∃ msg, limitMessage e.input = some msg ∧ update.tokenId = msg.tokenId ∧
      limiterChain msg.targetChainId msg.tokenId e.post =
        some update.chainId := by
  have hwf' := wellFormed_step hwf hstep
  obtain ⟨L, input, events, L'⟩ := e
  simp only [IsStep] at hwf hwf' hstep h ⊢
  cases input with
  | addOrUpdateLimiterWithSignatures ctx submitter signatures msg =>
      obtain ⟨effect⟩ := limitEffect_of_ok hwf hstep
      rw [effect.events_eq, List.mem_singleton, Event.limitUpdated.injEq] at h
      have htoken : (updateLimiter effect.limiter ctx.unixTimestamp msg).tokenId =
          msg.tokenId :=
        (Ledger.Keeps.of_stores (hwf' (.limiter _ _)) effect.limiterStored').2
      refine ⟨msg, rfl, ?_, ?_⟩
      · rw [h]
        exact htoken
      · rw [h]
        exact limiterChain_of_stores effect.limiterStored'
  | mintSbtcWithSignatures =>
      obtain ⟨effect⟩ := mintEffect_of_ok hwf hstep
      simp [effect.events_eq] at h
  | withdrawBtc =>
      obtain ⟨effect⟩ := withdrawEffect_of_ok hwf hstep
      simp [effect.events_eq] at h
  | createBridgeConfig =>
      simp [(createBridgeConfig_spec hstep).silent] at h
  | addOrUpdateChain =>
      simp [(addOrUpdateChain_spec hwf hstep).silent] at h
  | addOrUpdateChainToken =>
      simp [(addOrUpdateChainToken_spec hwf hstep).silent] at h
  | createBridgeCommittee =>
      simp [(createBridgeCommittee_spec hwf hstep).silent] at h
  | addOrUpdateCommittee =>
      simp [(addOrUpdateCommittee_spec hwf hstep).silent] at h
  | addOrUpdateSubmitter =>
      simp [(addOrUpdateSubmitter_spec hwf hstep).silent] at h
  | sendLamports =>
      simp only [step, Except.ok.injEq, Prod.mk.injEq] at hstep
      simp [← hstep.2] at h
  | openTokenAccount =>
      simp only [step, bind_eq_ok, pure_eq_ok, Prod.mk.injEq] at hstep
      obtain ⟨-, -, L₁, -, -, rfl⟩ := hstep
      contradiction
  | sendTokens =>
      simp only [step, bind_eq_ok, pure_eq_ok, Prod.mk.injEq] at hstep
      obtain ⟨L₁, -, -, rfl⟩ := hstep
      contradiction

/-! ## Runs -/

theorem execute_namesMints (host : Host) (inputs : List Input) :
    NamesMints host (execute host inputs).state := by
  have hinv : WellFormed (execute host inputs).state ∧
      NamesMints host (execute host inputs).state := by
    refine run_invariant (I := fun L => WellFormed L ∧ NamesMints host L)
      ⟨wellFormed_empty, fun b r hr => ?_⟩ ?_ inputs
    · rw [Ledger.fetch_eq_none_of_system rfl] at hr
      contradiction
    · intro e hpre hstep
      exact ⟨wellFormed_step hpre.1 hstep, namesMints_step hpre.1 hstep hpre.2⟩
  exact hinv.2

/-- While only own chains create limiters, each limiter carries its own chain. -/
private theorem limiterChain_of_run {host : Host} {inputs : List Input}
    (h : ∀ e ∈ (execute host inputs).log, CreatesUnderTarget e) (c t x : U8)
    (hx : limiterChain c t (execute host inputs).state = some x) : x = c := by
  have hstart : ∀ x, limiterChain c t Ledger.empty = some x → x = c := by
    intro x hx
    have hvacant : Ledger.empty.Vacant (Pda.limiter c t).address := rfl
    rw [limiterChain_of_vacant hvacant] at hx
    contradiction
  have hrun : WellFormed (execute host inputs).state ∧
      ((∀ e ∈ (execute host inputs).log, CreatesUnderTarget e) →
        ∀ x, limiterChain c t (execute host inputs).state = some x → x = c) := by
    refine run_induction (P := fun r : BridgeTrace => WellFormed r.state ∧
      ((∀ e ∈ r.log, CreatesUnderTarget e) →
        ∀ x, limiterChain c t r.state = some x → x = c))
      ⟨wellFormed_empty, fun _ => hstart⟩ ?_ inputs
    intro log e ih hstep
    refine ⟨wellFormed_step ih.1 hstep, fun hlog x hx => ?_⟩
    cases limiterChain_step c t ih.1 hstep with
    | inl heq =>
        rw [heq] at hx
        exact ih.2 (fun d hd => hlog d (List.mem_append_left [e] hd)) x hx
    | inr hcreated =>
        obtain ⟨msg, hmsg, rfl, rfl, hvacant, hpost⟩ := hcreated
        rw [hpost, Option.some.injEq] at hx
        rw [← hx]
        exact hlog e (by simp) msg hmsg hvacant
  exact hrun.2 h x hx

private theorem limiterChain_final {host : Host} {inputs : List Input}
    {e : BridgeRecord} {c t x : U8} (he : e ∈ (execute host inputs).log)
    (h : limiterChain c t e.post = some x) :
    limiterChain c t (execute host inputs).state = some x := by
  obtain ⟨before, later, hlog⟩ := List.append_of_mem he
  exact run_since (Q := fun L => limiterChain c t L = some x) wellFormed_empty
    (fun _ hwf hstep => wellFormed_step hwf hstep) hlog h
    fun _ _ hwf hstep => limiterChain_kept hwf hstep

private theorem selfNaming_of_parts {host : Host} {L : Ledger}
    (hwf : WellFormed L) (hmints : NamesMints host L)
    (hlimiters : ∀ c t x, limiterChain c t L = some x → x = c) :
    SelfNaming host L where
  bridgeConfig b r hr _ :=
    ⟨(Ledger.Keeps.of_fetch (hwf (.bridgeConfig b)) hr).2,
      hmints b r hr⟩
  supportedChain c r hr _ :=
    (Ledger.Keeps.of_fetch (hwf (.supportedChain c)) hr).2
  tokenConfig c t r hr _ := by
    have hkeys := Ledger.Keeps.of_fetch (hwf (.tokenConfig c t)) hr
    exact ⟨hkeys.2.1, hkeys.2.2.1⟩
  limiter c t r hr _ := by
    have hkeys := Ledger.Keeps.of_fetch (hwf (.limiter c t)) hr
    exact ⟨hlimiters c t _ (by rw [limiterChain, hr, Option.map_some]), hkeys.2⟩
  committee k r hr _ :=
    (Ledger.Keeps.of_fetch (hwf (.committee k)) hr).2
  submitter s r hr :=
    (Ledger.Keeps.of_fetch (hwf (.submitter s)) hr).2

/--
Every record of a reached state carries its own key, and every reported limit
names its limiter, exactly if each limiter was created by a message whose bridge
is the target chain itself.
-/
theorem self_naming_iff (host : Host) (inputs : List Input) :
    (SelfNaming host (execute host inputs).state ∧
        ∀ e ∈ (execute host inputs).log, ReportsTarget e) ↔
      ∀ e ∈ (execute host inputs).log, CreatesUnderTarget e := by
  have hwf := execute_wellFormed host inputs
  constructor
  · intro h e he msg hmsg hvacant
    have hstored := limiterChain_final he
      (limiterChain_created (wellFormed_pre he) (isStep_of_mem he) hmsg hvacant)
    obtain ⟨r, hr, hchain⟩ := Option.map_eq_some_iff.mp hstored
    have hinit : r.isInitialized = true :=
      (Ledger.Keeps.of_fetch (hwf (.limiter _ _)) hr).1
    rw [← hchain]
    exact (h.1.limiter _ _ r hr hinit).1
  · intro h
    refine ⟨selfNaming_of_parts hwf (execute_namesMints host inputs)
      (limiterChain_of_run h), fun e he update hupdate => ?_⟩
    obtain ⟨msg, hmsg, htoken, hchain⟩ :=
      limitUpdated_of_step (wellFormed_pre he) (isStep_of_mem he) hupdate
    exact ⟨msg, hmsg, limiterChain_of_run h _ _ _ (limiterChain_final he hchain),
      htoken⟩

/-- Bridge 1 creates the limiter of chain 2: it stores and reports chain 1. -/
theorem not_self_naming_sample :
    ¬ SelfNaming sampleHost
        (execute sampleHost [sampleBridge, sampleCommittee, sampleLimiter]).state ∧
      ((execute sampleHost
        [sampleBridge, sampleCommittee, sampleLimiter]).log[2]?.map fun e =>
          (limitMessage e.input, e.output)) =
        some (some sampleLimit, [.limitUpdated ⟨1, 0, 1000000, 1⟩]) ∧
      sampleLimit.targetChainId = 2 := by
  refine ⟨fun h => ?_, by decide +kernel, rfl⟩
  have hstored : (execute sampleHost
      [sampleBridge, sampleCommittee, sampleLimiter]).state.fetch
        ChainTokenLimiter (Pda.limiter 2 0).address =
      some (updateLimiter AnchorAccount.zeroed 0 sampleLimit) := by
    decide +kernel
  have hchain := (h.limiter 2 0 _ hstored (by decide)).1
  exact absurd hchain (by decide)

end SolBtcBridge.Properties
