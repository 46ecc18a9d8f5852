import SolBtcBridge.Effects.Step
import SolBtcBridge.Runtime.Bank
import SolBtcBridge.Runtime.Rent

/-!
# The tokens every step moves

Seen as a bank, a successful input is a short list of moves: a bridge creates
its mint, a mint issues to one account, a withdrawal pays the fee and burns the
rest.  Records are written at program-derived addresses only, and none of them
is ever closed, resized or left without its rent.
-/

namespace SolBtcBridge.Effects

open SolBtcBridge.Foundation
open SolBtcBridge.Runtime
open SolBtcBridge.Program

/-- The account that `create_associated_token_account_ifn_init` opens. -/
def openIfEmpty (L : Ledger) (owner mint a : Address) : List (Move Address) :=
  if dataIsEmpty (L a) then [.openAccount a mint owner] else []

def tokenMoves (L : Ledger) : Input → List (Move Address)
  | .createBridgeConfig _ _ chainId _ _ _ _ _ _ _ _ _ =>
      [.createMint (Pda.sbtcMint chainId).address (Pda.sbtcMint chainId).address]
  | .mintSbtcWithSignatures _ _ _ msg =>
      let mint := (Pda.sbtcMint msg.toChainId).address
      let userAta := getAssociatedTokenAddress msg.toAddress mint
      openIfEmpty L (.wallet msg.toAddress) mint userAta ++
        [.issue mint userAta mint msg.amount.toNat]
  | .withdrawBtc _ user msg =>
      match L.fetch BridgeConfig (Pda.bridgeConfig msg.chainId).address,
        L.fetch TokenConfig (Pda.tokenConfig msg.toChainId msg.toTokenId).address
      with
      | some bridge, some token =>
          let mint := (Pda.sbtcMint msg.chainId).address
          let fee := (withdrawFee msg.amount token.tokenFeePercentage).toNat
          openIfEmpty L (.wallet bridge.feeRecipient) mint
              (feeRecipientSbtcAta bridge msg) ++
            [.transfer (userSbtcAta msg) (feeRecipientSbtcAta bridge msg)
              (.wallet user) fee,
             .burn mint (userSbtcAta msg) (.wallet user)
              (msg.amount.toNat - fee)]
      | _, _ => []
  | .openTokenAccount target owner mint =>
      [.openAccount target mint (.wallet owner)]
  | .sendTokens source destination authority amount =>
      [.transfer source destination authority amount.toNat]
  | _ => []

/-- The bank takes a path, and records appear only where the program puts them. -/
structure Moves (L : Ledger) (moves : List (Move Address)) (L' : Ledger) :
    Prop where
  path : Path Bank.Step L.bank moves L'.bank
  placed : ∀ a data, (L' a).body = .bridge data →
    (∃ p : Pda, a = p.address) ∨ ∃ before, (L a).body = .bridge before
  kept : ∀ a data, (L a).body = .bridge data →
    ∃ after, (L' a).body = .bridge after ∧ after.length = data.length
  funds : L.Funds L'

namespace Moves

variable {L L' L'' : Ledger} {moves more : List (Move Address)}

theorem trans (h : Moves L moves L') (h' : Moves L' more L'') :
    Moves L (moves ++ more) L'' where
  path := h.path.append h'.path
  placed := by
    intro a data hdata
    rcases h'.placed a data hdata with hpda | ⟨before, hbefore⟩
    · exact .inl hpda
    · exact h.placed a before hbefore
  kept := by
    intro a data hdata
    rcases h.kept a data hdata with ⟨middle, hmiddle, hlength⟩
    rcases h'.kept a middle hmiddle with ⟨after, hafter, hlength'⟩
    exact ⟨after, hafter, hlength'.trans hlength⟩
  funds := h.funds.trans h'.funds

private theorem trans_nil (h : Moves L moves L') (h' : Moves L' [] L'') :
    Moves L moves L'' := by
  simpa using h.trans h'

theorem refl (L : Ledger) : Moves L [] L :=
  ⟨.nil, fun _ data h => .inr ⟨data, h⟩, fun _ data h => ⟨data, h, rfl⟩,
    .refl L⟩

private theorem of_bodies (h : ∀ a, (L' a).body = (L a).body)
    (hfunds : L.Funds L') :
    Moves L [] L' where
  path := by
    have hbank : L'.bank = L.bank :=
      Ledger.bank_congr fun a => congrArg AccountBody.toBank (h a)
    rw [hbank]
    exact .nil
  placed := fun a data hdata => .inr ⟨data, by rw [← h a, hdata]⟩
  kept := fun a data hdata => ⟨data, by rw [h a, hdata], rfl⟩
  funds := hfunds

private theorem of_record {p : Pda} {data : List U8} (hbank : L'.bank = L.bank)
    (hafter : (L' p.address).body = .bridge data)
    (hbefore : ∀ old, (L p.address).body = .bridge old →
      data.length = old.length)
    (hother : ∀ b, b ≠ p.address → L' b = L b) (hfunds : L.Funds L') :
    Moves L [] L' where
  path := by
    rw [hbank]
    exact .nil
  placed := by
    intro a written hwritten
    by_cases ha : a = p.address
    · exact .inl ⟨p, ha⟩
    · exact .inr ⟨written, by rw [← hother a ha, hwritten]⟩
  kept := by
    intro a old hold
    by_cases ha : a = p.address
    · subst ha
      exact ⟨data, hafter, hbefore old hold⟩
    · exact ⟨old, by rw [hother a ha, hold], rfl⟩
  funds := hfunds

section

variable {T : Type} [AnchorAccount T] {p : Pda} {t : T}

theorem of_exit (h : L.exit p.address t = .ok L') : Moves L [] L' := by
  have hbank := Ledger.exit_bank h
  have hother : ∀ b, b ≠ p.address → L' b = L b :=
    fun b hb => Ledger.exit_of_ne h hb
  have hfunds := Ledger.Funds.of_exit h
  rcases Ledger.exit_eq_ok.mp h with ⟨data, hdata, hlen, rfl⟩
  refine of_record hbank (Ledger.setBody_self _ _ _) ?_ hother hfunds
  intro old hold
  rw [hdata, AccountBody.bridge.injEq] at hold
  rw [List.length_append, length_image, List.length_drop, hold]
  rw [hold] at hlen
  omega

private theorem of_vacant {account : Account} {data : List U8}
    (hvacant : (L p.address).body = .system)
    (hbody : account.body = .bridge data)
    (hfunds : L.Funds (L.set p.address account)) :
    Moves L [] (L.set p.address account) := by
  have hafter : (L.set p.address account p.address).body = .bridge data := by
    rw [Ledger.set_self, hbody]
  refine of_record ?_ hafter ?_ (fun b hb => Ledger.set_of_ne L _ hb) hfunds
  · apply Ledger.bank_of_ne (a := p.address)
    · rw [hvacant]
      rfl
    · rw [Ledger.set_self, hbody]
      rfl
    · exact fun b hb => Ledger.set_of_ne L _ hb
  · intro old hold
    rw [hvacant] at hold
    contradiction

theorem of_init {space : Nat} (hspace : AnchorAccount.len T ≤ space)
    (h : L.init T p.address space = .ok (L', t)) : Moves L [] L' := by
  have hfunds := Ledger.Funds.of_init hspace h
  rcases (Ledger.init_eq_ok hspace).mp h with ⟨hvacant, -, rfl⟩
  exact of_vacant hvacant rfl hfunds

theorem of_initIfNeeded
    (h : L.initIfNeeded T p.address (AnchorAccount.len T) = .ok (L', t)) :
    Moves L [] L' := by
  have hfunds := Ledger.Funds.of_initIfNeeded h
  rcases Ledger.initIfNeeded_cases h with ⟨-, rfl⟩ | ⟨hvacant, -, rfl⟩
  · exact refl L'
  · exact of_vacant hvacant rfl hfunds

theorem of_upserts {update : T → T} (h : L.Upserts p.address update L') :
    Moves L [] L' := by
  rcases h with ⟨L₁, record, hinit, hexit⟩
  exact (of_initIfNeeded hinit).trans_nil (of_exit hexit)

end

theorem of_placeAll {ps : List Placement} (h : L.Placeable ps)
    (hpda : ∀ q ∈ ps, ∃ p : Pda, q.address = p.address) :
    Moves L [] (L.placeAll ps) where
  path := by
    rw [Ledger.placeAll_bank h]
    exact .nil
  placed := by
    intro a data hdata
    rcases Ledger.placeAll_cases h a with heq | ⟨q, hq, haddress, -⟩
    · exact .inr ⟨data, by rw [← heq, hdata]⟩
    · left
      rw [haddress]
      exact hpda q hq
  kept := by
    intro a data hdata
    rcases Ledger.placeAll_cases h a with heq | ⟨q, -, -, hvacant, -⟩
    · exact ⟨data, by rw [heq, hdata], rfl⟩
    · rw [hvacant] at hdata
      contradiction
  funds := .of_placeAll L ps

private theorem of_step {move : Move Address}
    (hstep : Bank.Step L.bank move L'.bank)
    (hframe : ∀ a, L.bank a = none → L' a = L a) (hfunds : L.Funds L') :
    Moves L [move] L' where
  path := .single hstep
  placed := by
    intro a data hdata
    have hnone : L.bank a = none := by
      by_contra hsome
      rcases Option.ne_none_iff_exists'.mp hsome with ⟨account, haccount⟩
      rcases hstep.accounts.extends a account haccount with ⟨after, hafter, -⟩
      rw [Ledger.bank, hdata] at hafter
      cases hafter
    exact .inr ⟨data, by rw [← hframe a hnone, hdata]⟩
  kept := by
    intro a data hdata
    have hnone : L.bank a = none := by rw [Ledger.bank, hdata]; rfl
    exact ⟨data, by rw [hframe a hnone, hdata], rfl⟩
  funds := hfunds

private theorem of_opened {move : Move Address} {a : Address}
    {account : Account} {x : BankAccount Address}
    (hstep : Bank.Step L.bank move (L.set a account).bank)
    (hvacant : (L a).body = .system) (hbody : account.body.toBank = some x)
    (hfunds : L.Funds (L.set a account)) :
    Moves L [move] (L.set a account) where
  path := .single hstep
  placed := by
    intro b data hdata
    by_cases hb : b = a
    · rw [hb, Ledger.set_self] at hdata
      rw [hdata] at hbody
      cases hbody
    · exact .inr ⟨data, by rw [← hdata, Ledger.set_of_ne L _ hb]⟩
  kept := by
    intro b data hdata
    have hb : b ≠ a := by
      rintro rfl
      rw [hvacant] at hdata
      contradiction
    exact ⟨data, by rw [Ledger.set_of_ne L _ hb, hdata], rfl⟩
  funds := hfunds

theorem of_initMint {mint authority : Address}
    (h : L.initMint mint authority = .ok L') :
    Moves L [.createMint mint authority] L' := by
  have hstep := Ledger.initMint_bank h
  have hfunds := Ledger.Funds.of_initMint h
  rcases Ledger.initMint_eq_ok.mp h with ⟨hvacant, rfl⟩
  exact of_opened (x := .mint authority 0) hstep hvacant rfl hfunds

theorem of_initTokenAccount {a mint owner : Address}
    (h : L.initTokenAccount a mint owner = .ok L') :
    Moves L [.openAccount a mint owner] L' := by
  have hstep := Ledger.initTokenAccount_bank h
  have hfunds := Ledger.Funds.of_initTokenAccount h
  rcases Ledger.initTokenAccount_eq_ok.mp h with ⟨-, hvacant, rfl⟩
  exact of_opened (x := .holding mint owner 0) hstep hvacant rfl hfunds

private theorem of_createAta {owner mint a : Address}
    (h : createAssociatedTokenAccountIfnInit L owner mint a = .ok L') :
    Moves L (openIfEmpty L owner mint a) L' := by
  unfold createAssociatedTokenAccountIfnInit at h
  unfold openIfEmpty
  split at h
  · rename_i hempty
    rw [if_pos hempty]
    simp only [bind_eq_ok, require_eq_ok, exists_and_left, exists_const] at h
    exact of_initTokenAccount h.2
  · rename_i hfull
    rw [if_neg hfull]
    cases h
    exact refl L

theorem of_mintTo {mint target authority : Address} {amount : U64}
    (h : L.mintTo mint target authority amount = .ok L') :
    Moves L [.issue mint target authority amount.toNat] L' := by
  rcases Ledger.mintTo_bodies h with ⟨⟨m, hmint⟩, -, account, htarget⟩
  refine of_step (Ledger.mintTo_bank h) (fun a ha => ?_) (.of_mintTo h)
  apply (Ledger.mintTo_spec h).2.2.2.2 a
  · rintro rfl
    rw [Ledger.bank, hmint] at ha
    cases ha
  · rintro rfl
    rw [Ledger.bank, htarget] at ha
    cases ha

theorem of_transfer {source destination authority : Address} {amount : U64}
    (h : L.transfer source destination authority amount = .ok L') :
    Moves L [.transfer source destination authority amount.toNat] L' := by
  rcases Ledger.transfer_bodies h with ⟨⟨sender, hsource⟩, receiver, hdestination⟩
  refine of_step (Ledger.transfer_bank h) (fun a ha => ?_) (.of_transfer h)
  apply (Ledger.transfer_spec h).2.2.2.2 a
  · rintro rfl
    rw [Ledger.bank, hsource] at ha
    cases ha
  · rintro rfl
    rw [Ledger.bank, hdestination] at ha
    cases ha

theorem of_burn {mint source authority : Address} {amount : U64}
    (h : L.burn mint source authority amount = .ok L') :
    Moves L [.burn mint source authority amount.toNat] L' := by
  rcases Ledger.burn_bodies h with ⟨⟨m, hmint⟩, -, account, hsource⟩
  refine of_step (Ledger.burn_bank h) (fun a ha => ?_) (.of_burn h)
  apply (Ledger.burn_spec h).2.2.2.2 a
  · rintro rfl
    rw [Ledger.bank, hmint] at ha
    cases ha
  · rintro rfl
    rw [Ledger.bank, hsource] at ha
    cases ha

end Moves

/-! ## Every instruction -/

private theorem openIfEmpty_congr {L L' : Ledger} {owner mint a : Address}
    (h : L' a = L a) : openIfEmpty L' owner mint a = openIfEmpty L owner mint a := by
  rw [openIfEmpty, openIfEmpty, h]

section

variable {L L' : Ledger} {events : List Event}

private theorem createBridgeConfig_moves {host : Host} {ctx : Context}
    {payer : Pubkey} {chainId : U8} {name symbol uri : String}
    {administrator feeRecipient : Pubkey} {tokenIds supportedChains : List U8}
    {fees minimums : List U64}
    (h : createBridgeConfig host L ctx payer chainId name symbol uri
      administrator feeRecipient tokenIds supportedChains fees minimums =
        .ok (L', events)) :
    Moves L [.createMint (Pda.sbtcMint chainId).address
      (Pda.sbtcMint chainId).address] L' := by
  rcases createBridgeConfig_eq_ok.mp h with ⟨⟨hbridge, hmint⟩, -, -, -, -,
    hplaceable, rfl, -⟩
  have hopened : Moves L [.createMint (Pda.sbtcMint chainId).address
      (Pda.sbtcMint chainId).address]
      (openBridge host L chainId administrator feeRecipient) := by
    have hrecord : Moves L [] (L.set (Pda.bridgeConfig chainId).address
        ⟨max (L (Pda.bridgeConfig chainId).address).lamports
          (minimumBalance (AnchorAccount.len BridgeConfig)),
        .bridge (image (createdConfig host chainId administrator feeRecipient))⟩) :=
      Moves.of_vacant hbridge rfl
        (.of_created (by rw [AccountBody.space, length_image]))
    have hkept : ∀ account, (L.set (Pda.bridgeConfig chainId).address account)
        (Pda.sbtcMint chainId).address = L (Pda.sbtcMint chainId).address :=
      fun account => Ledger.set_of_ne L account (by simp)
    refine hrecord.trans (Moves.of_initMint ?_)
    rw [Ledger.initMint_eq_ok, hkept]
    exact ⟨hmint, rfl⟩
  refine hopened.trans_nil (Moves.of_placeAll hplaceable ?_)
  intro q hq
  rcases mem_entryPlacements.mp hq with ⟨entry, -, rfl | rfl⟩
  · exact ⟨_, rfl⟩
  · exact ⟨_, rfl⟩

private theorem createBridgeCommittee_moves {ctx : Context} {payer : Pubkey}
    {chainId : U8} {submitter : Pubkey} {committee : List Pubkey}
    {stake : List U16}
    (h : createBridgeCommittee L ctx payer chainId submitter committee stake =
      .ok (L', events)) : Moves L [] L' := by
  rcases createBridgeCommittee_eq_ok.mp h with ⟨-, -, -, L₁, hupserts, hplaceable,
    rfl, -⟩
  refine (Moves.of_upserts hupserts).trans_nil (Moves.of_placeAll hplaceable ?_)
  intro q hq
  rcases List.mem_map.mp hq with ⟨member, -, rfl⟩
  exact ⟨_, rfl⟩

private theorem mintSbtcWithSignatures_moves {ctx : Context}
    {submitter : Pubkey} {signatures : U8} {msg : MintSbtcMessage}
    (h : mintSbtcWithSignatures L ctx submitter signatures msg =
      .ok (L', events)) :
    Moves L (tokenMoves L (.mintSbtcWithSignatures ctx submitter signatures msg))
      L' := by
  simp only [mintSbtcWithSignatures, bind_eq_ok, require_eq_ok, pure_eq_ok,
    exists_and_left, exists_const, Prod.exists, Prod.mk.injEq] at h
  obtain ⟨_, -, bridge, -, chain, -, token, -, limiter, -, L₁, nonce, hinit, -, -,
    -, -, -, -, -, -, -, nonce', -, user, ata, mint, haccounts, L₂, hata, L₃,
    hmintTo, _, -, _, -, limiter', limitEvent, -, L₄, hexitBridge, L₅,
    hexitChain, L₆, hexitToken, L₇, hexitNonce, L₈, hexitLimiter, rfl, -⟩ := h
  obtain ⟨rfl, rfl, rfl⟩ := mintGetAccounts_ok haccounts
  have hopen := Moves.of_createAta hata
  rw [openIfEmpty_congr (Ledger.init_of_ne hinit (by simp))] at hopen
  have hissued := ((Moves.of_init (by decide) hinit).trans hopen).trans
    (Moves.of_mintTo hmintTo)
  exact ((((hissued.trans_nil (Moves.of_exit hexitBridge)).trans_nil
    (Moves.of_exit hexitChain)).trans_nil (Moves.of_exit hexitToken)).trans_nil
    (Moves.of_exit hexitNonce)).trans_nil (Moves.of_exit hexitLimiter)

private theorem withdrawBtc_moves {ctx : Context} {user : Pubkey}
    {msg : WithdrawBtcMessage}
    (h : withdrawBtc L ctx user msg = .ok (L', events)) :
    Moves L (tokenMoves L (.withdrawBtc ctx user msg)) L' := by
  simp only [withdrawBtc, bind_eq_ok, require_eq_ok, pure_eq_ok,
    subOrPanic_eq_ok, exists_and_left, exists_const, Prod.exists,
    Prod.mk.injEq] at h
  obtain ⟨bridge, hbridge, chain, -, token, htoken, L₁, nonceConfig, hinit, -, -,
    -, -, -, -, -, -, -, -, -, -, nonce, -, ata, feeRecipient, feeAta, mint,
    haccounts, L₂, hata, amount, hamount, L₃, htransfer, L₄, hburn, withdrawn,
    -, _, -, _, -, L₅, hexit, rfl, -⟩ := h
  obtain ⟨rfl, rfl, rfl, rfl, -⟩ := withdrawGetAccounts_ok haccounts
  have hopen := Moves.of_createAta hata
  rw [openIfEmpty_congr (Ledger.initIfNeeded_of_ne hinit (by simp))] at hopen
  have hpaid := (((Moves.of_initIfNeeded hinit).trans hopen).trans
    (Moves.of_transfer htransfer)).trans (Moves.of_burn hburn)
  have hnet : amount.toNat = msg.amount.toNat -
      (withdrawFee msg.amount token.tokenFeePercentage).toNat := by
    omega
  rw [hnet] at hpaid
  have hdone := hpaid.trans_nil (Moves.of_exit hexit)
  simp only [tokenMoves, Ledger.fetch_eq_some.mpr hbridge,
    Ledger.fetch_eq_some.mpr htoken]
  simpa [userSbtcAta, feeRecipientSbtcAta] using hdone

private theorem addOrUpdateLimiterWithSignatures_moves {ctx : Context}
    {submitter : Pubkey} {signatures : U8} {msg : UpdateLimiterMsg}
    (h : addOrUpdateLimiterWithSignatures L ctx submitter signatures msg =
      .ok (L', events)) : Moves L [] L' := by
  simp only [addOrUpdateLimiterWithSignatures, bind_eq_ok, require_eq_ok,
    pure_eq_ok, exists_and_left, exists_const, Prod.exists, Prod.mk.injEq] at h
  obtain ⟨_, -, bridge, -, chain, -, token, -, L₁, nonceConfig, hinitNonce, L₂,
    limiter, hinitLimiter, -, -, -, -, -, nonceConfig', -, L₃, hexitChain, L₄,
    hexitToken, L₅, hexitNonce, L₆, hexitLimiter, rfl, -⟩ := h
  exact (((((Moves.of_initIfNeeded hinitNonce).trans_nil
    (Moves.of_initIfNeeded hinitLimiter)).trans_nil
    (Moves.of_exit hexitChain)).trans_nil (Moves.of_exit hexitToken)).trans_nil
    (Moves.of_exit hexitNonce)).trans_nil (Moves.of_exit hexitLimiter)

end

theorem step_moves {host : Host} {e : BridgeRecord}
    (hstep : IsStep (step host) e) :
    Moves e.pre (tokenMoves e.pre e.input) e.post := by
  obtain ⟨L, input, events, L'⟩ := e
  simp only [IsStep] at hstep ⊢
  cases input with
  | createBridgeConfig => exact createBridgeConfig_moves hstep
  | addOrUpdateChain =>
      exact .of_upserts (addOrUpdateChain_eq_ok.mp hstep).2.1
  | addOrUpdateChainToken =>
      exact .of_upserts (addOrUpdateChainToken_eq_ok.mp hstep).2.2.2.1
  | createBridgeCommittee => exact createBridgeCommittee_moves hstep
  | addOrUpdateCommittee =>
      exact .of_upserts (addOrUpdateCommittee_eq_ok.mp hstep).2.1
  | addOrUpdateSubmitter =>
      exact .of_upserts (addOrUpdateSubmitter_eq_ok.mp hstep).2.1
  | mintSbtcWithSignatures => exact mintSbtcWithSignatures_moves hstep
  | withdrawBtc => exact withdrawBtc_moves hstep
  | addOrUpdateLimiterWithSignatures =>
      exact addOrUpdateLimiterWithSignatures_moves hstep
  | sendLamports target lamports =>
      simp only [step, Except.ok.injEq, Prod.mk.injEq] at hstep
      obtain ⟨rfl, -⟩ := hstep
      refine .of_bodies (fun a => Ledger.set_lamports_body L target a _)
        (.of_set ⟨Nat.le_add_right _ _, fun hrent space hspace => ?_⟩)
      exact (hrent space hspace).trans (Nat.le_add_right _ _)
  | openTokenAccount target owner mint =>
      simp only [step, bind_eq_ok, require_eq_ok, pure_eq_ok, Prod.mk.injEq,
        exists_and_left, exists_const] at hstep
      obtain ⟨-, L₁, hinit, rfl, -⟩ := hstep
      exact .of_initTokenAccount hinit
  | sendTokens source destination authority amount =>
      simp only [step, bind_eq_ok, pure_eq_ok, Prod.mk.injEq] at hstep
      obtain ⟨L₁, htransfer, rfl, -⟩ := hstep
      exact .of_transfer htransfer

/-- Every run of the program is a run of the bank. -/
theorem execute_bank (host : Host) (inputs : List Input) :
    Path Bank.Step Bank.empty ((execute host inputs).log.flatMap fun e =>
      tokenMoves e.pre e.input) (execute host inputs).state.bank := by
  have hrun : ∃ B, Path Bank.Step Bank.empty ((execute host inputs).log.flatMap
      fun e => tokenMoves e.pre e.input) B ∧
      (execute host inputs).state.bank = B :=
    run_simulated (s := Ledger.empty) (I := fun _ => True)
      (R := fun L B => L.bank = B) (fun e => tokenMoves e.pre e.input) trivial
      rfl (fun _ _ _ => trivial)
      (fun _ _ _ hrelated hstep =>
        ⟨_, hrelated ▸ (step_moves hstep).path, rfl⟩) inputs
  rcases hrun with ⟨B, hpath, rfl⟩
  exact hpath

end SolBtcBridge.Effects
