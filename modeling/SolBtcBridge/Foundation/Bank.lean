import SolBtcBridge.Foundation.Simulation
import Mathlib.Algebra.BigOperators.Finprod

/-!
# Banks

A bank keeps two kinds of accounts under one type of keys: mints, which count
the tokens that exist, and holdings, each with one mint and one owner.  Tokens
appear and disappear only under the authority of a mint or of the owner, and a
sound bank has issued exactly the tokens that its accounts hold.
-/

namespace SolBtcBridge.Foundation

open Function

variable {κ : Type}

inductive BankAccount (κ : Type) where
  | mint (authority : κ) (supply : Nat)
  | holding (mint owner : κ) (amount : Nat)

def Bank (κ : Type) := κ → Option (BankAccount κ)

inductive Move (κ : Type) where
  | createMint (mint authority : κ)
  | openAccount (account mint owner : κ)
  | issue (mint target authority : κ) (amount : Nat)
  | transfer (source destination authority : κ) (amount : Nat)
  | burn (mint source authority : κ) (amount : Nat)

namespace Bank

def empty : Bank κ := fun _ => none

/-- What an account keeps for good: its authority, or its mint and owner. -/
def identity : BankAccount κ → κ ⊕ κ × κ
  | .mint authority _ => .inl authority
  | .holding mint owner _ => .inr (mint, owner)

def Extends (B B' : Bank κ) : Prop :=
  ∀ a account, B a = some account →
    ∃ account', B' a = some account' ∧ identity account' = identity account

theorem Extends.refl (B : Bank κ) : Extends B B :=
  fun _ account h => ⟨account, h, rfl⟩

theorem Extends.trans {B B' B'' : Bank κ} (h : Extends B B')
    (h' : Extends B' B'') : Extends B B'' := by
  intro a account ha
  rcases h a account ha with ⟨account', ha', hsame⟩
  rcases h' a account' ha' with ⟨account'', ha'', hsame'⟩
  exact ⟨account'', ha'', hsame'.trans hsame⟩

theorem holding_ne_mint {B : Bank κ} {a mint authority owner m : κ} {supply held : Nat}
    (hmint : B mint = some (.mint authority supply))
    (ha : B a = some (.holding m owner held)) : a ≠ mint := by
  rintro rfl
  rw [hmint] at ha
  cases ha

variable [DecidableEq κ]

def set (B : Bank κ) (a : κ) (account : BankAccount κ) : Bank κ :=
  update B a (some account)

@[simp] theorem set_self (B : Bank κ) (a : κ) (account : BankAccount κ) :
    B.set a account a = some account := update_self a _ B

theorem set_of_ne (B : Bank κ) {a b : κ} (account : BankAccount κ)
    (h : b ≠ a) : B.set a account b = B b := update_of_ne h _ B

inductive Step (B : Bank κ) : Move κ → Bank κ → Prop
  | createMint {mint authority : κ} : B mint = none →
      Step B (.createMint mint authority) (B.set mint (.mint authority 0))
  | openAccount {a mint owner authority : κ} {supply : Nat} :
      B mint = some (.mint authority supply) → B a = none →
      Step B (.openAccount a mint owner) (B.set a (.holding mint owner 0))
  | issue {mint target authority owner : κ} {supply held amount : Nat} :
      B mint = some (.mint authority supply) →
      B target = some (.holding mint owner held) →
      Step B (.issue mint target authority amount)
        ((B.set mint (.mint authority (supply + amount))).set target
          (.holding mint owner (held + amount)))
  | transfer {source destination mint owner receiver : κ}
      {rest held amount : Nat} :
      B source = some (.holding mint owner (rest + amount)) →
      B destination = some (.holding mint receiver held) →
      source ≠ destination →
      Step B (.transfer source destination owner amount)
        ((B.set source (.holding mint owner rest)).set destination
          (.holding mint receiver (held + amount)))
  | transferSelf {source mint owner : κ} {rest amount : Nat} :
      B source = some (.holding mint owner (rest + amount)) →
      Step B (.transfer source source owner amount) B
  | burn {mint source authority owner : κ} {supply rest amount : Nat} :
      B mint = some (.mint authority (supply + amount)) →
      B source = some (.holding mint owner (rest + amount)) →
      Step B (.burn mint source owner amount)
        ((B.set mint (.mint authority supply)).set source
          (.holding mint owner rest))

def share (mint : κ) : Option (BankAccount κ) → Nat
  | some (.holding m _ amount) => if m = mint then amount else 0
  | _ => 0

noncomputable def held (B : Bank κ) (mint : κ) : Nat := ∑ᶠ a, share mint (B a)

def supplyOf : Option (BankAccount κ) → Nat
  | some (.mint _ supply) => supply
  | _ => 0

def amountOf : Option (BankAccount κ) → Nat
  | some (.holding _ _ amount) => amount
  | _ => 0

def supply (B : Bank κ) (a : κ) : Nat := supplyOf (B a)

def amount (B : Bank κ) (a : κ) : Nat := amountOf (B a)

structure Sound (B : Bank κ) : Prop where
  finite : {a | B a ≠ none}.Finite
  /-- Whatever an account holds was issued by a mint. -/
  issued : ∀ {a mint owner amount}, B a = some (.holding mint owner amount) →
    ∃ authority supply, B mint = some (.mint authority supply)
  backed : ∀ mint, B.held mint = B.supply mint

section

variable {B B' : Bank κ} {mint : κ}

theorem finite_share (h : {a | B a ≠ none}.Finite) (mint : κ) :
    (fun a => share mint (B a)).HasFiniteSupport := by
  apply h.subset
  intro a ha hnone
  exact ha (by simp [hnone, share])

theorem held_set (h : {a | B a ≠ none}.Finite) (a mint : κ)
    (account : BankAccount κ) :
    (B.set a account).held mint + share mint (B a) =
      B.held mint + share mint (some account) := by
  have hrest : HasFiniteSupport (update (fun b => share mint (B b)) a 0) := by
    apply (finite_share h mint).subset
    intro b hb
    by_cases hba : b = a
    · simp [hba] at hb
    · simpa [update_of_ne hba] using hb
  have hsingle : ∀ n : Nat, HasFiniteSupport (Pi.single a n : κ → Nat) :=
    fun n => (Set.finite_singleton a).subset Pi.support_single_subset
  have hsplit : ∀ n : Nat, ∑ᶠ b, update (fun b => share mint (B b)) a n b =
      ∑ᶠ b, update (fun b => share mint (B b)) a 0 b + n := by
    intro n
    have hsum := finsum_add_distrib hrest (hsingle n)
    have hone : ∑ᶠ b, (Pi.single a n : κ → Nat) b = n := by
      rw [finsum_eq_single _ a fun b hb => by rw [Pi.single_apply, if_neg hb],
        Pi.single_eq_same]
    rw [hone] at hsum
    rw [← hsum]
    refine finsum_congr fun b => ?_
    by_cases hba : b = a
    · simp [hba]
    · simp [update_of_ne hba, Pi.single_eq_of_ne hba]
  have hnew : (B.set a account).held mint =
      ∑ᶠ b, update (fun b => share mint (B b)) a (share mint (some account)) b :=
    finsum_congr fun b => apply_update (fun _ y => share mint y) B a _ b
  have hold : B.held mint =
      ∑ᶠ b, update (fun b => share mint (B b)) a (share mint (B a)) b := by
    rw [update_eq_self a fun b => share mint (B b)]
    rfl
  rw [hnew, hold, hsplit, hsplit (share mint (B a))]
  omega

theorem finite_set (h : {a | B a ≠ none}.Finite) (a : κ)
    (account : BankAccount κ) : {b | B.set a account b ≠ none}.Finite := by
  apply (h.insert a).subset
  intro b hb
  by_cases hba : b = a
  · exact .inl hba
  · right
    simpa [set_of_ne B account hba] using hb

theorem supply_set (B : Bank κ) (a mint : κ) (account : BankAccount κ) :
    (B.set a account).supply mint + (if a = mint then supplyOf (B a) else 0) =
      B.supply mint + if a = mint then supplyOf (some account) else 0 := by
  unfold supply
  split
  · rename_i ha
    subst ha
    rw [set_self, Nat.add_comm]
  · rename_i ha
    rw [set_of_ne B account (Ne.symm ha)]

theorem held_set_set (h : {a | B a ≠ none}.Finite) {a b : κ} (hne : b ≠ a)
    (mint : κ) (first second : BankAccount κ) :
    ((B.set a first).set b second).held mint + share mint (B a) +
        share mint (B b) =
      B.held mint + share mint (some first) + share mint (some second) := by
  have hfirst := held_set h a mint first
  have hsecond := held_set (finite_set h a first) b mint second
  rw [set_of_ne B first hne] at hsecond
  omega

theorem supply_set_set (B : Bank κ) {a b : κ} (hne : b ≠ a) (mint : κ)
    (first second : BankAccount κ) :
    ((B.set a first).set b second).supply mint +
        (if a = mint then supplyOf (B a) else 0) +
        (if b = mint then supplyOf (B b) else 0) =
      B.supply mint + (if a = mint then supplyOf (some first) else 0) +
        if b = mint then supplyOf (some second) else 0 := by
  have hfirst := supply_set B a mint first
  have hsecond := supply_set (B.set a first) b mint second
  rw [set_of_ne B first hne] at hsecond
  omega

theorem Sound.share_le (h : B.Sound) (mint a : κ) :
    share mint (B a) ≤ B.supply mint := by
  rw [← h.backed mint]
  exact single_le_finsum a (finite_share h.finite mint) fun _ => Nat.zero_le _

theorem Sound.share_add_le (h : B.Sound) (mint : κ) {a b : κ} (hne : b ≠ a) :
    share mint (B a) + share mint (B b) ≤ B.supply mint := by
  have hrest : share mint (B b) ≤ (B.set a (.mint a 0)).held mint := by
    rw [← set_of_ne B (.mint a 0) hne]
    exact single_le_finsum b
      (finite_share (finite_set h.finite a (.mint a 0)) mint)
      fun _ => Nat.zero_le _
  have hset := held_set h.finite a mint (.mint a 0)
  have hzero : share mint (some (.mint a 0)) = 0 := rfl
  rw [← h.backed mint]
  omega

end

/-! ## What a step keeps -/

section

variable {B B' : Bank κ} {move : Move κ} {a : κ}

theorem identity_set {old account : BankAccount κ} (h : B a = some old)
    (hsame : identity account = identity old) (b : κ) :
    (B.set a account b).map identity = (B b).map identity := by
  by_cases hb : b = a
  · rw [hb, set_self, h, Option.map_some, Option.map_some, hsame]
  · rw [set_of_ne B account hb]

theorem identity_set_set {b : κ} {old old' first second : BankAccount κ}
    (ha : B a = some old) (hb : B b = some old') (hne : b ≠ a)
    (hfirst : identity first = identity old)
    (hsecond : identity second = identity old') (c : κ) :
    ((B.set a first).set b second c).map identity = (B c).map identity := by
  have hkept : B.set a first b = some old' := by rw [set_of_ne B first hne, hb]
  rw [identity_set hkept hsecond, identity_set ha hfirst]

theorem extends_set {account : BankAccount κ} (h : B a = none) :
    Extends B (B.set a account) := by
  intro b x hb
  have hba : b ≠ a := by
    rintro rfl
    rw [h] at hb
    contradiction
  exact ⟨x, by rw [set_of_ne B account hba, hb], rfl⟩

/-- A step opens one account, or keeps all accounts with their identities. -/
inductive Accounts (B : Bank κ) : Move κ → Bank κ → Prop
  | same {move : Move κ} {B' : Bank κ} :
      (∀ a, (B' a).map identity = (B a).map identity) → Accounts B move B'
  | newMint {a authority : κ} : B a = none →
      Accounts B (.createMint a authority) (B.set a (.mint authority 0))
  | newHolding {a mint owner authority : κ} {supply : Nat} :
      B mint = some (.mint authority supply) → B a = none →
      Accounts B (.openAccount a mint owner) (B.set a (.holding mint owner 0))

theorem Step.accounts (h : Step B move B') : Accounts B move B' := by
  cases h with
  | createMint hnone => exact .newMint hnone
  | openAccount hmint hnone => exact .newHolding hmint hnone
  | issue hmint htarget =>
      exact .same (identity_set_set hmint htarget
        (holding_ne_mint hmint htarget) rfl rfl)
  | transfer hsource hdestination hne =>
      exact .same (identity_set_set hsource hdestination hne.symm rfl rfl)
  | transferSelf => exact .same fun _ => rfl
  | burn hmint hsource =>
      exact .same (identity_set_set hmint hsource
        (holding_ne_mint hmint hsource) rfl rfl)

theorem Accounts.extends (h : Accounts B move B') : Extends B B' := by
  cases h with
  | same hsame =>
      intro a account ha
      have hmap := hsame a
      rw [ha, Option.map_some] at hmap
      exact Option.map_eq_some_iff.mp hmap
  | newMint hnone => exact extends_set hnone
  | newHolding _ hnone => exact extends_set hnone

theorem Accounts.issued (h : Accounts B move B') {mint owner : κ} {held : Nat}
    (hissued : ∀ {a mint owner amount}, B a = some (.holding mint owner amount) →
      ∃ authority supply, B mint = some (.mint authority supply))
    (ha : B' a = some (.holding mint owner held)) :
    ∃ authority supply, B mint = some (.mint authority supply) := by
  cases h with
  | same hsame =>
      have hmap := hsame a
      rw [ha, Option.map_some, eq_comm, Option.map_eq_some_iff] at hmap
      rcases hmap with ⟨account, haccount, hidentity⟩
      cases account with
      | mint => cases hidentity
      | holding m o n =>
          cases hidentity
          exact hissued haccount
  | @newMint b authority hnone =>
      by_cases hb : a = b
      · rw [hb, set_self] at ha
        cases ha
      · rw [set_of_ne B _ hb] at ha
        exact hissued ha
  | @newHolding b m o authority supply hmint hnone =>
      by_cases hb : a = b
      · rw [hb, set_self] at ha
        cases ha
        exact ⟨authority, supply, hmint⟩
      · rw [set_of_ne B _ hb] at ha
        exact hissued ha

theorem Step.drift (hfinite : {a | B a ≠ none}.Finite) (h : Step B move B')
    (m : κ) : B'.held m + B.supply m = B.held m + B'.supply m := by
  cases h with
  | @createMint mint authority hnone =>
      have hheld := held_set hfinite mint m (.mint authority 0)
      have hsupply := supply_set B mint m (.mint authority 0)
      simp only [hnone, share, supplyOf, ite_self] at hheld hsupply
      omega
  | @openAccount a mint owner authority supply hmint hnone =>
      have hheld := held_set hfinite a m (.holding mint owner 0)
      have hsupply := supply_set B a m (.holding mint owner 0)
      simp only [hnone, share, supplyOf, ite_self] at hheld hsupply
      omega
  | @issue mint target authority owner supply held amount hmint htarget =>
      have hne := holding_ne_mint hmint htarget
      have hheld := held_set_set hfinite hne m
        (.mint authority (supply + amount)) (.holding mint owner (held + amount))
      have hsupply := supply_set_set B hne m
        (.mint authority (supply + amount)) (.holding mint owner (held + amount))
      simp only [hmint, htarget, share, supplyOf, ite_self] at hheld hsupply
      split_ifs at hheld hsupply <;> omega
  | @transfer source destination mint owner receiver rest held amount hsource
      hdestination hne =>
      have hheld := held_set_set hfinite hne.symm m
        (.holding mint owner rest) (.holding mint receiver (held + amount))
      have hsupply := supply_set_set B hne.symm m
        (.holding mint owner rest) (.holding mint receiver (held + amount))
      simp only [hsource, hdestination, share, supplyOf, ite_self]
        at hheld hsupply
      split_ifs at hheld <;> omega
  | transferSelf => rfl
  | @burn mint source authority owner supply rest amount hmint hsource =>
      have hne := holding_ne_mint hmint hsource
      have hheld := held_set_set hfinite hne m (.mint authority supply)
        (.holding mint owner rest)
      have hsupply := supply_set_set B hne m (.mint authority supply)
        (.holding mint owner rest)
      simp only [hmint, hsource, share, supplyOf, ite_self] at hheld hsupply
      split_ifs at hheld hsupply <;> omega

theorem Step.finite (hfinite : {a | B a ≠ none}.Finite) (h : Step B move B') :
    {a | B' a ≠ none}.Finite := by
  cases h with
  | createMint => exact finite_set hfinite _ _
  | openAccount => exact finite_set hfinite _ _
  | issue => exact finite_set (finite_set hfinite _ _) _ _
  | transfer => exact finite_set (finite_set hfinite _ _) _ _
  | transferSelf => exact hfinite
  | burn => exact finite_set (finite_set hfinite _ _) _ _

theorem Sound.step (hsound : B.Sound) (h : Step B move B') : B'.Sound where
  finite := h.finite hsound.finite
  issued := by
    intro a mint owner held ha
    rcases h.accounts.issued hsound.issued ha with ⟨authority, supply, hmint⟩
    rcases h.accounts.extends mint _ hmint with ⟨account, haccount, hsame⟩
    cases account with
    | mint authority' supply' => exact ⟨authority', supply', haccount⟩
    | holding => cases hsame
  backed := by
    intro m
    have hdrift := h.drift hsound.finite m
    have hbacked := hsound.backed m
    omega

def opens : Move κ → Option (κ × (κ ⊕ κ × κ))
  | .createMint mint authority => some (mint, .inl authority)
  | .openAccount a mint owner => some (a, .inr (mint, owner))
  | _ => none

theorem Accounts.opened {P : κ → κ ⊕ κ × κ → Prop} (h : Accounts B move B')
    (hmove : ∀ x ∈ opens move, P x.1 x.2)
    (hB : ∀ b account, B b = some account → P b (identity account))
    {account : BankAccount κ} (ha : B' a = some account) :
    P a (identity account) := by
  have hnew : ∀ b x, P b (identity x) → B.set b x a = some account →
      P a (identity account) := by
    intro b x hx hset
    by_cases hab : a = b
    · subst hab
      rw [set_self, Option.some.injEq] at hset
      rwa [← hset]
    · rw [set_of_ne B x hab] at hset
      exact hB a account hset
  cases h with
  | same hsame =>
      have hmap := hsame a
      rw [ha, Option.map_some, eq_comm, Option.map_eq_some_iff] at hmap
      rcases hmap with ⟨old, hold, hidentity⟩
      rw [← hidentity]
      exact hB a old hold
  | @newMint b authority => exact hnew b (.mint authority 0) (hmove _ rfl) ha
  | @newHolding b mint owner =>
      exact hnew b (.holding mint owner 0) (hmove _ rfl) ha

/-! ## Statements of account -/

def debit : Move κ → κ → Nat
  | .transfer source _ _ amount, a => if source = a then amount else 0
  | .burn _ source _ amount, a => if source = a then amount else 0
  | _, _ => 0

def credit : Move κ → κ → Nat
  | .issue _ target _ amount, a => if target = a then amount else 0
  | .transfer _ destination _ amount, a => if destination = a then amount else 0
  | _, _ => 0

def signer : Move κ → Option κ
  | .issue _ _ authority _ => some authority
  | .transfer _ _ authority _ => some authority
  | .burn _ _ authority _ => some authority
  | _ => none

theorem amount_set (B : Bank κ) (a b : κ) (account : BankAccount κ) :
    (B.set a account).amount b + (if a = b then amountOf (B a) else 0) =
      B.amount b + if a = b then amountOf (some account) else 0 := by
  unfold amount
  split
  · rename_i ha
    subst ha
    rw [set_self, Nat.add_comm]
  · rename_i ha
    rw [set_of_ne B account (Ne.symm ha)]

theorem amount_set_set (B : Bank κ) {a b : κ} (hne : b ≠ a) (c : κ)
    (first second : BankAccount κ) :
    ((B.set a first).set b second).amount c +
        (if a = c then amountOf (B a) else 0) +
        (if b = c then amountOf (B b) else 0) =
      B.amount c + (if a = c then amountOf (some first) else 0) +
        if b = c then amountOf (some second) else 0 := by
  have hfirst := amount_set B a c first
  have hsecond := amount_set (B.set a first) b c second
  rw [set_of_ne B first hne] at hsecond
  omega

theorem Step.statement (h : Step B move B') (a : κ) :
    B'.amount a + debit move a = B.amount a + credit move a := by
  cases h with
  | @createMint mint authority hnone =>
      have hamount := amount_set B mint a (.mint authority 0)
      simp only [hnone, amountOf, ite_self] at hamount
      exact hamount
  | @openAccount b mint owner authority supply hmint hnone =>
      have hamount := amount_set B b a (.holding mint owner 0)
      simp only [hnone, amountOf, ite_self] at hamount
      exact hamount
  | @issue mint target authority owner supply held amount hmint htarget =>
      have hamount := amount_set_set B (holding_ne_mint hmint htarget) a
        (.mint authority (supply + amount)) (.holding mint owner (held + amount))
      simp only [hmint, htarget, amountOf, ite_self] at hamount
      simp only [debit, credit]
      split_ifs at hamount ⊢ <;> omega
  | @transfer source destination mint owner receiver rest held amount hsource
      hdestination hne =>
      have hamount := amount_set_set B hne.symm a
        (.holding mint owner rest) (.holding mint receiver (held + amount))
      simp only [hsource, hdestination, amountOf] at hamount
      simp only [debit, credit]
      split_ifs at hamount ⊢ <;> omega
  | transferSelf => rfl
  | @burn mint source authority owner supply rest amount hmint hsource =>
      have hamount := amount_set_set B (holding_ne_mint hmint hsource) a
        (.mint authority supply) (.holding mint owner rest)
      simp only [hmint, hsource, amountOf, ite_self] at hamount
      simp only [debit, credit]
      split_ifs at hamount ⊢ <;> omega

theorem Step.signed (h : Step B move B') (hdebit : debit move a ≠ 0) :
    ∃ mint owner held, B a = some (.holding mint owner held) ∧
      signer move = some owner := by
  cases h with
  | createMint => exact absurd rfl hdebit
  | openAccount => exact absurd rfl hdebit
  | issue => exact absurd rfl hdebit
  | transfer hsource =>
      obtain rfl := (ite_ne_right_iff.mp hdebit).1
      exact ⟨_, _, _, hsource, rfl⟩
  | transferSelf hsource =>
      obtain rfl := (ite_ne_right_iff.mp hdebit).1
      exact ⟨_, _, _, hsource, rfl⟩
  | burn _ hsource =>
      obtain rfl := (ite_ne_right_iff.mp hdebit).1
      exact ⟨_, _, _, hsource, rfl⟩

variable {moves : List (Move κ)}

theorem sound_empty : (empty : Bank κ).Sound where
  finite := by simp [empty]
  issued := fun h => by cases h
  backed := fun _ => finsum_zero

theorem path_sound (h : Path Step B moves B') (hsound : B.Sound) : B'.Sound :=
  h.invariant (fun hsound hstep => hsound.step hstep) hsound

theorem path_extends (h : Path Step B moves B') : Extends B B' :=
  h.relation Extends.refl Extends.trans fun hstep => hstep.accounts.extends

theorem path_opened {P : κ → κ ⊕ κ × κ → Prop} (h : Path Step B moves B')
    (hmoves : ∀ move ∈ moves, ∀ x ∈ opens move, P x.1 x.2)
    (hB : ∀ b account, B b = some account → P b (identity account)) :
    ∀ b account, B' b = some account → P b (identity account) := by
  induction h with
  | nil => exact hB
  | cons hstep _ ih =>
      apply ih fun move hmove => hmoves move (List.mem_cons_of_mem _ hmove)
      intro b account hb
      exact hstep.accounts.opened (hmoves _ List.mem_cons_self) hB hb

theorem path_statement (h : Path Step B moves B') (a : κ) :
    B'.amount a + (moves.map (debit · a)).sum =
      B.amount a + (moves.map (credit · a)).sum :=
  h.balance (f := (amount · a)) (credit · a) (debit · a)
    fun hstep => hstep.statement a

end

end Bank

end SolBtcBridge.Foundation
