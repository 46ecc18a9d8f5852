import Mathlib.Algebra.BigOperators.Group.List.Basic
import Mathlib.Algebra.Order.Group.Nat
import Mathlib.Data.List.Induction

/-!
# Runs of a fallible step function

A step either fails, and then nothing happened, or it moves to a new state and
produces an output.  A run processes a list of inputs and records every
successful step.  Besides the induction principle, this file has one rule for
each way a run is usually observed: a quantity that every step changes by a
known amount, a counter that numbers some of the steps, a resource that can be
claimed at most once, and a register that holds the last value written.
-/

namespace SolBtcBridge.Foundation

structure Record (σ ι ο : Type) where
  pre : σ
  input : ι
  output : ο
  post : σ

structure Trace (σ ι ο : Type) where
  state : σ
  log : List (Record σ ι ο)

section

variable {σ ι ο ε : Type} (step : σ → ι → Except ε (σ × ο))

def advance (t : Trace σ ι ο) (i : ι) : Trace σ ι ο :=
  match step t.state i with
  | .ok (s, o) => ⟨s, t.log ++ [⟨t.state, i, o, s⟩]⟩
  | .error _ => t

def run (s : σ) (inputs : List ι) : Trace σ ι ο :=
  inputs.foldl (advance step) ⟨s, []⟩

def IsStep (e : Record σ ι ο) : Prop :=
  step e.pre e.input = .ok (e.post, e.output)

variable {step}

@[simp] theorem run_nil (s : σ) : run step s [] = ⟨s, []⟩ := rfl

theorem run_concat (s : σ) (inputs : List ι) (i : ι) :
    run step s (inputs ++ [i]) = advance step (run step s inputs) i := by
  simp [run, List.foldl_append]

variable (step) in
theorem advance_cases (t : Trace σ ι ο) (i : ι) :
    (∃ e : Record σ ι ο, e.pre = t.state ∧ e.input = i ∧ IsStep step e ∧
      advance step t i = ⟨e.post, t.log ++ [e]⟩) ∨ advance step t i = t := by
  unfold advance
  cases hstep : step t.state i with
  | error failure => exact .inr rfl
  | ok result =>
      obtain ⟨s, o⟩ := result
      exact .inl ⟨⟨t.state, i, o, s⟩, rfl, rfl, hstep, rfl⟩

theorem run_inputs_sublist (s : σ) (inputs : List ι) :
    ((run step s inputs).log.map Record.input).Sublist inputs := by
  induction inputs using List.reverseRecOn with
  | nil => exact List.Sublist.refl []
  | append_singleton inputs i ih =>
      rw [run_concat]
      rcases advance_cases step (run step s inputs) i with
        ⟨e, -, rfl, -, heq⟩ | heq
      · rw [heq, List.map_append]
        exact ih.append (List.Sublist.refl [e.input])
      · rw [heq]
        exact ih.trans (List.sublist_append_left inputs [i])

/-- What holds at the start and after each successful step holds of every run. -/
theorem run_induction {P : Trace σ ι ο → Prop} {s : σ} (start : P ⟨s, []⟩)
    (next : ∀ log e, P ⟨e.pre, log⟩ → IsStep step e → P ⟨e.post, log ++ [e]⟩)
    (inputs : List ι) : P (run step s inputs) := by
  induction inputs using List.reverseRecOn with
  | nil => exact start
  | append_singleton inputs i ih =>
      rw [run_concat]
      rcases advance_cases step (run step s inputs) i with
        ⟨e, hpre, -, hstep, heq⟩ | heq
      · rw [heq]
        apply next _ _ _ hstep
        rw [hpre]
        exact ih
      · rw [heq]
        exact ih

theorem run_invariant {I : σ → Prop} {s : σ} (start : I s)
    (next : ∀ e : Record σ ι ο, I e.pre → IsStep step e → I e.post)
    (inputs : List ι) : I (run step s inputs).state :=
  run_induction (P := fun t => I t.state) start
    (fun _ e hpre hstep => next e hpre hstep) inputs

theorem run_invariant_of {I : σ → Prop} {C : ι → Prop} {s : σ} {inputs : List ι}
    (start : I s)
    (next : ∀ e : Record σ ι ο, I e.pre → IsStep step e → C e.input → I e.post)
    (h : ∀ i ∈ inputs, C i) : I (run step s inputs).state := by
  have hrun : (∀ e ∈ (run step s inputs).log, C e.input) →
      I (run step s inputs).state := by
    refine run_induction (P := fun t => (∀ e ∈ t.log, C e.input) → I t.state)
      (fun _ => start) ?_ inputs
    intro log e ih hstep hlog
    apply next e _ hstep (hlog e (by simp))
    exact ih fun d hd => hlog d (List.mem_append_left [e] hd)
  apply hrun
  intro e he
  exact h e.input ((run_inputs_sublist s inputs).subset (List.mem_map_of_mem he))

theorem run_split {s : σ} {inputs : List ι} {log rest : List (Record σ ι ο)}
    {e : Record σ ι ο} (h : (run step s inputs).log = log ++ e :: rest) :
    IsStep step e ∧ ∃ before after, inputs = before ++ e.input :: after ∧
      run step s before = ⟨e.pre, log⟩ := by
  induction inputs using List.reverseRecOn generalizing rest with
  | nil => simp at h
  | append_singleton inputs i ih =>
      rw [run_concat] at h
      rcases advance_cases step (run step s inputs) i with
        ⟨last, hpre, rfl, hstep, heq⟩ | heq
      · rw [heq] at h
        simp only at h
        rcases List.eq_nil_or_concat rest with rfl | ⟨rest, x, rfl⟩
        · obtain ⟨hlog, hlast⟩ := List.append_inj' h rfl
          obtain rfl : last = e := by simpa using hlast
          refine ⟨hstep, inputs, [], by simp, ?_⟩
          rw [hpre, ← hlog]
        · rw [List.concat_eq_append, ← List.cons_append,
            ← List.append_assoc] at h
          obtain ⟨hlog, -⟩ := List.append_inj' h rfl
          obtain ⟨hIsStep, before, after, rfl, hbefore⟩ := ih hlog
          exact ⟨hIsStep, before, after ++ [last.input], by simp, hbefore⟩
      · rw [heq] at h
        obtain ⟨hIsStep, before, after, rfl, hbefore⟩ := ih h
        exact ⟨hIsStep, before, after ++ [i], by simp, hbefore⟩

theorem isStep_of_mem {s : σ} {inputs : List ι} {e : Record σ ι ο}
    (h : e ∈ (run step s inputs).log) : IsStep step e := by
  obtain ⟨log, rest, heq⟩ := List.append_of_mem h
  exact (run_split heq).1

theorem run_invariant_pre {I : σ → Prop} {s : σ} (start : I s)
    (next : ∀ e : Record σ ι ο, I e.pre → IsStep step e → I e.post)
    {inputs : List ι} {e : Record σ ι ο}
    (h : e ∈ (run step s inputs).log) : I e.pre := by
  obtain ⟨log, rest, heq⟩ := List.append_of_mem h
  obtain ⟨-, before, -, -, hbefore⟩ := run_split heq
  have hinv := run_invariant start next before
  rwa [hbefore] at hinv

/-- The value of a register after the recorded steps, each of which updates it. -/
def replay {V : Type} (update : ι → V → V) (log : List (Record σ ι ο)) (v : V) : V :=
  log.foldl (fun v e => update e.input v) v

theorem replay_concat {V : Type} (update : ι → V → V)
    (log : List (Record σ ι ο)) (e : Record σ ι ο) (v : V) :
    replay update (log ++ [e]) v = update e.input (replay update log v) := by
  rw [replay, replay, List.foldl_append]
  rfl

theorem run_replay {V : Type} {I : σ → Prop} {R : σ → V → Prop}
    (update : ι → V → V) {s : σ} {inputs : List ι}
    {log later : List (Record σ ι ο)} {e : Record σ ι ο} {v : V} (start : I s)
    (next : ∀ e : Record σ ι ο, I e.pre → IsStep step e → I e.post)
    (h : (run step s inputs).log = log ++ e :: later) (established : R e.post v)
    (keep : ∀ d ∈ later, I d.pre → IsStep step d → ∀ v, R d.pre v →
      R d.post (update d.input v)) :
    R (run step s inputs).state (replay update later v) := by
  induction inputs using List.reverseRecOn generalizing later with
  | nil => simp at h
  | append_singleton inputs i ih =>
      have hinv := run_invariant start next inputs
      rw [run_concat] at h ⊢
      rcases advance_cases step (run step s inputs) i with
        ⟨last, hpre, -, hstep, heq⟩ | heq
      · rw [heq] at h ⊢
        simp only at h ⊢
        rcases List.eq_nil_or_concat later with rfl | ⟨later, x, rfl⟩
        · obtain ⟨-, hlast⟩ := List.append_inj' h rfl
          obtain rfl : last = e := by simpa using hlast
          exact established
        · rw [List.concat_eq_append, ← List.cons_append,
            ← List.append_assoc] at h
          obtain ⟨hlog, hlast⟩ := List.append_inj' h rfl
          obtain rfl : last = x := by simpa using hlast
          rw [← hpre] at hinv
          have hbefore := ih hlog fun d hd => keep d (by simp [hd])
          rw [← hpre] at hbefore
          rw [List.concat_eq_append, replay_concat]
          exact keep last (by simp) hinv hstep _ hbefore
      · rw [heq] at h ⊢
        exact ih h keep

theorem run_since {I Q : σ → Prop} {s : σ} {inputs : List ι}
    {log later : List (Record σ ι ο)} {e : Record σ ι ο} (start : I s)
    (next : ∀ e : Record σ ι ο, I e.pre → IsStep step e → I e.post)
    (h : (run step s inputs).log = log ++ e :: later) (established : Q e.post)
    (keep : ∀ d ∈ later, I d.pre → IsStep step d → Q d.pre → Q d.post) :
    Q (run step s inputs).state :=
  run_replay (R := fun s _ => Q s) (v := ()) (fun _ v => v) start next h
    established fun d hd hpre hstep _ => keep d hd hpre hstep

/-- A recorded step imposes a restriction, and no later step lifts it. -/
def InForce (imposes lifts : ι → Bool) (log : List (Record σ ι ο)) : Prop :=
  ∃ before e later, log = before ++ e :: later ∧ imposes e.input = true ∧
    ∀ d ∈ later, lifts d.input = false

theorem inForce_of_index {imposes lifts : ι → Bool} {log : List (Record σ ι ο)}
    (k : Nat) (himposes : log[k]?.map (fun e => imposes e.input) = some true)
    (hlater : ∀ d ∈ log.drop (k + 1), lifts d.input = false) :
    InForce imposes lifts log := by
  rcases Option.map_eq_some_iff.mp himposes with ⟨e, hget, he⟩
  rcases List.getElem?_eq_some_iff.mp hget with ⟨hk, rfl⟩
  refine ⟨log.take k, log[k], log.drop (k + 1), ?_, he, hlater⟩
  rw [← List.drop_eq_getElem_cons, List.take_append_drop]

/-- A restriction in force still holds in the state that the run has reached. -/
theorem run_inForce {I Q : σ → Prop} {imposes lifts : ι → Bool} {s : σ}
    {inputs : List ι} (start : I s)
    (next : ∀ e : Record σ ι ο, I e.pre → IsStep step e → I e.post)
    (establish : ∀ e : Record σ ι ο, IsStep step e → imposes e.input = true →
      Q e.post)
    (keep : ∀ e : Record σ ι ο, I e.pre → IsStep step e →
      lifts e.input = false → Q e.pre → Q e.post)
    (h : InForce imposes lifts (run step s inputs).log) :
    Q (run step s inputs).state := by
  rcases h with ⟨before, e, later, hlog, himposes, hlater⟩
  have he : e ∈ (run step s inputs).log := by
    rw [hlog]
    exact List.mem_append_right before List.mem_cons_self
  apply run_since start next hlog
  · exact establish e (isStep_of_mem he) himposes
  · intro d hd hinv hstep
    exact keep d hinv hstep (hlater d hd)

/-- The property holds of every record together with the log before it. -/
def EachStep (P : List (Record σ ι ο) → Record σ ι ο → Prop)
    (log : List (Record σ ι ο)) : Prop :=
  ∀ before e after, log = before ++ e :: after → P before e

theorem eachStep_nil {P : List (Record σ ι ο) → Record σ ι ο → Prop} :
    EachStep P [] := by
  intro before e after h
  simp at h

theorem eachStep_concat {P : List (Record σ ι ο) → Record σ ι ο → Prop}
    {log : List (Record σ ι ο)} {e : Record σ ι ο} :
    EachStep P (log ++ [e]) ↔ EachStep P log ∧ P log e := by
  constructor
  · intro h
    refine ⟨fun before d after hlog => ?_, h log e [] rfl⟩
    exact h before d (after ++ [e]) (by simp [hlog])
  · rintro ⟨hlog, he⟩ before d after h
    rcases List.eq_nil_or_concat after with rfl | ⟨after, x, rfl⟩
    · obtain ⟨rfl, hlast⟩ := List.append_inj' h rfl
      obtain rfl : e = d := by simpa using hlast
      exact he
    · rw [List.concat_eq_append, ← List.cons_append, ← List.append_assoc] at h
      obtain ⟨hinit, -⟩ := List.append_inj' h rfl
      exact hlog before d after hinit

theorem EachStep.imp {P Q : List (Record σ ι ο) → Record σ ι ο → Prop}
    {log : List (Record σ ι ο)} (h : EachStep P log)
    (himp : ∀ before, ∀ e ∈ log, P before e → Q before e) : EachStep Q log := by
  intro before e after heq
  exact himp before e (by simp [heq]) (h before e after heq)

def EachStepFrom (P : List (Record σ ι ο) → Record σ ι ο → Prop) :
    List (Record σ ι ο) → List (Record σ ι ο) → Prop
  | _, [] => True
  | before, e :: after => P before e ∧ EachStepFrom P (before ++ [e]) after

theorem eachStepFrom_iff {P : List (Record σ ι ο) → Record σ ι ο → Prop}
    {start log : List (Record σ ι ο)} :
    EachStepFrom P start log ↔
      EachStep (fun before e => P (start ++ before) e) log := by
  induction log generalizing start with
  | nil => exact ⟨fun _ => eachStep_nil, fun _ => trivial⟩
  | cons e log ih =>
      rw [EachStepFrom, ih]
      constructor
      · rintro ⟨hfirst, hrest⟩ before d after h
        cases before with
        | nil =>
            obtain ⟨rfl, -⟩ := List.cons.inj h
            simpa using hfirst
        | cons x before =>
            obtain ⟨rfl, htail⟩ := List.cons.inj h
            simpa using hrest before d after htail
      · intro h
        refine ⟨by simpa using h [] e log rfl, fun before d after htail => ?_⟩
        simpa using h (e :: before) d after (by simp [htail])

def decidableEachStepFrom (P : List (Record σ ι ο) → Record σ ι ο → Prop)
    [∀ before e, Decidable (P before e)] :
    ∀ start log, Decidable (EachStepFrom P start log)
  | _, [] => isTrue trivial
  | start, e :: log =>
      have := decidableEachStepFrom P (start ++ [e]) log
      inferInstanceAs (Decidable (P start e ∧ EachStepFrom P (start ++ [e]) log))

instance (P : List (Record σ ι ο) → Record σ ι ο → Prop)
    [∀ before e, Decidable (P before e)] (log : List (Record σ ι ο)) :
    Decidable (EachStep P log) :=
  have := decidableEachStepFrom P [] log
  decidable_of_iff (EachStepFrom P [] log) eachStepFrom_iff

/-! ## Rules for common observations -/

theorem run_balance {M : Type} [AddCommMonoid M] {I : σ → Prop} {f : σ → M}
    (gain loss : Record σ ι ο → M) {s : σ} (start : I s)
    (next : ∀ e : Record σ ι ο, I e.pre → IsStep step e →
      I e.post ∧ f e.post + loss e = f e.pre + gain e) (inputs : List ι) :
    f (run step s inputs).state + ((run step s inputs).log.map loss).sum =
      f s + ((run step s inputs).log.map gain).sum := by
  refine (run_induction (P := fun t : Trace σ ι ο => I t.state ∧
    f t.state + (t.log.map loss).sum = f s + (t.log.map gain).sum)
    ⟨start, by simp⟩ ?_ inputs).2
  rintro log e ⟨hinv, hbalance⟩ hstep
  obtain ⟨hpost, hstepBalance⟩ := next e hinv hstep
  refine ⟨hpost, ?_⟩
  simp only [List.map_append, List.map_cons, List.map_nil, List.sum_append,
    List.sum_singleton] at hbalance ⊢
  calc f e.post + ((log.map loss).sum + loss e)
      = f e.post + loss e + (log.map loss).sum := by
        rw [add_comm _ (loss e), add_assoc]
    _ = f e.pre + (log.map loss).sum + gain e := by
        rw [hstepBalance, add_right_comm]
    _ = f s + ((log.map gain).sum + gain e) := by rw [hbalance, add_assoc]

theorem run_sum {M : Type} [AddCommMonoid M] {I : σ → Prop} {f : σ → M}
    (gain : Record σ ι ο → M) {s : σ} (start : I s)
    (next : ∀ e : Record σ ι ο, I e.pre → IsStep step e →
      I e.post ∧ f e.post = f e.pre + gain e) (inputs : List ι) :
    f (run step s inputs).state =
      f s + ((run step s inputs).log.map gain).sum := by
  have hbalance := run_balance gain (fun _ => 0) start (fun e hpre hstep => by
    rw [add_zero]
    exact next e hpre hstep) inputs
  simpa using hbalance

/-- A counter that numbers the selected steps consecutively. -/
theorem run_counter {β : Type} {I : σ → Prop} {f : σ → Nat}
    (select : Record σ ι ο → Option β) (number : β → Nat) (offset : Nat) {s : σ}
    (start : I s)
    (next : ∀ e : Record σ ι ο, I e.pre → IsStep step e → I e.post)
    (keep : ∀ e : Record σ ι ο, I e.pre → IsStep step e → select e = none →
      f e.post = f e.pre)
    (count : ∀ (e : Record σ ι ο) b, I e.pre → IsStep step e →
      select e = some b → number b = f e.pre + offset ∧ f e.post = f e.pre + 1)
    (inputs : List ι) :
    ((run step s inputs).log.filterMap select).map number =
      List.range' (f s + offset)
        ((run step s inputs).log.filterMap select).length := by
  refine (run_induction (P := fun t : Trace σ ι ο => I t.state ∧
    (t.log.filterMap select).map number =
      List.range' (f s + offset) (t.log.filterMap select).length ∧
    f t.state = f s + (t.log.filterMap select).length)
    ⟨start, by simp⟩ ?_ inputs).2.1
  rintro log e ⟨hinv, hrange, hcount⟩ hstep
  refine ⟨next e hinv hstep, ?_⟩
  simp only at hcount ⊢
  cases hselect : select e with
  | none =>
      have hnext := keep e hinv hstep hselect
      simp only [List.filterMap_append, List.filterMap_cons_none hselect,
        List.filterMap_nil, List.append_nil]
      exact ⟨hrange, hnext.trans hcount⟩
  | some b =>
      obtain ⟨hnumber, hbump⟩ := count e b hinv hstep hselect
      simp only [List.filterMap_append, List.filterMap_cons_some hselect,
        List.filterMap_nil, List.length_append, List.length_singleton,
        List.map_append, List.map_cons, List.map_nil]
      constructor
      · rw [List.range'_1_concat, ← hrange, hnumber, hcount]
        congr 2
        omega
      · omega

theorem run_once {I : σ → Prop} (claims : Record σ ι ο → Bool)
    (taken : σ → Prop) {s : σ} (start : I s)
    (next : ∀ e : Record σ ι ο, I e.pre → IsStep step e → I e.post ∧
      (taken e.pre → taken e.post) ∧
      (claims e = true → ¬ taken e.pre ∧ taken e.post)) (inputs : List ι) :
    ((run step s inputs).log.filter claims).length ≤ 1 := by
  refine (run_induction (P := fun t : Trace σ ι ο => I t.state ∧
    (t.log.filter claims).length ≤ 1 ∧
      (t.log.filter claims ≠ [] → taken t.state)) (by simpa using start) ?_
    inputs).2.1
  rintro log e ⟨hinv, hcount, htaken⟩ hstep
  obtain ⟨hpost, hkeep, hclaim⟩ := next e hinv hstep
  refine ⟨hpost, ?_⟩
  simp only [List.filter_append, List.filter_singleton] at htaken ⊢
  cases hc : claims e with
  | false =>
      simp only [cond_false, List.append_nil]
      exact ⟨hcount, fun h => hkeep (htaken h)⟩
  | true =>
      obtain ⟨hfree, hafter⟩ := hclaim hc
      have hnone : log.filter claims = [] := by
        by_contra h
        exact hfree (htaken h)
      simp [hnone, hafter]

theorem run_register {α : Type} {I : σ → Prop} {f : σ → α}
    (write : Record σ ι ο → Option α) {s : σ} (start : I s)
    (next : ∀ e : Record σ ι ο, I e.pre → IsStep step e →
      I e.post ∧ f e.post = (write e).getD (f e.pre)) (inputs : List ι) :
    f (run step s inputs).state =
      ((run step s inputs).log.filterMap write).getLast?.getD (f s) := by
  refine (run_induction (P := fun t : Trace σ ι ο => I t.state ∧
    f t.state = (t.log.filterMap write).getLast?.getD (f s))
    ⟨start, by simp⟩ ?_ inputs).2
  rintro log e ⟨hinv, hlast⟩ hstep
  obtain ⟨hpost, hwrite⟩ := next e hinv hstep
  refine ⟨hpost, ?_⟩
  simp only at hlast ⊢
  cases hw : write e with
  | none => simp [hwrite, hw, hlast, List.filterMap_cons_none hw]
  | some value => simp [hwrite, hw, List.filterMap_cons_some hw]

theorem run_slot {α : Type} {I : σ → Prop} {f : σ → Option α}
    (write : Record σ ι ο → Option α) {s : σ} (start : I s) (empty : f s = none)
    (next : ∀ e : Record σ ι ο, I e.pre → IsStep step e → I e.post ∧
      (write e = none → f e.post = f e.pre) ∧
      ∀ v, write e = some v → f e.pre = none ∧ f e.post = some v)
    (inputs : List ι) :
    (run step s inputs).log.filterMap write =
      (f (run step s inputs).state).toList := by
  refine (run_induction (P := fun t : Trace σ ι ο => I t.state ∧
    t.log.filterMap write = (f t.state).toList) ⟨start, by simp [empty]⟩ ?_
    inputs).2
  rintro log e ⟨hinv, hlog⟩ hstep
  obtain ⟨hpost, hkeep, hwrite⟩ := next e hinv hstep
  refine ⟨hpost, ?_⟩
  simp only [List.filterMap_append] at hlog ⊢
  cases hw : write e with
  | none =>
      rw [hlog, hkeep hw, List.filterMap_cons_none hw, List.filterMap_nil,
        List.append_nil]
  | some value =>
      obtain ⟨hfree, hheld⟩ := hwrite value hw
      rw [hlog, hfree, hheld, List.filterMap_cons_some hw, List.filterMap_nil]
      rfl

theorem run_journal {V Entry : Type} {I : σ → Prop} {f : σ → V}
    (entries : ο → List Entry) (post : V → Entry → V) {s : σ} (start : I s)
    (next : ∀ e : Record σ ι ο, I e.pre → IsStep step e → I e.post ∧
      f e.post = (entries e.output).foldl post (f e.pre)) (inputs : List ι) :
    f (run step s inputs).state =
      ((run step s inputs).log.flatMap fun e => entries e.output).foldl post
        (f s) := by
  refine (run_induction (P := fun t : Trace σ ι ο => I t.state ∧
    f t.state = (t.log.flatMap fun e => entries e.output).foldl post (f s))
    ⟨start, rfl⟩ ?_ inputs).2
  rintro log e ⟨hinv, hposted⟩ hstep
  obtain ⟨hpost, hnext⟩ := next e hinv hstep
  refine ⟨hpost, ?_⟩
  simp only at hposted ⊢
  rw [hnext, hposted, List.flatMap_append, List.foldl_append,
    List.flatMap_singleton]

/-- What has changed since the start was last changed by one of the steps. -/
theorem run_last_change {V : Type} (f : σ → V) (s : σ) (inputs : List ι) :
    f (run step s inputs).state = f s ∨
      ∃ before e after, (run step s inputs).log = before ++ e :: after ∧
        f e.post ≠ f e.pre ∧ f e.post = f (run step s inputs).state ∧
        ∀ d ∈ after, f d.post = f d.pre := by
  refine run_induction (P := fun t : Trace σ ι ο => f t.state = f s ∨
    ∃ before e after, t.log = before ++ e :: after ∧ f e.post ≠ f e.pre ∧
      f e.post = f t.state ∧ ∀ d ∈ after, f d.post = f d.pre) (.inl rfl) ?_ inputs
  intro log e ih _
  by_cases hsame : f e.post = f e.pre
  · rcases ih with hstart | ⟨before, d, after, rfl, hchanged, hlast, hkept⟩
    · exact .inl (hsame.trans hstart)
    · refine .inr ⟨before, d, after ++ [e], by simp, hchanged,
        hlast.trans hsame.symm, fun x hx => ?_⟩
      rcases List.mem_append.mp hx with hafter | hnew
      · exact hkept x hafter
      · rw [List.mem_singleton.mp hnew, hsame]
  · exact .inr ⟨log, e, [], rfl, hsame, rfl, by simp⟩

theorem run_append (s : σ) (inputs later : List ι) :
    run step s (inputs ++ later) =
      ⟨(run step (run step s inputs).state later).state, (run step s inputs).log ++
        (run step (run step s inputs).state later).log⟩ := by
  induction later using List.reverseRecOn with
  | nil => simp
  | append_singleton later i ih =>
      rw [← List.append_assoc, run_concat, run_concat, ih]
      unfold advance
      simp only
      split
      · rw [List.append_assoc]
      · rfl

theorem advance_of_ok {t : Trace σ ι ο} {i : ι} {s : σ} {o : ο}
    (h : step t.state i = .ok (s, o)) :
    advance step t i = ⟨s, t.log ++ [⟨t.state, i, o, s⟩]⟩ := by
  rw [advance, h]

theorem advance_of_failed {t : Trace σ ι ο} {i : ι}
    (h : ∀ s o, step t.state i ≠ .ok (s, o)) : advance step t i = t := by
  rw [advance]
  cases hstep : step t.state i with
  | ok result => exact absurd hstep (h result.1 result.2)
  | error failure => rfl

theorem run_cons_of_ok {s s' : σ} {i : ι} {o : ο} (inputs : List ι)
    (h : step s i = .ok (s', o)) :
    run step s (i :: inputs) =
      ⟨(run step s' inputs).state, ⟨s, i, o, s'⟩ :: (run step s' inputs).log⟩ := by
  have hfirst : run step s [i] = ⟨s', [⟨s, i, o, s'⟩]⟩ :=
    advance_of_ok (t := ⟨s, []⟩) h
  rw [← List.singleton_append, run_append, hfirst]
  rfl

end

end SolBtcBridge.Foundation
