/-
# Labelled transition systems

A system is a set of initial states and a labelled step relation. `Reachable`
is closed under steps from initial states, and `Reachable.invariant` is the one
induction every safety theorem over such a system goes through: an invariant
that holds initially and survives each step holds of every reachable state.

Many systems keep a promise only while their environment behaves. `restrict`
keeps the steps that meet a guard, so a theorem about every run whose steps all
meet a condition is a theorem about the reachable states of the restricted
system.
-/

import Mathlib.Data.List.Induction
import Mathlib.Logic.Relation

namespace Transition

universe u v

/-- A labelled transition system over states `σ` and labels `α`. -/
structure System (σ : Type u) (α : Type v) where
  /-- The states a run may start from. -/
  init : σ → Prop
  /-- One labelled step. -/
  step : σ → α → σ → Prop

namespace System

variable {σ : Type u} {α : Type v} (S : System σ α)

/-- The states a run of the system can pass through. -/
inductive Reachable : σ → Prop
  | init {state : σ} (start : S.init state) : Reachable state
  | step {source target : σ} {label : α} (prior : Reachable source)
      (taken : S.step source label target) : Reachable target

/-- A run from one state to another, recording its labels oldest first. -/
inductive Run : σ → List α → σ → Prop
  | nil (state : σ) : Run state [] state
  | cons {source middle target : σ} {label : α} {labels : List α}
      (taken : S.step source label middle) (rest : Run middle labels target) :
      Run source (label :: labels) target

/-- Keep only the steps that meet a guard on the state before and the label. -/
def restrict (guard : σ → α → Prop) : System σ α where
  init := S.init
  step source label target := S.step source label target ∧ guard source label

variable {S}

/-- An invariant that holds initially and survives every step holds of every
reachable state. The step case may use that the source is reachable. -/
theorem Reachable.invariant (Inv : σ → Prop)
    (start : ∀ state, S.init state → Inv state)
    (preserved : ∀ source label target, S.Reachable source → Inv source →
      S.step source label target → Inv target)
    {state : σ} (reached : S.Reachable state) : Inv state := by
  induction reached with
  | init hstart => exact start _ hstart
  | step prior taken ih => exact preserved _ _ _ prior ih taken

/-- A run from a reachable state ends in a reachable state. -/
theorem Reachable.run {source target : σ} {labels : List α}
    (reached : S.Reachable source) (run : S.Run source labels target) :
    S.Reachable target := by
  induction run with
  | nil state => exact reached
  | cons taken rest ih => exact ih (reached.step taken)

/-- Runs compose. -/
theorem Run.append {source middle target : σ} {first second : List α}
    (hfirst : S.Run source first middle) (hsecond : S.Run middle second target) :
    S.Run source (first ++ second) target := by
  induction hfirst with
  | nil state => exact hsecond
  | cons taken rest ih => exact .cons taken (ih hsecond)

/-- Extend a run by one step at its end. -/
theorem Run.snoc {source middle target : σ} {labels : List α} {label : α}
    (run : S.Run source labels middle) (taken : S.step middle label target) :
    S.Run source (labels ++ [label]) target :=
  run.append (.cons taken (.nil target))

/-- Where steps are computed, taking one label after the other makes a run. -/
theorem Run.of_foldlM {step : σ → α → Option σ}
    (steps : ∀ {state label next}, step state label = some next → S.step state label next)
    {labels : List α} {source target : σ} (taken : labels.foldlM step source = some target) :
    S.Run source labels target := by
  induction labels generalizing source with
  | nil =>
      cases taken
      exact .nil _
  | cons label rest ih =>
      obtain ⟨middle, hstep, hrest⟩ := Option.bind_eq_some_iff.mp taken
      exact .cons (steps hstep) (ih hrest)

/-- The same where every label can be taken. -/
theorem Run.of_foldl {step : σ → α → σ}
    (steps : ∀ state label, S.step state label (step state label))
    (source : σ) (labels : List α) : S.Run source labels (labels.foldl step source) := by
  induction labels generalizing source with
  | nil => exact .nil source
  | cons label rest ih => exact .cons (steps source label) (ih _)

/-- A computed step that is only taken where it meets a guard. -/
def guarded (step : σ → α → Option σ) (guard : σ → α → Prop)
    [∀ state label, Decidable (guard state label)] (state : σ) (label : α) : Option σ :=
  if guard state label then step state label else none

/-- Taking one guarded step after the other makes a run of the restricted system. -/
theorem Run.of_guarded {step : σ → α → Option σ} {guard : σ → α → Prop}
    [∀ state label, Decidable (guard state label)]
    (steps : ∀ {state label next}, step state label = some next → S.step state label next)
    {labels : List α} {source target : σ}
    (taken : labels.foldlM (guarded step guard) source = some target) :
    (S.restrict guard).Run source labels target := by
  apply Run.of_foldlM _ taken
  intro state label next hstep
  rw [guarded] at hstep
  split_ifs at hstep with hguard
  exact ⟨steps hstep, hguard⟩

end System

/-! ## Runs of a total step function -/

variable {σ : Type u} {α : Type v} {step : σ → α → σ} {P : σ → Prop} {guard : σ → α → Prop}

/-- What holds of every label of a run, given the ones before it, is checked label by
label. -/
theorem forall_splits_iff (p : List α → α → Prop) {labels : List α} :
    (∀ earlier label later, labels = earlier ++ label :: later → p earlier label) ↔
      ∀ index, (hindex : index < labels.length) → p (labels.take index) labels[index] := by
  constructor
  · intro hsplits index hindex
    apply hsplits _ _ (labels.drop (index + 1))
    rw [List.getElem_cons_drop, List.take_append_drop]
  · intro hindices earlier label later hsplit
    subst hsplit
    have hlength : earlier.length < (earlier ++ label :: later).length := by simp
    simpa using hindices earlier.length hlength

/-- A promise that each guarded step keeps holds all along a guarded run. -/
theorem foldl_of_guarded (keeps : ∀ state label, P state → guard state label →
      P (step state label)) {labels : List α} {start : σ} (holds : P start)
    (guarded : ∀ earlier label later, labels = earlier ++ label :: later →
      guard (earlier.foldl step start) label) : P (labels.foldl step start) := by
  induction labels generalizing start with
  | nil => exact holds
  | cons label rest ih =>
      apply ih (keeps start label holds (guarded [] label rest rfl))
      intro earlier other later hsplit
      exact guarded (label :: earlier) other later (by rw [hsplit]; rfl)

/-- Two runs of which the second leaves out the labels that are not seen stay related, if
seen labels keep the states related and the others keep the second state related to the
first. -/
theorem foldl_filter_of_unwinding {related : σ → σ → Prop} {seen : α → Bool}
    (kept : ∀ first second label, related first second → seen label = true →
      related (step first label) (step second label))
    (skipped : ∀ first second label, related first second → seen label = false →
      related (step first label) second)
    {first second : σ} (start : related first second) (labels : List α) :
    related (labels.foldl step first) ((labels.filter seen).foldl step second) := by
  induction labels generalizing first second with
  | nil => exact start
  | cons label rest ih =>
      cases hseen : seen label with
      | true =>
          rw [List.filter_cons_of_pos hseen]
          exact ih (kept first second label start hseen)
      | false =>
          rw [List.filter_cons_of_neg (Bool.not_eq_true _ ▸ hseen)]
          exact ih (skipped first second label start hseen)

/-- Where a step keeps a promise exactly when it meets the guard, a run keeps it
throughout exactly when all its steps meet the guard. -/
theorem forall_foldl_iff_guarded
    (keeps_iff : ∀ state label, P state → (P (step state label) ↔ guard state label))
    {start : σ} (holds : P start) (labels : List α) :
    (∀ earlier later, labels = earlier ++ later → P (earlier.foldl step start)) ↔
      ∀ earlier label later, labels = earlier ++ label :: later →
        guard (earlier.foldl step start) label := by
  constructor
  · intro throughout earlier label later hsplit
    apply (keeps_iff _ label (throughout earlier (label :: later) hsplit)).mp
    have hnext := throughout (earlier ++ [label]) later (by rw [hsplit]; simp)
    rwa [List.foldl_append] at hnext
  · intro guarded earlier later hsplit
    apply foldl_of_guarded (fun state label hstate => (keeps_iff state label hstate).mpr) holds
    intro before label after hbefore
    exact guarded before label (after ++ later) (by rw [hsplit, hbefore]; simp)

/-- The same for a promise that an invariant implies: it is kept throughout exactly
when all steps meet a guard that keeps the invariant, and without which the next
state breaks the promise. -/
theorem forall_foldl_iff_of_invariant {Inv : σ → Prop} (sound : ∀ state, Inv state → P state)
    (keeps : ∀ state label, Inv state → guard state label → Inv (step state label))
    (needed : ∀ state label, Inv state → P (step state label) → guard state label)
    {start : σ} (holds : Inv start) (labels : List α) :
    (∀ earlier later, labels = earlier ++ later → P (earlier.foldl step start)) ↔
      ∀ earlier label later, labels = earlier ++ label :: later →
        guard (earlier.foldl step start) label := by
  have keeps_iff : ∀ state label, Inv state → (Inv (step state label) ↔ guard state label) :=
    fun state label hstate => ⟨fun hnext => needed state label hstate (sound _ hnext),
      keeps state label hstate⟩
  rw [← forall_foldl_iff_guarded keeps_iff holds]
  constructor
  · intro throughout earlier
    induction earlier using List.reverseRecOn with
    | nil => exact fun _ _ => holds
    | append_singleton earlier label ih =>
        intro later hsplit
        have hprior := ih (label :: later) (by rw [hsplit]; simp)
        have hpromise := throughout (earlier ++ [label]) later hsplit
        rw [List.foldl_append] at hpromise ⊢
        exact keeps _ label hprior (needed _ label hprior hpromise)
  · exact fun throughout earlier later hsplit => sound _ (throughout earlier later hsplit)

end Transition
