/-
# Switching back

`shouldSwitchback` is asked from time to time whether the best link is better than
the current one for long enough. It keeps a count for each candidate. An
evaluation adds to the count of the link it nominates, and one that finds the
current link best removes that link's own count. The counts of the other candidates
stay, so that a count is of nominations, not of nominations in a row.
-/

import Mathlib.Logic.Function.Basic
import Mlink.Core.Session.Types

namespace Mlink.Core

def SWITCHBACK_HYSTERESIS : UInt8 := 3

/-- How often each candidate was found better. -/
structure SchedulerState where
  betterStreak : String → Option UInt8

/-- `SchedulerState::default`. -/
def SchedulerState.default : SchedulerState := ⟨fun _ => none⟩

/-- `u8::saturating_add(1)`. -/
def saturatingSucc (count : UInt8) : UInt8 := if count = 255 then 255 else count + 1

namespace Session

/-- Whether to switch from the current link to the best one. -/
def shouldSwitchback (state : SchedulerState) (current best : String) : Bool × SchedulerState :=
  if current = best then
    (false, ⟨Function.update state.betterStreak best none⟩)
  else
    let count := saturatingSucc ((state.betterStreak best).getD 0)
    (SWITCHBACK_HYSTERESIS ≤ count, ⟨Function.update state.betterStreak best (some count)⟩)

end Session

/-- One evaluation: the current link and the best one. -/
structure Evaluation where
  current : String
  best : String
  deriving DecidableEq, Repr

namespace Evaluation

/-- The evaluation finds the link best and another one current. -/
def Nominates (evaluation : Evaluation) (link : String) : Prop :=
  evaluation.best = link ∧ evaluation.current ≠ link

instance (evaluation : Evaluation) (link : String) : Decidable (evaluation.Nominates link) :=
  inferInstanceAs (Decidable (_ ∧ _))

/-- The evaluation finds the link best and current. -/
def Clears (evaluation : Evaluation) (link : String) : Prop :=
  evaluation.best = link ∧ evaluation.current = link

instance (evaluation : Evaluation) (link : String) : Decidable (evaluation.Clears link) :=
  inferInstanceAs (Decidable (_ ∧ _))

/-- The scheduler after a run of evaluations, oldest first. -/
def stateAfter (evaluations : List Evaluation) : SchedulerState :=
  evaluations.foldl
    (fun state evaluation =>
      (Session.shouldSwitchback state evaluation.current evaluation.best).2) .default

/-- What the next evaluation returns. -/
def answer (earlier : List Evaluation) (evaluation : Evaluation) : Bool :=
  (Session.shouldSwitchback (stateAfter earlier) evaluation.current evaluation.best).1

/-- The last two evaluations nominate the link. -/
def TwiceInARow (earlier : List Evaluation) (link : String) : Prop :=
  ∃ before first second, earlier = before ++ [first, second] ∧
    first.Nominates link ∧ second.Nominates link

/-- The hysteresis: this evaluation and the two before it nominate the same link. -/
def ThirdInARow (earlier : List Evaluation) (evaluation : Evaluation) : Prop :=
  evaluation.Nominates evaluation.best ∧ TwiceInARow earlier evaluation.best

/-- How often the link was nominated since an evaluation last found it current. -/
def nominations (link : String) (evaluations : List Evaluation) : Nat :=
  evaluations.foldl
    (fun count evaluation =>
      if evaluation.Clears link then 0
      else if evaluation.Nominates link then count + 1 else count) 0

/-! ## What the counts count -/

theorem stateAfter_append_singleton (earlier : List Evaluation) (evaluation : Evaluation) :
    stateAfter (earlier ++ [evaluation]) =
      (Session.shouldSwitchback (stateAfter earlier) evaluation.current evaluation.best).2 := by
  rw [stateAfter, List.foldl_append]
  rfl

theorem nominations_append_singleton (link : String) (earlier : List Evaluation)
    (evaluation : Evaluation) :
    nominations link (earlier ++ [evaluation]) =
      if evaluation.Clears link then 0
      else if evaluation.Nominates link then nominations link earlier + 1
      else nominations link earlier := by
  rw [nominations, List.foldl_append]
  rfl

/-- A count of eight bits, one higher or at its end. -/
theorem toNat_saturatingSucc (count : UInt8) :
    (saturatingSucc count).toNat = min 255 (count.toNat + 1) := by
  have hcount := count.toNat_lt
  rw [saturatingSucc]
  split_ifs with hmax
  · rw [hmax]
    rfl
  · have hbelow : count.toNat ≠ 255 := fun htop => hmax (UInt8.toNat_inj.mp htop)
    rw [UInt8.toNat_add, UInt8.toNat_one]
    omega

/-- The count of a link is of its nominations, however far apart they lie. -/
theorem betterStreak_stateAfter (link : String) (evaluations : List Evaluation) :
    (((stateAfter evaluations).betterStreak link).getD 0).toNat =
      min 255 (nominations link evaluations) := by
  induction evaluations using List.reverseRecOn with
  | nil => rfl
  | append_singleton earlier evaluation ih =>
      rw [stateAfter_append_singleton, nominations_append_singleton, Session.shouldSwitchback]
      by_cases hbest : evaluation.best = link
      · subst hbest
        by_cases hcurrent : evaluation.current = evaluation.best
        · simp [hcurrent, Clears]
        · simp only [hcurrent, if_false, Clears, Nominates, and_false, true_and, ne_eq,
            not_false_eq_true, if_true, Function.update_self, Option.getD_some,
            toNat_saturatingSucc, ih]
          omega
      · have hother : link ≠ evaluation.best := fun hsame => hbest hsame.symm
        simp only [Clears, Nominates, hbest, false_and, if_false]
        split_ifs <;> simpa only [Function.update_of_ne hother] using ih

/-! ## When an evaluation returns true -/

/-- The evaluation returns true exactly when its link is better than the current one
and was nominated twice before. -/
theorem answer_iff (earlier : List Evaluation) (evaluation : Evaluation) :
    answer earlier evaluation = true ↔
      evaluation.Nominates evaluation.best ∧ 2 ≤ nominations evaluation.best earlier := by
  rw [answer, Session.shouldSwitchback, Nominates]
  by_cases hcurrent : evaluation.current = evaluation.best
  · simp [hcurrent]
  · rw [if_neg hcurrent, decide_eq_true_iff, UInt8.le_iff_toNat_le, toNat_saturatingSucc,
      betterStreak_stateAfter]
    simp only [hcurrent, ne_eq, not_false_eq_true, and_self, true_and]
    have hthree : SWITCHBACK_HYSTERESIS.toNat = 3 := rfl
    omega

/-- Two nominations in a row are two nominations. -/
theorem two_le_nominations {earlier : List Evaluation} {link : String}
    (twice : TwiceInARow earlier link) : 2 ≤ nominations link earlier := by
  obtain ⟨before, first, second, rfl, hfirst, hsecond⟩ := twice
  have hkeeps : ∀ {evaluation : Evaluation}, evaluation.Nominates link →
      ¬ evaluation.Clears link := fun nominates clears => nominates.2 clears.2
  rw [List.append_cons, nominations_append_singleton, if_neg (hkeeps hsecond), if_pos hsecond,
    nominations_append_singleton, if_neg (hkeeps hfirst), if_pos hfirst]
  omega

/-- In every run, all evaluations return true exactly at a third nomination in a row if
and only if no link collects a third nomination, since it was last found current,
unless the two evaluations before nominated it. -/
theorem answer_iff_thirdInARow (evaluations : List Evaluation) :
    (∀ earlier evaluation later, evaluations = earlier ++ evaluation :: later →
        (answer earlier evaluation = true ↔ ThirdInARow earlier evaluation)) ↔
      ∀ earlier evaluation later, evaluations = earlier ++ evaluation :: later →
        evaluation.Nominates evaluation.best → 2 ≤ nominations evaluation.best earlier →
          TwiceInARow earlier evaluation.best := by
  constructor
  · intro agrees earlier evaluation later hsplit hnominates hcount
    have hanswer := (answer_iff earlier evaluation).mpr ⟨hnominates, hcount⟩
    exact ((agrees earlier evaluation later hsplit).mp hanswer).2
  · intro gathered earlier evaluation later hsplit
    rw [answer_iff]
    constructor
    · rintro ⟨hnominates, hcount⟩
      exact ⟨hnominates, gathered earlier evaluation later hsplit hnominates hcount⟩
    · rintro ⟨hnominates, htwice⟩
      exact ⟨hnominates, two_le_nominations htwice⟩

/-! ## Nominations apart -/

/-- Two candidates take turns. -/
def alternating : List Evaluation := [⟨"a", "b"⟩, ⟨"a", "c"⟩, ⟨"a", "b"⟩, ⟨"a", "c"⟩]

/-- The current link is best for once. -/
def interrupted : List Evaluation := [⟨"a", "b"⟩, ⟨"a", "b"⟩, ⟨"a", "a"⟩]

/-- After either run a nomination of `b` returns true, though it is the first in a
row. -/
theorem answer_not_in_a_row :
    (answer alternating ⟨"a", "b"⟩ = true ∧ ¬ ThirdInARow alternating ⟨"a", "b"⟩) ∧
      answer interrupted ⟨"a", "b"⟩ = true ∧ ¬ ThirdInARow interrupted ⟨"a", "b"⟩ := by
  have hlast : ∀ {earlier : List Evaluation} {last : Evaluation}, earlier.getLast? = some last →
      last.best ≠ "b" → ¬ ThirdInARow earlier ⟨"a", "b"⟩ := by
    rintro earlier last hlast hother ⟨_, before, first, second, rfl, _, hsecond⟩
    have hsame : second = last := by simpa using hlast
    exact hother (hsame ▸ hsecond.1)
  exact ⟨⟨by decide, hlast rfl (by decide)⟩, by decide, hlast rfl (by decide)⟩

end Evaluation

end Mlink.Core
