/-
# The window over unbounded numbers

Logical numbers are integers without bound; the wire carries them modulo
`2 ^ 32`. A `History` is a window together with the logical numbers it accepted.
While every number lies less than half a turn ahead of the highest accepted one
and at most half a turn behind it, the window answers like the set of accepted
numbers cut off 127 below its maximum.

Half a turn ahead is the limit: the wire form of that number is as far behind as
it is ahead, and the window takes it for stale.
-/

import Mathlib.Algebra.Order.Group.Int
import Mlink.Lib.Transition
import Mlink.Protocol.Window

namespace Mlink.Protocol

/-- A window and the logical numbers it accepted, newest first. -/
structure History where
  window : DedupWindow
  accepted : List Int
  deriving DecidableEq, Repr

namespace History

def start : History := ⟨.new, []⟩

/-- Observe the wire form of a number. -/
def observe (history : History) (seq : Int) : Observation :=
  (history.window.observe (UInt32.ofInt seq)).1

def after (history : History) (seq : Int) : History where
  window := (history.window.observe (UInt32.ofInt seq)).2
  accepted := if history.observe seq = .accept then seq :: history.accepted else history.accepted

/-- The highest number accepted. -/
def top (history : History) : Option Int := history.accepted.max?

/-- The number lies less than half a turn ahead of the maximum and at most half a
turn behind it. -/
def Near (history : History) (seq : Int) : Prop :=
  ∀ top ∈ history.top, top - 2 ^ 31 ≤ seq ∧ seq < top + 2 ^ 31

instance (history : History) (seq : Int) : Decidable (history.Near seq) :=
  inferInstanceAs (Decidable (∀ top ∈ history.top, _ ∧ _))

/-- The number is at most 127 behind the maximum. -/
def Reaches (history : History) (seq : Int) : Prop := ∀ top ∈ history.top, top - seq ≤ 127

instance (history : History) (seq : Int) : Decidable (history.Reaches seq) :=
  inferInstanceAs (Decidable (∀ top ∈ history.top, _ ≤ _))

/-- The window answers like the set of accepted numbers. -/
structure AnswersLikeSet (history : History) (seq : Int) : Prop where
  accept : history.observe seq = .accept ↔ seq ∉ history.accepted ∧ history.Reaches seq
  duplicate : history.observe seq = .duplicate ↔ seq ∈ history.accepted ∧ history.Reaches seq
  stale : history.observe seq = .stale ↔ ¬ history.Reaches seq

/-- No number was accepted twice, and the snapshot shows the accepted numbers among
the top and the 127 below it. -/
structure ShowsSet (history : History) : Prop where
  nodup : history.accepted.Nodup
  empty : history.top = none → history.window.snapshot = (0, 0)
  last : ∀ top ∈ history.top, history.window.snapshot.1 = UInt32.ofInt top
  bits : ∀ top ∈ history.top, ∀ i < 128,
    history.window.snapshot.2.getLsbD i = true ↔ top - (i : Int) ∈ history.accepted

/-! ## Moving a run up the integers -/

/-- A number moved up by so many turns; its wire form stays the same. -/
def lift (turns : Nat) (seq : Int) : Nat := (seq + 2 ^ 32 * turns).toNat

/-- Enough turns bring any run of numbers above zero. -/
theorem exists_turns (seqs : List Int) : ∃ turns : Nat, ∀ seq ∈ seqs, 0 ≤ seq + 2 ^ 32 * turns := by
  induction seqs with
  | nil => exact ⟨0, by simp⟩
  | cons seq rest ih =>
      obtain ⟨turns, hturns⟩ := ih
      refine ⟨turns + seq.natAbs, ?_⟩
      intro other hother
      rcases List.mem_cons.mp hother with rfl | hmem
      · rw [Nat.cast_add]
        omega
      · have hbelow := hturns other hmem
        rw [Nat.cast_add]
        omega

section Lift

variable {turns : Nat} {seq other : Int}

theorem ofInt_eq_ofNat_lift (above : 0 ≤ seq + 2 ^ 32 * turns) :
    UInt32.ofInt seq = UInt32.ofNat (lift turns seq) := by
  rw [UInt32.ofInt, ← UInt32.toNat_inj, UInt32.toNat_ofNat', UInt32.toNat_ofNat', lift]
  omega

theorem lift_inj (aboveSeq : 0 ≤ seq + 2 ^ 32 * turns)
    (aboveOther : 0 ≤ other + 2 ^ 32 * turns) :
    lift turns seq = lift turns other ↔ seq = other := by
  rw [lift, lift]
  omega

theorem mem_map_lift {seqs : List Int} (above : ∀ seq ∈ seqs, 0 ≤ seq + 2 ^ 32 * turns)
    (aboveSeq : 0 ≤ seq + 2 ^ 32 * turns) :
    lift turns seq ∈ seqs.map (lift turns) ↔ seq ∈ seqs := by
  rw [List.mem_map]
  constructor
  · rintro ⟨other, hother, hsame⟩
    rwa [← (lift_inj (above other hother) aboveSeq).mp hsame]
  · exact fun hmem => ⟨seq, hmem, rfl⟩

end Lift

/-! ## The invariant of a run -/

/-- The window stands for the numbers accepted, all of them moved up by so many
turns. -/
structure Stands (turns : Nat) (history : History) : Prop where
  above : ∀ seq ∈ history.accepted, 0 ≤ seq + 2 ^ 32 * turns
  nodup : history.accepted.Nodup
  fresh : history.top = none → history.window = .new
  represents : ∀ top ∈ history.top,
    history.window.Represents (lift turns top) (history.accepted.map (lift turns))

theorem stands_start (turns : Nat) : Stands turns start :=
  ⟨by simp [start], List.nodup_nil, fun _ => rfl, by simp [start, top]⟩

/-- The highest number accepted was accepted, and bounds the others. -/
theorem top_eq_some {history : History} {highest : Int} :
    history.top = some highest ↔
      highest ∈ history.accepted ∧ ∀ seq ∈ history.accepted, seq ≤ highest :=
  List.max?_eq_some_iff

theorem top_eq_none {history : History} : history.top = none ↔ history.accepted = [] :=
  List.max?_eq_none_iff

/-- The first number is accepted, and the window stands for it alone. -/
theorem step_of_fresh {turns : Nat} {history : History} (stands : Stands turns history)
    (fresh : history.top = none) {seq : Int} (above : 0 ≤ seq + 2 ^ 32 * turns) :
    AnswersLikeSet history seq ∧ Stands turns (history.after seq) := by
  have hnone := top_eq_none.mp fresh
  have hunused : history.window.seen = false := by rw [stands.fresh fresh]; rfl
  have hreaches : history.Reaches seq := by simp [Reaches, fresh]
  obtain ⟨haccept, hrepresents⟩ := DedupWindow.represents_first hunused (lift turns seq)
  rw [← ofInt_eq_ofNat_lift above] at haccept hrepresents
  have hobserve : history.observe seq = .accept := haccept
  have haccepted : (history.after seq).accepted = [seq] := by
    rw [after, if_pos hobserve, hnone]
  have htop : (history.after seq).top = some seq := by rw [top, haccepted]; rfl
  refine ⟨?_, ?_⟩
  · constructor <;> simp [hobserve, hnone, hreaches]
  · constructor
    · simpa [haccepted] using above
    · simp [haccepted]
    · simp [htop]
    · intro highest hhighest
      rw [htop, Option.mem_some_iff] at hhighest
      subst hhighest
      rw [haccepted]
      exact hrepresents

/-- A number near the maximum is answered like the set does, and the window goes on
standing for the numbers accepted. -/
theorem step_of_top {turns : Nat} {history : History} (stands : Stands turns history)
    {highest : Int} (htop : history.top = some highest) {seq : Int} (near : history.Near seq)
    (above : 0 ≤ seq + 2 ^ 32 * turns) :
    AnswersLikeSet history seq ∧ Stands turns (history.after seq) := by
  obtain ⟨hmem, hhighest⟩ := top_eq_some.mp htop
  have haboveTop := stands.above highest hmem
  obtain ⟨hbehind, hahead⟩ := near highest htop
  have hforward : lift turns seq < lift turns highest + 2 ^ 31 := by
    rw [lift, lift]
    omega
  have hbackward : lift turns highest ≤ lift turns seq + 2 ^ 31 := by
    rw [lift, lift]
    omega
  obtain ⟨haccept, hstale, hslid, hkept⟩ := DedupWindow.outcome_of_represents
    (stands.represents highest htop) hforward hbackward
  have hfar : lift turns seq + 128 ≤ lift turns highest ↔ ¬ history.Reaches seq := by
    simp only [Reaches, htop, Option.mem_some_iff, forall_eq', lift]
    omega
  rw [mem_map_lift stands.above above, ← not_le, hfar, not_not] at haccept
  rw [hfar] at hstale
  rw [← ofInt_eq_ofNat_lift above] at haccept hstale hslid hkept
  refine ⟨⟨haccept, ?_, hstale⟩, ?_⟩
  · change (history.window.observe (UInt32.ofInt seq)).1 = .duplicate ↔ _
    cases hobserve : (history.window.observe (UInt32.ofInt seq)).1 with
    | accept => simp [(haccept.mp hobserve).1]
    | stale => simp [hstale.mp hobserve]
    | duplicate =>
        rw [hobserve] at haccept hstale
        simp only [reduceCtorEq, false_iff, not_and, not_not] at haccept hstale
        exact iff_of_true rfl ⟨by_contra fun hnew => haccept hnew hstale, hstale⟩
  · by_cases hobserve : history.observe seq = .accept
    · have hnew := (haccept.mp hobserve).1
      have haccepted : (history.after seq).accepted = seq :: history.accepted := by
        rw [after, if_pos hobserve]
      have htopAfter : (history.after seq).top = some (max highest seq) := by
        rw [top_eq_some, haccepted]
        refine ⟨?_, ?_⟩
        · rcases max_choice highest seq with hmax | hmax <;> rw [hmax]
          · exact List.mem_cons_of_mem _ hmem
          · exact List.mem_cons_self
        · intro other hother
          rcases List.mem_cons.mp hother with rfl | hold
          · exact le_max_right _ _
          · exact le_max_of_le_left (hhighest other hold)
      have hlift : lift turns (max highest seq) = max (lift turns highest) (lift turns seq) := by
        rw [lift, lift, lift]
        omega
      constructor
      · rw [haccepted]
        exact List.forall_mem_cons.mpr ⟨above, stands.above⟩
      · rw [haccepted]
        exact List.nodup_cons.mpr ⟨hnew, stands.nodup⟩
      · simp [htopAfter]
      · intro newTop hnewTop
        rw [htopAfter, Option.mem_some_iff] at hnewTop
        subst hnewTop
        rw [haccepted, hlift]
        exact hslid hobserve
    · have hsame : history.after seq = history := by
        rw [after, if_neg hobserve, hkept hobserve]
      rwa [hsame]

/-- One observation of a number near the maximum. -/
theorem Stands.step {turns : Nat} {history : History} (stands : Stands turns history) {seq : Int}
    (near : history.Near seq) (above : 0 ≤ seq + 2 ^ 32 * turns) :
    AnswersLikeSet history seq ∧ Stands turns (history.after seq) := by
  cases htop : history.top with
  | none => exact step_of_fresh stands htop above
  | some highest => exact step_of_top stands htop near above

/-- What the window stands for is what its snapshot shows. -/
theorem Stands.showsSet {turns : Nat} {history : History} (stands : Stands turns history) :
    ShowsSet history where
  nodup := stands.nodup
  empty := by
    intro hnone
    rw [stands.fresh hnone]
    rfl
  last := by
    intro highest htop
    have hrepresents := stands.represents highest htop
    have habove := stands.above highest (top_eq_some.mp htop).1
    rw [DedupWindow.snapshot, hrepresents.used, ofInt_eq_ofNat_lift habove]
    exact hrepresents.last
  bits := by
    intro highest htop i hi
    have hrepresents := stands.represents highest htop
    have habove := stands.above highest (top_eq_some.mp htop).1
    rw [DedupWindow.snapshot, hrepresents.used]
    refine (hrepresents.shows i hi).trans ?_
    have hlift : lift turns highest - i = lift turns (highest - i) := by
      rw [lift, lift]
      omega
    constructor
    · rintro ⟨hle, hmem⟩
      have habove' : 0 ≤ highest - (i : Int) + 2 ^ 32 * turns := by
        rw [lift] at hle
        omega
      rwa [hlift, mem_map_lift stands.above habove'] at hmem
    · intro hmem
      have habove' := stands.above _ hmem
      refine ⟨?_, ?_⟩
      · rw [lift]
        omega
      · rwa [hlift, mem_map_lift stands.above habove']

/-! ## Runs -/

/-- A run of numbers each near the maximum of its time. -/
def AllNear (seqs : List Int) : Prop :=
  ∀ earlier seq later, seqs = earlier ++ seq :: later → (earlier.foldl after start).Near seq

/-- Along a run of numbers near the maximum the window stands for what it accepted. -/
theorem stands_of_allNear {turns : Nat} {seqs : List Int} (near : AllNear seqs)
    (above : ∀ seq ∈ seqs, 0 ≤ seq + 2 ^ 32 * turns) : Stands turns (seqs.foldl after start) := by
  have hkeeps : ∀ (history : History) (seq : Int), Stands turns history →
      (history.Near seq ∧ 0 ≤ seq + 2 ^ 32 * turns) → Stands turns (history.after seq) :=
    fun history seq stands step => (stands.step step.1 step.2).2
  apply Transition.foldl_of_guarded hkeeps (stands_start turns)
  intro earlier seq later hsplit
  exact ⟨near earlier seq later hsplit, above seq (by simp [hsplit])⟩

/-- The window refines the set of accepted numbers: in every run of numbers near the
maximum of their time each is answered like the set does, none is accepted twice,
and the snapshot shows the set. -/
theorem answersLikeSet_of_allNear (seqs : List Int) (near : AllNear seqs) :
    (∀ earlier seq later, seqs = earlier ++ seq :: later →
        (earlier.foldl after start).AnswersLikeSet seq) ∧
      ShowsSet (seqs.foldl after start) := by
  obtain ⟨turns, hturns⟩ := exists_turns seqs
  constructor
  · intro earlier seq later hsplit
    have hearlier : AllNear earlier := by
      intro before other behind hbefore
      exact near before other (behind ++ seq :: later) (by rw [hsplit, hbefore]; simp)
    have hstands := stands_of_allNear hearlier
      fun other hother => hturns other (by simp [hsplit, hother])
    exact (hstands.step (near earlier seq later hsplit) (hturns seq (by simp [hsplit]))).1
  · exact (stands_of_allNear near hturns).showsSet

/-- A run across the wrap with a jump past the window's width: the numbers lie at 127
and at 128 behind the top, and half a turn behind it. -/
def wrapRun : List Int :=
  [2 ^ 32 - 2, 2 ^ 32 + 1, 2 ^ 32 - 2, 2 ^ 32 + 300, 2 ^ 32 + 173, 2 ^ 32 + 172, 2 ^ 31 + 300]

theorem answersLikeSet_wrapRun :
    wrapRun.foldl after start =
        ⟨⟨300, 1#128 ||| 1#128 <<< 127, true⟩,
          [2 ^ 32 + 173, 2 ^ 32 + 300, 2 ^ 32 + 1, 2 ^ 32 - 2]⟩ ∧
      (∀ earlier seq later, wrapRun = earlier ++ seq :: later →
        (earlier.foldl after start).AnswersLikeSet seq) ∧
      ShowsSet (wrapRun.foldl after start) := by
  refine ⟨by decide +kernel, answersLikeSet_of_allNear wrapRun ?_⟩
  exact (Transition.forall_splits_iff _).mpr (by decide +kernel)

/-- The number lies at most half a turn ahead of the maximum or behind it. -/
def Within (history : History) (seq : Int) : Prop :=
  ∀ top ∈ history.top, top - 2 ^ 31 ≤ seq ∧ seq ≤ top + 2 ^ 31

instance (history : History) (seq : Int) : Decidable (history.Within seq) :=
  inferInstanceAs (Decidable (∀ top ∈ history.top, _ ∧ _))

/-- A new number exactly half a turn ahead is taken for stale. -/
theorem stale_half_turn_ahead :
    ¬ ∀ seqs : List Int,
      (∀ earlier seq later, seqs = earlier ++ seq :: later →
        (earlier.foldl after start).Within seq) →
      ∀ earlier seq later, seqs = earlier ++ seq :: later →
        (earlier.foldl after start).AnswersLikeSet seq := by
  intro refines
  have hwithin : ∀ earlier seq later, [0, 2 ^ 31] = earlier ++ seq :: later →
      (earlier.foldl after start).Within seq :=
    (Transition.forall_splits_iff _).mpr (by decide +kernel)
  have hanswer := refines [0, 2 ^ 31] hwithin [0] (2 ^ 31) [] rfl
  have hstale : (start.after 0).observe (2 ^ 31) = .stale := by decide +kernel
  have hreaches : (start.after 0).Reaches (2 ^ 31) := by decide +kernel
  exact hanswer.stale.mp hstale hreaches

end History

end Mlink.Protocol
