/-
# The reconnect policy

After a peer is lost, the policy says how long to wait before each attempt: at first
twice as long as the time before, up to a minute; after five minutes in the
foreground, two minutes each; and after half an hour in the background, no more. The
times at which it is asked decide the phases. Between two resets the waits never get
shorter, and nothing that was left behind comes back.
-/

import Mathlib.Algebra.Order.Ring.Nat
import Mathlib.Data.List.Basic
import Mlink.Core.Link

namespace Mlink.Core

/-- A span of time, in milliseconds. -/
abbrev Duration := Nat

/-- `Duration::from_secs`. -/
def fromSecs (secs : Nat) : Duration := secs * 1000

def FOREGROUND_MAX_DELAY : Duration := fromSecs 60
def FOREGROUND_DURATION : Duration := fromSecs (5 * 60)
def BACKGROUND_INTERVAL : Duration := fromSecs 120
def BACKGROUND_DURATION : Duration := fromSecs (30 * 60)

inductive ReconnectMode
  | foreground | background
  deriving DecidableEq, Repr

structure ReconnectState where
  mode : ReconnectMode
  attempt : UInt32
  startedAt : Instant
  lastAttempt : Option Instant
  deriving DecidableEq, Repr

/-- `ReconnectState::new`, at a given time. -/
def ReconnectState.new (now : Instant) : ReconnectState := ⟨.foreground, 0, now, none⟩

structure ReconnectPolicy where
  state : ReconnectState
  backgroundStartedAt : Option Instant
  deriving DecidableEq, Repr

/-- `u64::checked_shl`: nothing for a shift by the width or more. -/
def checkedShl (value : UInt64) (shift : UInt32) : Option UInt64 :=
  if shift < 64 then some (value <<< shift.toUInt64) else none

/-- How long to wait before an attempt in the foreground. -/
def foregroundDelay (attempt : UInt32) : Duration :=
  if attempt = 0 then 0
  else
    let secs := (checkedShl 1 (attempt - 1)).getD 0xFFFFFFFFFFFFFFFF
    min (fromSecs secs.toNat) FOREGROUND_MAX_DELAY

namespace ReconnectPolicy

def new (now : Instant) : ReconnectPolicy := ⟨.new now, none⟩

/-- The foreground ends when it has lasted long enough. -/
def enterBackground (policy : ReconnectPolicy) (now : Instant) : ReconnectPolicy :=
  if policy.state.mode = .foreground ∧ FOREGROUND_DURATION ≤ now - policy.state.startedAt then
    { policy with
      state := { policy.state with mode := .background, attempt := 0 }
      backgroundStartedAt := some now }
  else policy

/-- What the current phase says. -/
def delay (policy : ReconnectPolicy) (now : Instant) : Option Duration :=
  match policy.state.mode with
  | .foreground => some (foregroundDelay policy.state.attempt)
  | .background =>
      if BACKGROUND_DURATION ≤ now - policy.backgroundStartedAt.getD now then none
      else some BACKGROUND_INTERVAL

/-- Count an attempt; the count saturates. -/
def countAttempt (policy : ReconnectPolicy) (now : Instant) : ReconnectPolicy :=
  { policy with
    state := { policy.state with
      attempt :=
        if policy.state.attempt = 0xFFFFFFFF then policy.state.attempt
        else policy.state.attempt + 1
      lastAttempt := some now } }

def nextDelay (policy : ReconnectPolicy) (now : Instant) : Option Duration × ReconnectPolicy :=
  let policy := policy.enterBackground now
  let delay := policy.delay now
  (delay, if delay.isSome then policy.countAttempt now else policy)

def reset (_policy : ReconnectPolicy) (now : Instant) : ReconnectPolicy := ⟨.new now, none⟩

end ReconnectPolicy

/-! ## The waits in the foreground -/

/-- A power of two that fits 64 bits is shifted to without a loss. -/
theorem checkedShl_one {shift : UInt32} (small : shift.toNat < 64) :
    (checkedShl 1 shift).map UInt64.toNat = some (2 ^ shift.toNat) := by
  have hlt : 2 ^ shift.toNat < 2 ^ 64 := Nat.pow_lt_pow_right (by decide) small
  rw [checkedShl, if_pos (UInt32.lt_iff_toNat_lt.mpr small), Option.map_some,
    UInt64.toNat_shiftLeft, UInt32.toNat_toUInt64, Nat.mod_eq_of_lt small, Nat.shiftLeft_eq,
    UInt64.toNat_one, Nat.one_mul, Nat.mod_eq_of_lt hlt]

/-- The wait before an attempt is the power of two, up to a minute, whatever the count:
where the shift would overflow, a minute is long passed. -/
theorem foregroundDelay_eq (attempt : UInt32) :
    foregroundDelay attempt =
      if attempt = 0 then 0
      else min (fromSecs (2 ^ (attempt.toNat - 1))) FOREGROUND_MAX_DELAY := by
  rw [foregroundDelay]
  split_ifs with hzero
  · rfl
  · have hpos : 1 ≤ attempt.toNat := by
      by_contra hlt
      exact hzero (UInt32.toNat_inj.mp (by simpa using hlt))
    have hshift : (attempt - 1).toNat = attempt.toNat - 1 :=
      UInt32.toNat_sub_of_le attempt 1 (UInt32.le_iff_toNat_le.mpr hpos)
    by_cases hsmall : (attempt - 1).toNat < 64
    · obtain ⟨secs, hsecs, hvalue⟩ := Option.map_eq_some_iff.mp (checkedShl_one hsmall)
      rw [hsecs, Option.getD_some]
      dsimp only
      rw [hvalue, hshift]
    · have hnone : checkedShl 1 (attempt - 1) = none :=
        if_neg fun hlt => hsmall (UInt32.lt_iff_toNat_lt.mp hlt)
      have hlong : 2 ^ 64 ≤ 2 ^ (attempt.toNat - 1) :=
        Nat.pow_le_pow_right (by decide) (by omega)
      have hminute : FOREGROUND_MAX_DELAY ≤ fromSecs (2 ^ (attempt.toNat - 1)) :=
        calc FOREGROUND_MAX_DELAY ≤ fromSecs (2 ^ 64) := by decide
          _ ≤ fromSecs (2 ^ (attempt.toNat - 1)) := Nat.mul_le_mul_right _ hlong
      rw [hnone, Option.getD_none, min_eq_right hminute]
      exact min_eq_right (by decide)

theorem foregroundDelay_le (attempt : UInt32) :
    foregroundDelay attempt ≤ FOREGROUND_MAX_DELAY := by
  rw [foregroundDelay_eq]
  split_ifs
  · exact Nat.zero_le _
  · exact min_le_right _ _

/-- One attempt later the wait is no shorter. -/
theorem foregroundDelay_mono {attempt later : UInt32} (hle : attempt.toNat ≤ later.toNat) :
    foregroundDelay attempt ≤ foregroundDelay later := by
  rw [foregroundDelay_eq, foregroundDelay_eq]
  split_ifs with hfirst hlater hlater
  · exact le_refl _
  · exact Nat.zero_le _
  · rw [hlater] at hle
    exact absurd (UInt32.toNat_inj.mp (Nat.le_zero.mp hle)) hfirst
  · have hpow : 2 ^ (attempt.toNat - 1) ≤ 2 ^ (later.toNat - 1) :=
      Nat.pow_le_pow_right (by decide) (by omega)
    exact min_le_min_right _ (Nat.mul_le_mul_right _ hpow)

/-! ## Runs -/

/-- A use of the policy, and when. -/
inductive ReconnectCall
  | nextDelay (now : Instant)
  | reset (now : Instant)
  deriving DecidableEq, Repr

def ReconnectCall.time : ReconnectCall → Instant
  | nextDelay now | reset now => now

/-- The phase after a call of `nextDelay`, and what the call returned. -/
structure ReconnectAnswer where
  mode : ReconnectMode
  delay : Option Duration
  deriving DecidableEq, Repr

/-- A policy, the time of its last use, and what it has answered since it was reset. -/
structure Reconnecting where
  policy : ReconnectPolicy
  clock : Instant
  answers : List ReconnectAnswer
  deriving DecidableEq, Repr

namespace Reconnecting

def start (now : Instant) : Reconnecting := ⟨.new now, now, []⟩

def perform (run : Reconnecting) : ReconnectCall → Reconnecting
  | .nextDelay now =>
      let (delay, policy) := run.policy.nextDelay now
      ⟨policy, now, run.answers ++ [⟨policy.state.mode, delay⟩]⟩
  | .reset now => ⟨run.policy.reset now, now, []⟩

end Reconnecting

namespace ReconnectAnswer

/-- A later answer does not take an earlier one back: the background stays, the end is the
end, and the wait is no shorter. -/
structure Precedes (earlier later : ReconnectAnswer) : Prop where
  background : earlier.mode = .background → later.mode = .background
  ended : earlier.delay = none → later.delay = none
  longer : ∀ first second, earlier.delay = some first → later.delay = some second →
    first ≤ second

/-- In the foreground there is always a wait, of a minute at most. -/
def Patient (answer : ReconnectAnswer) : Prop :=
  answer.mode = .foreground → ∃ wait, answer.delay = some wait ∧ wait ≤ FOREGROUND_MAX_DELAY

end ReconnectAnswer

namespace Reconnecting

/-- The shortest wait that may still be answered. -/
def leastWait (run : Reconnecting) : Duration :=
  match run.policy.state.mode with
  | .foreground => foregroundDelay run.policy.state.attempt
  | .background => BACKGROUND_INTERVAL

/-- The background has lasted as long as it may. -/
def Over (run : Reconnecting) : Prop :=
  ∃ since, run.policy.backgroundStartedAt = some since ∧ BACKGROUND_DURATION ≤ run.clock - since

/-- What the policy remembers holds what it has answered. -/
structure Sound (run : Reconnecting) : Prop where
  started : run.policy.state.mode = .background →
    ∃ since, run.policy.backgroundStartedAt = some since
  precedes : run.answers.Pairwise ReconnectAnswer.Precedes
  patient : ∀ answer ∈ run.answers, answer.Patient
  background : ∀ answer ∈ run.answers, answer.mode = .background →
    run.policy.state.mode = .background
  ended : ∀ answer ∈ run.answers, answer.delay = none →
    run.policy.state.mode = .background ∧ run.Over
  longer : ∀ answer ∈ run.answers, ∀ wait, answer.delay = some wait → wait ≤ run.leastWait

theorem sound_of_new (now : Instant) : (start now).Sound where
  started hmode := by cases hmode
  precedes := .nil
  patient _ hmem := by cases hmem
  background _ hmem := by cases hmem
  ended _ hmem := by cases hmem
  longer _ hmem := by cases hmem

variable {run : Reconnecting} {now : Instant}

/-- Time that passes takes nothing back, and neither does the end of the foreground. -/
theorem Sound.enterBackground (sound : run.Sound) (clock : run.clock ≤ now) :
    Sound ⟨run.policy.enterBackground now, now, run.answers⟩ := by
  rw [ReconnectPolicy.enterBackground]
  split_ifs with henters
  · have hforeground : run.policy.state.mode ≠ .background := by
      rw [henters.1]
      decide
    refine ⟨fun _ => ⟨now, rfl⟩, sound.precedes, sound.patient, fun _ _ _ => rfl, ?_, ?_⟩
    · intro answer hmem hended
      exact absurd (sound.ended answer hmem hended).1 hforeground
    · intro answer hmem wait hwait
      have hle := sound.longer answer hmem wait hwait
      rw [leastWait, henters.1] at hle
      calc wait ≤ FOREGROUND_MAX_DELAY := hle.trans (foregroundDelay_le _)
        _ ≤ BACKGROUND_INTERVAL := by decide
  · refine ⟨sound.started, sound.precedes, sound.patient, sound.background, ?_, sound.longer⟩
    intro answer hmem hended
    obtain ⟨hmode, since, hsince, hlong⟩ := sound.ended answer hmem hended
    exact ⟨hmode, since, hsince, hlong.trans (Nat.sub_le_sub_right clock since)⟩

/-- An answer of the current phase that takes nothing back keeps the run sound. -/
theorem Sound.extend (sound : run.Sound) {policy : ReconnectPolicy} {delay : Option Duration}
    (mode : policy.state.mode = run.policy.state.mode)
    (since : policy.backgroundStartedAt = run.policy.backgroundStartedAt)
    (later : run.leastWait ≤ leastWait ⟨policy, run.clock, []⟩)
    (follows : ∀ earlier ∈ run.answers, earlier.Precedes ⟨policy.state.mode, delay⟩)
    (patient : ReconnectAnswer.Patient ⟨policy.state.mode, delay⟩)
    (ended : delay = none → run.policy.state.mode = .background ∧ run.Over)
    (waits : ∀ wait, delay = some wait → wait ≤ run.leastWait) :
    Sound ⟨policy, run.clock, run.answers ++ [⟨policy.state.mode, delay⟩]⟩ where
  started := by
    rw [mode, since]
    exact sound.started
  precedes := by
    rw [List.pairwise_append]
    refine ⟨sound.precedes, List.pairwise_singleton _ _, ?_⟩
    intro earlier hearlier last hlast
    rw [List.mem_singleton.mp hlast]
    exact follows earlier hearlier
  patient answer hmem := by
    rcases List.mem_append.mp hmem with hold | hnew
    · exact sound.patient answer hold
    · rw [List.mem_singleton.mp hnew]
      exact patient
  background answer hmem hmode := by
    rcases List.mem_append.mp hmem with hold | hnew
    · exact mode.trans (sound.background answer hold hmode)
    · rw [List.mem_singleton.mp hnew] at hmode
      exact hmode
  ended answer hmem hended := by
    rw [Over]
    dsimp only
    rw [mode, since]
    rcases List.mem_append.mp hmem with hold | hnew
    · exact sound.ended answer hold hended
    · rw [List.mem_singleton.mp hnew] at hended
      exact ended hended
  longer answer hmem wait hwait := by
    refine le_trans ?_ later
    rcases List.mem_append.mp hmem with hold | hnew
    · exact sound.longer answer hold wait hwait
    · rw [List.mem_singleton.mp hnew] at hwait
      exact waits wait hwait

/-- Counting an attempt makes no wait shorter. -/
theorem leastWait_countAttempt :
    run.leastWait ≤ leastWait ⟨run.policy.countAttempt now, run.clock, []⟩ := by
  rw [leastWait, leastWait]
  cases hmode : run.policy.state.mode with
  | background => simp [ReconnectPolicy.countAttempt, hmode]
  | foreground =>
      simp only [ReconnectPolicy.countAttempt, hmode]
      apply foregroundDelay_mono
      split_ifs with htop
      · exact le_refl _
      · have hlt := run.policy.state.attempt.toNat_lt
        have hne : run.policy.state.attempt.toNat ≠ 0xFFFFFFFF :=
          fun heq => htop (UInt32.toNat_inj.mp heq)
        rw [UInt32.toNat_add, UInt32.toNat_one]
        omega

/-- In the foreground, the wait is counted. -/
theorem Sound.answer_foreground (sound : run.Sound)
    (hmode : run.policy.state.mode = .foreground) :
    Sound ⟨run.policy.countAttempt now, run.clock, run.answers ++
      [⟨run.policy.state.mode, some (foregroundDelay run.policy.state.attempt)⟩]⟩ := by
  have hforeground : run.policy.state.mode ≠ .background := by
    rw [hmode]
    decide
  have hleast : run.leastWait = foregroundDelay run.policy.state.attempt := by
    rw [leastWait, hmode]
  refine sound.extend rfl rfl leastWait_countAttempt ?_ ?_ ?_ ?_
  · intro earlier hearlier
    refine ⟨fun hback => absurd (sound.background earlier hearlier hback) hforeground,
      fun hended => absurd (sound.ended earlier hearlier hended).1 hforeground, ?_⟩
    intro first second hfirst hsecond
    rw [← Option.some.inj hsecond, ← hleast]
    exact sound.longer earlier hearlier first hfirst
  · exact fun _ => ⟨_, rfl, foregroundDelay_le _⟩
  · intro hnone
    cases hnone
  · intro wait hwait
    rw [hleast, ← Option.some.inj hwait]

/-- When the background has lasted as long as it may, there is no further wait. -/
theorem Sound.answer_over (sound : run.Sound) (hmode : run.policy.state.mode = .background)
    (exhausted : run.Over) :
    Sound ⟨run.policy, run.clock, run.answers ++ [⟨run.policy.state.mode, none⟩]⟩ := by
  refine sound.extend rfl rfl (le_refl _) ?_ ?_ (fun _ => ⟨hmode, exhausted⟩) ?_
  · intro earlier hearlier
    refine ⟨fun _ => hmode, fun _ => rfl, ?_⟩
    intro first second hfirst hsecond
    cases hsecond
  · intro hforeground
    dsimp only at hforeground
    rw [hmode] at hforeground
    cases hforeground
  · intro wait hwait
    cases hwait

/-- Until then, the wait in the background is the longest. -/
theorem Sound.answer_background (sound : run.Sound)
    (hmode : run.policy.state.mode = .background) (lasts : ¬ run.Over) :
    Sound ⟨run.policy.countAttempt now, run.clock,
      run.answers ++ [⟨run.policy.state.mode, some BACKGROUND_INTERVAL⟩]⟩ := by
  have hleast : run.leastWait = BACKGROUND_INTERVAL := by rw [leastWait, hmode]
  refine sound.extend rfl rfl leastWait_countAttempt ?_ ?_ ?_ ?_
  · intro earlier hearlier
    refine ⟨fun _ => hmode,
      fun hended => absurd (sound.ended earlier hearlier hended).2 lasts, ?_⟩
    intro first second hfirst hsecond
    rw [← Option.some.inj hsecond, ← hleast]
    exact sound.longer earlier hearlier first hfirst
  · intro hforeground
    have hback : run.policy.state.mode = .foreground := hforeground
    rw [hmode] at hback
    cases hback
  · intro hnone
    cases hnone
  · intro wait hwait
    rw [hleast, ← Option.some.inj hwait]

/-- Whatever is answered is what the phase says at the time. -/
theorem Sound.answer (sound : run.Sound) (clock : run.clock ≤ now) :
    (run.perform (.nextDelay now)).Sound := by
  have hentered := sound.enterBackground clock
  rw [perform, ReconnectPolicy.nextDelay]
  generalize run.policy.enterBackground now = policy at hentered
  cases hmode : policy.state.mode with
  | foreground =>
      have hdelay : policy.delay now = some (foregroundDelay policy.state.attempt) := by
        rw [ReconnectPolicy.delay, hmode]
      rw [hdelay]
      exact hentered.answer_foreground hmode
  | background =>
      obtain ⟨since, hsince⟩ := hentered.started hmode
      have hstarted : policy.backgroundStartedAt = some since := hsince
      by_cases hover : BACKGROUND_DURATION ≤ now - since
      · have hdelay : policy.delay now = none := by
          simp [ReconnectPolicy.delay, hmode, hstarted, hover]
        rw [hdelay]
        exact hentered.answer_over hmode ⟨since, hsince, hover⟩
      · have hdelay : policy.delay now = some BACKGROUND_INTERVAL := by
          rw [ReconnectPolicy.delay, hmode, hstarted, Option.getD_some]
          exact if_neg hover
        rw [hdelay]
        refine hentered.answer_background hmode ?_
        rintro ⟨other, hother, hlong⟩
        cases hsince.symm.trans hother
        exact hover hlong

/-- A use of the policy at a later time keeps the run sound. -/
theorem Sound.perform (sound : run.Sound) {call : ReconnectCall} (clock : run.clock ≤ call.time) :
    (run.perform call).Sound := by
  cases call with
  | nextDelay now => exact sound.answer clock
  | reset now => exact sound_of_new now

/-- So does any sequence of uses under a clock that does not go back. -/
theorem Sound.foldl {run : Reconnecting} (sound : run.Sound) {calls : List ReconnectCall}
    (clock : (run.clock :: calls.map ReconnectCall.time).Pairwise (· ≤ ·)) :
    (calls.foldl Reconnecting.perform run).Sound := by
  induction calls generalizing run with
  | nil => exact sound
  | cons call rest ih =>
      have hclock : (run.perform call).clock = call.time := by cases call <;> rfl
      rw [List.map_cons, List.pairwise_cons] at clock
      apply ih (sound.perform (clock.1 call.time List.mem_cons_self))
      rw [hclock]
      exact clock.2

end Reconnecting

/-- However often and however long the policy is used, under a clock that does not go
back: what it answered since it was last reset never gets shorter, never returns to the
foreground and never starts again after its end; and in the foreground a wait is a power
of two of seconds, computed without a loss, and a minute at most. -/
theorem reconnect_of_calls (created : Instant) (calls : List ReconnectCall)
    (clock : (created :: calls.map ReconnectCall.time).Pairwise (· ≤ ·)) :
    (calls.foldl Reconnecting.perform (.start created)).answers.Pairwise
        ReconnectAnswer.Precedes ∧
      (∀ answer ∈ (calls.foldl Reconnecting.perform (.start created)).answers,
        answer.Patient) ∧
      ∀ attempt, foregroundDelay attempt =
        if attempt = 0 then 0
        else min (fromSecs (2 ^ (attempt.toNat - 1))) FOREGROUND_MAX_DELAY := by
  have hsound := (Reconnecting.sound_of_new created).foldl clock
  exact ⟨hsound.precedes, hsound.patient, foregroundDelay_eq⟩

/-- Through all phases, to the end and past a reset. -/
def longAbsence : List ReconnectCall :=
  [.nextDelay 0, .nextDelay 1000, .nextDelay 3000, .nextDelay 300000, .nextDelay 420000,
    .nextDelay 2100000, .nextDelay 2100001, .reset 2200000, .nextDelay 2200000]

theorem reconnect_longAbsence :
    ((longAbsence.take 7).foldl Reconnecting.perform (.start 0)).answers.map
        ReconnectAnswer.delay =
        [some 0, some 1000, some 2000, some 120000, some 120000, none, none] ∧
      ((longAbsence.take 7).foldl Reconnecting.perform (.start 0)).answers.Pairwise
        ReconnectAnswer.Precedes :=
  ⟨by decide, (reconnect_of_calls 0 (longAbsence.take 7) (by decide)).1⟩

end Mlink.Core
