/-
# Signals to all who wait

A signal wakes everyone who has begun to wait by then, and no one who begins later.
Whoever begins to wait, looks, and sleeps only if there was nothing to be had, misses no
signal in between; it is enough that another one is owed wherever somebody was refused.
-/

import Mathlib.Data.Nat.Init

/-- A signal, with how often it was given. -/
structure Notify where
  calls : Nat
  deriving DecidableEq, Repr

namespace Notify

/-- Somebody who waits: how often the signal had been given when the wait began. -/
structure Waiter where
  began : Nat
  deriving DecidableEq, Repr

variable (notify : Notify) (waiter : Waiter)

/-- Begin to wait. -/
def notified : Waiter := ⟨notify.calls⟩

/-- Give the signal. -/
def notifyWaiters : Notify := ⟨notify.calls + 1⟩

/-- The signal has been given since the wait began. -/
def wakes : Bool := waiter.began < notify.calls

/-- The wait is one for this signal. -/
def Hears : Prop := waiter.began ≤ notify.calls

/-- It has been woken, or another signal is owed to it. -/
structure Expects (owed : Bool) : Prop where
  hears : notify.Hears waiter
  awaits : notify.wakes waiter = true ∨ owed = true

variable {notify waiter}

theorem hears_notified : notify.Hears notify.notified := Nat.le_refl _

theorem Hears.notifyWaiters (hears : notify.Hears waiter) : notify.notifyWaiters.Hears waiter :=
  Nat.le_succ_of_le hears

/-- The next signal wakes it. -/
theorem Hears.wakes (hears : notify.Hears waiter) : notify.notifyWaiters.wakes waiter = true :=
  decide_eq_true (Nat.lt_succ_of_le hears)

/-- Being refused, it is owed a signal. -/
theorem Hears.expects (hears : notify.Hears waiter) : notify.Expects waiter true :=
  ⟨hears, .inr rfl⟩

namespace Expects

variable {owed : Bool}

/-- After a signal nothing more is owed. -/
theorem notifyWaiters (expects : notify.Expects waiter owed) (later : Bool) :
    notify.notifyWaiters.Expects waiter later :=
  ⟨expects.hears.notifyWaiters, .inl expects.hears.wakes⟩

/-- That somebody else is refused takes nothing away. -/
theorem refuse (expects : notify.Expects waiter owed) : notify.Expects waiter true :=
  expects.hears.expects

end Expects

end Notify
