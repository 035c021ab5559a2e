/-
# Waiting for room in the queue

A write that finds CoreBluetooth's queue full sleeps until the delegate signals that there
is room again. It begins to wait for the signal before it tries, since the queue may drain
and the signal come between the refusal and the sleep. Here these are steps of their own,
and other writes, the queue and the centrals move between them.

CoreBluetooth owes the delegate a callback after it has refused an update.
-/

import Mlink.Lib.Notify
import Mlink.Transport.Isolation

namespace Mlink.Transport

open Mlink.Protocol

/-- How long a write sleeps, in milliseconds. -/
def UPDATE_TIMEOUT_MS : Nat := 2000

/-- Where a call of `write` is. -/
inductive WriteStage
  /-- It waits for the signal, and is to try; perhaps it has tried before. -/
  | armed (waiter : Notify.Waiter) (again : Bool)
  /-- It was refused at that time, and sleeps. -/
  | asleep (waiter : Notify.Waiter) (since : Nat)
  deriving DecidableEq, Repr

namespace WriteStage

def waiter : WriteStage → Notify.Waiter
  | armed waiter _ | asleep waiter _ => waiter

/-- It has been refused before. -/
def refused : WriteStage → Bool
  | armed _ again => again
  | asleep _ _ => true

end WriteStage

structure WriteCall where
  data : Bytes
  stage : WriteStage
  deriving DecidableEq, Repr

/-- A peripheral with the calls of `write` on its connections, told apart by a number, and
CoreBluetooth with its queue. -/
structure Writers where
  watch : Watch
  /-- The signal of the delegate. -/
  updateReady : Notify
  calls : String × Nat → Option WriteCall
  /-- The calls there have been, with their bytes. -/
  begun : List ((String × Nat) × Bytes)
  /-- What the calls have returned, oldest first. -/
  returned : List ((String × Nat) × Except MlinkError Unit)
  /-- What CoreBluetooth has accepted, oldest first, and of which calls. -/
  accepted : List ((String × Nat) × Notification)
  /-- The calls that found no central. -/
  unheard : List (String × Nat)
  /-- How many updates have left the queue. -/
  sent : Nat
  /-- An update was refused, and the delegate has not been called since. -/
  owes : Bool
  now : Nat

namespace Writers

def start (txCharUuid rxCharUuid : String) : Writers :=
  ⟨.start txCharUuid rxCharUuid, ⟨0⟩, fun _ => none, [], [], [], [], 0, false, 0⟩

inductive Move
  /-- Anything that happens to the peripheral itself. -/
  | event (event : Watch.Event)
  | begin (call : String × Nat) (data : Bytes)
  | attempt (call : String × Nat)
  | wake (call : String × Nat)
  | timeout (call : String × Nat)
  /-- The future of the call is dropped. -/
  | cancel (call : String × Nat)
  /-- An update leaves the queue. -/
  | drain
  | isReadyToUpdateSubscribers
  | tick (elapsed : Nat)
  deriving DecidableEq, Repr

variable (writers : Writers) (call : String × Nat)

def setCall (found : Option WriteCall) : Writers :=
  { writers with calls := Function.update writers.calls call found }

/-- The call returns. -/
def finish (result : Except MlinkError Unit) : Writers :=
  { writers.setCall call none with returned := writers.returned ++ [(call, result)] }

def hasRoom (capacity : Nat) : Bool := writers.accepted.length < writers.sent + capacity

/-- The head of the loop: begin to wait. -/
def arm (data : Bytes) (again : Bool) : Writers :=
  writers.setCall call (some ⟨data, .armed writers.updateReady.notified again⟩)

/-- Hand the bytes over; when they are refused, sleep. -/
def tryOnce (capacity : Nat) (data : Bytes) (waiter : Notify.Waiter) : Writers :=
  match writers.watch.peripheral.notifySubscribed data (writers.hasRoom capacity) with
  | (true, some (centrals, bytes)) =>
      { writers.finish call (.ok ()) with
        accepted := writers.accepted ++ [(call, ⟨call.1, centrals, bytes⟩)] }
  | (true, none) =>
      { writers.finish call (.ok ()) with unheard := writers.unheard ++ [call] }
  | (false, _) =>
      { writers.setCall call (some ⟨data, .asleep waiter writers.now⟩) with owes := true }

/-- The signal wakes the call, which begins to wait anew. -/
def wake : Writers :=
  match writers.calls call with
  | some ⟨data, .asleep waiter _⟩ =>
      if writers.updateReady.wakes waiter then writers.arm call data true else writers
  | _ => writers

/-- The callback of the delegate. -/
def isReadyToUpdateSubscribers : Writers :=
  { writers with updateReady := writers.updateReady.notifyWaiters, owes := false }

/-- The world after a move; a move that cannot be made changes nothing. -/
def after (capacity : Nat) : Move → Writers
  | .event event => { writers with watch := writers.watch.after event }
  | .begin call data =>
      if call ∈ writers.begun.map Prod.fst then writers
      else { writers.arm call data false with begun := writers.begun ++ [(call, data)] }
  | .attempt call =>
      match writers.calls call with
      | some ⟨data, .armed waiter _⟩ => writers.tryOnce call capacity data waiter
      | _ => writers
  | .wake call => writers.wake call
  | .timeout call =>
      match writers.calls call with
      | some ⟨_, .asleep _ since⟩ =>
          if since + UPDATE_TIMEOUT_MS ≤ writers.now then
            writers.finish call
              (.error (.handlerError "peripheral updateValue queue stayed full for >2s"))
          else writers
      | _ => writers
  | .cancel call => writers.setCall call none
  | .drain => { writers with sent := min (writers.sent + 1) writers.accepted.length }
  | .isReadyToUpdateSubscribers => writers.isReadyToUpdateSubscribers
  | .tick elapsed => { writers with now := writers.now + elapsed }

def system (txCharUuid rxCharUuid : String) (capacity : Nat) : Transition.System Writers Move where
  init writers := writers = start txCharUuid rxCharUuid
  step source move target := target = source.after capacity move

/-- A call that sleeps can wake, and is then about to try again. -/
def Wakes (data : Bytes) : Prop :=
  ∃ waiter, (writers.wake call).calls call = some ⟨data, .armed waiter true⟩

/-- What the hub of whole passes has of these writers. -/
structure Shows (writers : Writers) (hub : Hub) : Prop where
  watch : hub.watch = writers.watch
  returned : hub.returned = writers.returned
  notifications : hub.notifications = writers.accepted.map Prod.snd
  parked : ∀ call found, writers.calls call = some found → found.stage.refused = true →
    hub.parked call = some found.data

/-- No signal is slept through, and what a call returns says what came of its bytes. -/
structure Attentive (txCharUuid rxCharUuid : String) (writers : Writers) : Prop where
  /-- Who sleeps has been woken, or will be by the callback that is still owed. -/
  awake : ∀ call data waiter since, writers.calls call = some ⟨data, .asleep waiter since⟩ →
    writers.Wakes call data ∨
      writers.owes = true ∧ writers.isReadyToUpdateSubscribers.Wakes call data
  /-- A call returns once, -/
  returns : (writers.returned.map Prod.fst).Nodup
  /-- and without an error exactly if its bytes were accepted or nobody was there. -/
  truthful : ∀ call, (call, .ok ()) ∈ writers.returned ↔
    call ∈ writers.accepted.map Prod.fst ∨ call ∈ writers.unheard
  /-- They are accepted once, -/
  once : (writers.accepted.map Prod.fst ++ writers.unheard).Nodup
  /-- as they were given. -/
  own : ∀ pair ∈ writers.accepted, (pair.1, pair.2.data) ∈ writers.begun ∧ pair.2.peerId = pair.1.1
  /-- In whole passes this is a run of the hub. -/
  passes : ∃ ops : List Hub.Op,
    writers.Shows (ops.foldl Hub.after (Hub.start txCharUuid rxCharUuid))

/-! ## One move -/

section Moves

variable {writers call} {other : String × Nat} {found : WriteCall} {hub : Hub}

/-- What holds of the calls that are under way. They have not returned, and if they sleep,
the signal that they wait for has come or is owed. -/
structure Pending (writers : Writers) : Prop where
  hears : ∀ call found, writers.calls call = some found →
    writers.updateReady.Hears found.stage.waiter
  expects : ∀ call data waiter since, writers.calls call = some ⟨data, .asleep waiter since⟩ →
    writers.updateReady.Expects waiter writers.owes
  begun : ∀ call found, writers.calls call = some found → (call, found.data) ∈ writers.begun
  unreturned : ∀ call found, writers.calls call = some found →
    call ∉ writers.returned.map Prod.fst
  known : ∀ call ∈ writers.returned.map Prod.fst, call ∈ writers.begun.map Prod.fst
  returns : (writers.returned.map Prod.fst).Nodup

/-- What holds of the calls that have returned. -/
structure Settled (writers : Writers) : Prop where
  truthful : ∀ call, (call, .ok ()) ∈ writers.returned ↔
    call ∈ writers.accepted.map Prod.fst ∨ call ∈ writers.unheard
  once : (writers.accepted.map Prod.fst ++ writers.unheard).Nodup
  own : ∀ pair ∈ writers.accepted, (pair.1, pair.2.data) ∈ writers.begun ∧ pair.2.peerId = pair.1.1

theorem pending_start (txCharUuid rxCharUuid : String) :
    (start txCharUuid rxCharUuid).Pending where
  hears _ _ hfound := by cases hfound
  expects _ _ _ _ hfound := by cases hfound
  begun _ _ hfound := by cases hfound
  unreturned _ _ hfound := by cases hfound
  known _ hcall := absurd hcall List.not_mem_nil
  returns := List.nodup_nil

theorem settled_start (txCharUuid rxCharUuid : String) :
    (start txCharUuid rxCharUuid).Settled where
  truthful call := by simp [start]
  once := List.nodup_nil
  own _ hpair := absurd hpair List.not_mem_nil

/-- What is found after a call was set. -/
theorem calls_setCall_eq {set : Option WriteCall} :
    (writers.setCall call set).calls other = some found ↔
      other = call ∧ set = some found ∨ other ≠ call ∧ writers.calls other = some found := by
  rw [setCall]
  by_cases hsame : other = call
  · simp [hsame]
  · simp [hsame]

namespace Pending

variable (pending : writers.Pending)

include pending

/-- One call is set to another stage, or taken out. -/
theorem setCall {set : Option WriteCall}
    (hears : ∀ found, set = some found → writers.updateReady.Hears found.stage.waiter)
    (expects : ∀ data waiter since, set = some ⟨data, .asleep waiter since⟩ →
      writers.updateReady.Expects waiter writers.owes)
    (begun : ∀ found, set = some found → (call, found.data) ∈ writers.begun)
    (unreturned : ∀ found, set = some found → call ∉ writers.returned.map Prod.fst) :
    (writers.setCall call set).Pending where
  hears other found hfound := by
    rcases calls_setCall_eq.mp hfound with ⟨_, hset⟩ | ⟨_, hold⟩
    · exact hears found hset
    · exact pending.hears other found hold
  expects other data waiter since hfound := by
    rcases calls_setCall_eq.mp hfound with ⟨_, hset⟩ | ⟨_, hold⟩
    · exact expects data waiter since hset
    · exact pending.expects other data waiter since hold
  begun other found hfound := by
    rcases calls_setCall_eq.mp hfound with ⟨hother, hset⟩ | ⟨_, hold⟩
    · rw [hother]
      exact begun found hset
    · exact pending.begun other found hold
  unreturned other found hfound := by
    rcases calls_setCall_eq.mp hfound with ⟨hother, hset⟩ | ⟨_, hold⟩
    · rw [hother]
      exact unreturned found hset
    · exact pending.unreturned other found hold
  known := pending.known
  returns := pending.returns

theorem cancel : (writers.setCall call none).Pending :=
  pending.setCall (fun _ hnone => by cases hnone) (fun _ _ _ hnone => by cases hnone)
    (fun _ hnone => by cases hnone) fun _ hnone => by cases hnone

/-- A call begins to wait. -/
theorem arm {data : Bytes} (again : Bool) (begun : (call, data) ∈ writers.begun)
    (unreturned : call ∉ writers.returned.map Prod.fst) :
    (writers.arm call data again).Pending := by
  apply pending.setCall
  · rintro _ ⟨⟩
    exact Notify.hears_notified
  · rintro _ _ _ ⟨⟩
  · rintro _ ⟨⟩
    exact begun
  · exact fun _ _ => unreturned

/-- A call returns. -/
theorem finish (hfound : writers.calls call = some found) (result : Except MlinkError Unit) :
    (writers.finish call result).Pending := by
  have cancelled : (writers.setCall call none).Pending := pending.cancel
  have hreturned : (writers.finish call result).returned.map Prod.fst =
      writers.returned.map Prod.fst ++ [call] := by
    rw [Writers.finish, List.map_append, List.map_singleton]
  refine ⟨cancelled.hears, cancelled.expects, cancelled.begun, ?_, ?_, ?_⟩
  · intro other found hother hmem
    rw [hreturned] at hmem
    rcases List.mem_append.mp hmem with hold | hnew
    · exact cancelled.unreturned other found hother hold
    · obtain ⟨-, hnone⟩ | ⟨hne, -⟩ := calls_setCall_eq.mp hother
      · cases hnone
      · exact hne (List.mem_singleton.mp hnew)
  · intro other hmem
    rw [hreturned] at hmem
    rcases List.mem_append.mp hmem with hold | hnew
    · exact pending.known other hold
    · rw [List.mem_singleton.mp hnew]
      exact List.mem_map_of_mem (pending.begun call found hfound)
  · rw [hreturned]
    exact pending.returns.append (List.nodup_singleton call)
      (List.disjoint_singleton.mpr (pending.unreturned call found hfound))

/-- A call that is to try is refused. -/
theorem refuse {data : Bytes} {waiter : Notify.Waiter} {again : Bool}
    (hfound : writers.calls call = some ⟨data, .armed waiter again⟩) (now : Nat) :
    Pending { writers.setCall call (some ⟨data, .asleep waiter now⟩) with owes := true } := by
  have owed : Pending { writers with owes := true } :=
    ⟨pending.hears, fun other data waiter since hother =>
      (pending.expects other data waiter since hother).refuse, pending.begun,
      pending.unreturned, pending.known, pending.returns⟩
  have hears : writers.updateReady.Hears waiter := pending.hears call _ hfound
  have hbegun : (call, data) ∈ writers.begun := pending.begun call _ hfound
  refine owed.setCall ?_ ?_ ?_ ?_
  · rintro _ ⟨⟩
    exact hears
  · rintro _ _ _ ⟨⟩
    exact hears.expects
  · rintro _ ⟨⟩
    exact hbegun
  · exact fun _ _ => pending.unreturned call _ hfound

/-- The callback wakes everyone who sleeps. -/
theorem isReadyToUpdateSubscribers : writers.isReadyToUpdateSubscribers.Pending where
  hears other found hother := (pending.hears other found hother).notifyWaiters
  expects other data waiter since hother :=
    (pending.expects other data waiter since hother).notifyWaiters false
  begun := pending.begun
  unreturned := pending.unreturned
  known := pending.known
  returns := pending.returns

theorem wake (call : String × Nat) : (writers.wake call).Pending := by
  rw [Writers.wake]
  split
  · next data waiter since hfound =>
      split_ifs
      · exact pending.arm true (pending.begun call _ hfound) (pending.unreturned call _ hfound)
      · exact pending
  · exact pending

/-- A call under way is none whose bytes were accepted. -/
theorem fresh (settled : writers.Settled) (hfound : writers.calls call = some found) :
    call ∉ writers.accepted.map Prod.fst ++ writers.unheard := by
  intro hcall
  have hreturned := (settled.truthful call).mpr (List.mem_append.mp hcall)
  exact pending.unreturned call found hfound (List.mem_map_of_mem hreturned)

end Pending

namespace Settled

variable (settled : writers.Settled)

include settled

/-- A call returns with an error. -/
theorem fail (e : MlinkError) : (writers.finish call (.error e)).Settled where
  truthful other := by
    have hsame : (other, .ok ()) ∈ writers.returned ++ [(call, .error e)] ↔
        (other, .ok ()) ∈ writers.returned := by simp
    exact hsame.trans (settled.truthful other)
  once := settled.once
  own := settled.own

/-- The bytes of a call are accepted. -/
theorem accept {notification : Notification}
    (fresh : call ∉ writers.accepted.map Prod.fst ++ writers.unheard)
    (begun : (call, notification.data) ∈ writers.begun) (own : notification.peerId = call.1) :
    Settled { writers.finish call (.ok ()) with
      accepted := writers.accepted ++ [(call, notification)] } where
  truthful other := by
    simp only [finish, setCall, List.mem_append, List.mem_singleton, List.map_append,
      List.map_cons, List.map_nil, settled.truthful other, Prod.mk.injEq, and_true]
    exact or_right_comm
  once := by
    rw [List.map_append, List.append_assoc]
    apply (List.perm_middle.symm.nodup_iff).mp
    exact List.nodup_cons.mpr ⟨fresh, settled.once⟩
  own pair hpair := by
    rcases List.mem_append.mp hpair with hold | hnew
    · exact settled.own pair hold
    · rw [List.mem_singleton.mp hnew]
      exact ⟨begun, own⟩

/-- A call finds no central. -/
theorem miss (fresh : call ∉ writers.accepted.map Prod.fst ++ writers.unheard) :
    Settled { writers.finish call (.ok ()) with unheard := writers.unheard ++ [call] } where
  truthful other := by
    simp only [finish, setCall, List.mem_append, List.mem_singleton, settled.truthful other,
      Prod.mk.injEq, and_true]
    exact or_assoc
  once := by
    rw [← List.append_assoc]
    exact settled.once.append (List.nodup_singleton call) (List.disjoint_singleton.mpr fresh)
  own := settled.own

end Settled

/-- What comes of an attempt. -/
theorem settled_tryOnce (pending : writers.Pending) (settled : writers.Settled) {data : Bytes}
    {waiter : Notify.Waiter} {again : Bool}
    (hfound : writers.calls call = some ⟨data, .armed waiter again⟩) (capacity : Nat) :
    (writers.tryOnce call capacity data waiter).Pending ∧
      (writers.tryOnce call capacity data waiter).Settled := by
  have fresh := pending.fresh settled hfound
  have finished := pending.finish hfound (.ok ())
  have returned : ∀ accepted unheard,
      Pending { writers.finish call (.ok ()) with accepted, unheard } := fun _ _ =>
    ⟨finished.hears, finished.expects, finished.begun, finished.unreturned, finished.known,
      finished.returns⟩
  cases hsubscribed : writers.watch.peripheral.subscribed with
  | nil =>
      simp only [tryOnce, MacPeripheral.notifySubscribed, hsubscribed, List.isEmpty_nil, if_true]
      exact ⟨returned _ _, settled.miss fresh⟩
  | cons first rest =>
      cases hroom : writers.hasRoom capacity with
      | true =>
          simp only [tryOnce, MacPeripheral.notifySubscribed, hsubscribed, hroom,
            List.isEmpty_cons, Bool.false_eq_true, if_false, if_true]
          exact ⟨returned _ _, settled.accept fresh (pending.begun call _ hfound) rfl⟩
      | false =>
          simp only [tryOnce, MacPeripheral.notifySubscribed, hsubscribed, hroom,
            List.isEmpty_cons, Bool.false_eq_true, if_false]
          exact ⟨pending.refuse hfound writers.now,
            settled.truthful, settled.once, settled.own⟩

/-- Every move keeps both. -/
theorem kept_after (pending : writers.Pending) (settled : writers.Settled) (capacity : Nat)
    (move : Move) :
    (writers.after capacity move).Pending ∧ (writers.after capacity move).Settled := by
  cases move with
  | event event =>
      exact ⟨⟨pending.hears, pending.expects, pending.begun, pending.unreturned, pending.known,
        pending.returns⟩, settled.truthful, settled.once, settled.own⟩
  | begin call data =>
      rw [after]
      split_ifs with hknown
      · exact ⟨pending, settled⟩
      · have grown : Pending { writers with begun := writers.begun ++ [(call, data)] } :=
          ⟨pending.hears, pending.expects,
            fun other found hother => List.mem_append_left _ (pending.begun other found hother),
            pending.unreturned,
            fun other hother => by
              rw [List.map_append]
              exact List.mem_append_left _ (pending.known other hother),
            pending.returns⟩
        refine ⟨grown.arm false (List.mem_append_right _ (List.mem_singleton_self _))
          fun hreturned => hknown (pending.known call hreturned), settled.truthful, settled.once,
          fun pair hpair => ?_⟩
        obtain ⟨hbegun, hown⟩ := settled.own pair hpair
        exact ⟨List.mem_append_left _ hbegun, hown⟩
  | attempt call =>
      rw [after]
      split
      · next data waiter again hfound => exact settled_tryOnce pending settled hfound capacity
      · exact ⟨pending, settled⟩
  | wake call =>
      refine ⟨pending.wake call, ?_⟩
      rw [after, wake]
      split
      · split_ifs
        · exact ⟨settled.truthful, settled.once, settled.own⟩
        · exact settled
      · exact settled
  | timeout call =>
      rw [after]
      split
      · next hfound =>
          split_ifs
          · exact ⟨pending.finish hfound _, settled.fail _⟩
          · exact ⟨pending, settled⟩
      · exact ⟨pending, settled⟩
  | cancel call => exact ⟨pending.cancel, settled.truthful, settled.once, settled.own⟩
  | drain =>
      exact ⟨⟨pending.hears, pending.expects, pending.begun, pending.unreturned, pending.known,
        pending.returns⟩, settled.truthful, settled.once, settled.own⟩
  | isReadyToUpdateSubscribers =>
      exact ⟨pending.isReadyToUpdateSubscribers, settled.truthful, settled.once, settled.own⟩
  | tick elapsed =>
      exact ⟨⟨pending.hears, pending.expects, pending.begun, pending.unreturned, pending.known,
        pending.returns⟩, settled.truthful, settled.once, settled.own⟩

/-! ## Whole passes -/

namespace Shows

variable (shows : writers.Shows hub)

include shows

/-- A call is set to another stage, and the hub parks it or has it return. -/
theorem parked_setCall {set : Option WriteCall} {parks : Option Bytes}
    (hparks : ∀ found, set = some found → found.stage.refused = true → parks = some found.data) :
    ∀ other found, (writers.setCall call set).calls other = some found →
      found.stage.refused = true →
        Function.update hub.parked call parks other = some found.data := by
  intro other found hfound hrefused
  rcases calls_setCall_eq.mp hfound with ⟨rfl, hset⟩ | ⟨hne, hold⟩
  · rw [Function.update_self]
    exact hparks found hset hrefused
  · rw [Function.update_of_ne hne]
    exact shows.parked other found hold hrefused

/-- A call is set to a stage in which the hub has parked it already. -/
theorem setCall {set : Option WriteCall}
    (hparks : ∀ found, set = some found → found.stage.refused = true →
      hub.parked call = some found.data) : (writers.setCall call set).Shows hub where
  watch := shows.watch
  returned := shows.returned
  notifications := shows.notifications
  parked := by
    rw [← Function.update_eq_self call hub.parked]
    exact shows.parked_setCall hparks

/-- An attempt is a pass of the hub. -/
theorem tryOnce (data : Bytes) (waiter : Notify.Waiter) (capacity : Nat) :
    (writers.tryOnce call capacity data waiter).Shows
      (hub.attempt call data (writers.hasRoom capacity)) := by
  have gone : ∀ other found, (writers.setCall call none).calls other = some found →
      found.stage.refused = true →
        Function.update hub.parked call none other = some found.data :=
    shows.parked_setCall fun _ hnone => by cases hnone
  have hwatch := shows.watch
  cases hsubscribed : writers.watch.peripheral.subscribed with
  | nil =>
      simp only [Writers.tryOnce, Hub.attempt, MacPeripheral.notifySubscribed, hwatch,
        hsubscribed, List.isEmpty_nil, if_true]
      refine ⟨rfl, ?_, ?_, gone⟩
      · rw [shows.returned]
        rfl
      · rw [shows.notifications, Option.toList_none, List.map_nil, List.append_nil]
        rfl
  | cons first rest =>
      cases hroom : writers.hasRoom capacity with
      | true =>
          simp only [Writers.tryOnce, Hub.attempt, MacPeripheral.notifySubscribed, hwatch,
            hsubscribed, hroom, List.isEmpty_cons, Bool.false_eq_true, if_false, if_true]
          refine ⟨rfl, ?_, ?_, gone⟩
          · rw [shows.returned]
            rfl
          · rw [shows.notifications, List.map_append]
            rfl
      | false =>
          simp only [Writers.tryOnce, Hub.attempt, MacPeripheral.notifySubscribed, hwatch,
            hsubscribed, hroom, List.isEmpty_cons, Bool.false_eq_true, if_false]
          refine ⟨rfl, shows.returned, shows.notifications, shows.parked_setCall ?_⟩
          rintro _ ⟨⟩ _
          rfl

/-- A move is a pass of the hub, or the hub does not see it. -/
theorem after (capacity : Nat) (move : Move) :
    ∃ ops : List Hub.Op, (writers.after capacity move).Shows (ops.foldl Hub.after hub) := by
  have stay : ∃ ops : List Hub.Op, writers.Shows (ops.foldl Hub.after hub) := ⟨[], shows⟩
  cases move with
  | event event =>
      exact ⟨[.event event], congrArg (·.after event) shows.watch, shows.returned,
        shows.notifications, shows.parked⟩
  | begin call data =>
      rw [Writers.after]
      split_ifs
      · exact stay
      · have armed : (writers.arm call data false).Shows hub := by
          apply shows.setCall
          rintro _ ⟨⟩ ⟨⟩
        exact ⟨[], armed.watch, armed.returned, armed.notifications, armed.parked⟩
  | attempt call =>
      rw [Writers.after]
      split
      · next data waiter again hfound =>
          cases again with
          | false => exact ⟨[.write call data (writers.hasRoom capacity)], shows.tryOnce ..⟩
          | true =>
              have hparked : hub.parked call = some data := shows.parked call _ hfound rfl
              refine ⟨[.ready call (writers.hasRoom capacity)], ?_⟩
              rw [List.foldl_cons, List.foldl_nil, Hub.after, hparked]
              exact shows.tryOnce ..
      · exact stay
  | wake call =>
      rw [Writers.after, Writers.wake]
      split
      · next data waiter since hfound =>
          split_ifs
          · have hparked : hub.parked call = some data := shows.parked call _ hfound rfl
            refine ⟨[], shows.setCall ?_⟩
            rintro _ ⟨⟩ _
            exact hparked
          · exact stay
      · exact stay
  | timeout call =>
      rw [Writers.after]
      split
      · next data waiter since hfound =>
          split_ifs
          · have hparked : hub.parked call = some data := shows.parked call _ hfound rfl
            refine ⟨[.timeout call], ?_⟩
            rw [List.foldl_cons, List.foldl_nil, Hub.after, hparked]
            refine ⟨shows.watch, ?_, shows.notifications, ?_⟩
            · rw [shows.returned]
              rfl
            · exact shows.parked_setCall fun _ hnone => by cases hnone
          · exact stay
      · exact stay
  | cancel call => exact ⟨[], shows.setCall fun _ hnone => by cases hnone⟩
  | drain =>
      exact ⟨[], shows.watch, shows.returned, shows.notifications, shows.parked⟩
  | isReadyToUpdateSubscribers =>
      exact ⟨[], shows.watch, shows.returned, shows.notifications, shows.parked⟩
  | tick elapsed =>
      exact ⟨[], shows.watch, shows.returned, shows.notifications, shows.parked⟩

end Shows

/-! ## Whole runs -/

/-- Who sleeps and has been given the signal can wake. -/
theorem wakes_of_asleep {data : Bytes} {waiter : Notify.Waiter} {since : Nat}
    (hfound : writers.calls call = some ⟨data, .asleep waiter since⟩)
    (hwakes : writers.updateReady.wakes waiter = true) : writers.Wakes call data := by
  refine ⟨writers.updateReady.notified, ?_⟩
  rw [wake, hfound]
  dsimp only
  rw [if_pos hwakes]
  exact calls_setCall_eq.mpr (.inl ⟨rfl, rfl⟩)

theorem Pending.awake (pending : writers.Pending) {data : Bytes} {waiter : Notify.Waiter}
    {since : Nat} (hfound : writers.calls call = some ⟨data, .asleep waiter since⟩) :
    writers.Wakes call data ∨
      writers.owes = true ∧ writers.isReadyToUpdateSubscribers.Wakes call data := by
  have expects := pending.expects call data waiter since hfound
  rcases expects.awaits with hwakes | howes
  · exact .inl (wakes_of_asleep hfound hwakes)
  · exact .inr ⟨howes, wakes_of_asleep hfound expects.hears.wakes⟩

end Moves

/-- In every run, a write that sleeps has been woken or is owed the callback; its bytes are
accepted once if it returns without an error and a central was there, and else never; and
pass by pass this is a run of the hub. -/
theorem attentive_of_reachable {txCharUuid rxCharUuid : String} {capacity : Nat}
    {writers : Writers} (reached : (system txCharUuid rxCharUuid capacity).Reachable writers) :
    writers.Attentive txCharUuid rxCharUuid := by
  have kept : (writers.Pending ∧ writers.Settled) ∧ ∃ ops : List Hub.Op,
      writers.Shows (ops.foldl Hub.after (Hub.start txCharUuid rxCharUuid)) := by
    apply reached.invariant fun writers => (writers.Pending ∧ writers.Settled) ∧
      ∃ ops : List Hub.Op,
        writers.Shows (ops.foldl Hub.after (Hub.start txCharUuid rxCharUuid))
    · intro _ hstart
      rw [hstart]
      exact ⟨⟨pending_start .., settled_start ..⟩, [], rfl, rfl, rfl,
        fun _ _ hfound => by cases hfound⟩
    · intro source move _ _ ⟨⟨pending, settled⟩, ops, shows⟩ hstep
      rw [hstep]
      obtain ⟨more, hmore⟩ := shows.after capacity move
      refine ⟨kept_after pending settled capacity move, ops ++ more, ?_⟩
      rw [List.foldl_append]
      exact hmore
  obtain ⟨⟨pending, settled⟩, passes⟩ := kept
  exact ⟨fun _ _ _ _ hfound => pending.awake hfound, pending.returns, settled.truthful,
    settled.once, settled.own, passes⟩

/-- Two writes into a queue of one: the signal comes before the second is refused. -/
def crossing : List Move :=
  [.event (.didSubscribe "central" RX_CHAR_UUID), .event .waitForCentral,
    .begin ("central", 0) [1], .attempt ("central", 0), .begin ("central", 1) [2],
    .isReadyToUpdateSubscribers, .attempt ("central", 1)]

theorem attentive_of_reachable_crossing :
    (crossing.foldl (fun writers move => writers.after 1 move)
      (start TX_CHAR_UUID RX_CHAR_UUID)).Attentive TX_CHAR_UUID RX_CHAR_UUID :=
  attentive_of_reachable ((Transition.System.Reachable.init rfl : (system TX_CHAR_UUID
    RX_CHAR_UUID 1).Reachable _).run (.of_foldl (fun _ _ => rfl) _ crossing))

end Writers

end Mlink.Transport
