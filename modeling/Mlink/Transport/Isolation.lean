/-
# Writing to the centrals

A connection belongs to one central, but a write through it hands its bytes to
CoreBluetooth for all centrals that are subscribed. When the queue of CoreBluetooth is
full the write is parked until the queue has drained, and tries again; after two seconds
it gives up.

Isolation is a statement about two runs: what a central receives is what it would
receive without the writes through the connections of others.
-/

import Mlink.Transport.Peripheral

namespace Mlink.Transport

open Mlink.Protocol

/-- Hand bytes over for every subscribed central. CoreBluetooth accepts them unless its
queue is full; without a central there is nothing to hand over. -/
def MacPeripheral.notifySubscribed (peripheral : MacPeripheral) (data : Bytes) (accepts : Bool) :
    Bool × Option (List String × Bytes) :=
  if peripheral.subscribed.isEmpty then (true, none)
  else (accepts, if accepts then some (peripheral.subscribed, data) else none)

/-- What was handed over in a write through the connection of a central. -/
structure Notification where
  peerId : String
  centrals : List String
  data : Bytes
  deriving DecidableEq, Repr

/-- A peripheral with the writes through its connections. The calls of `write` on the
connection of a central are told apart by a number. -/
structure Hub where
  watch : Watch
  /-- The bytes of the calls that wait for the queue to drain. -/
  parked : String × Nat → Option Bytes
  /-- What the calls have returned, oldest first. -/
  returned : List ((String × Nat) × Except MlinkError Unit)
  /-- What CoreBluetooth has accepted, oldest first. -/
  notifications : List Notification

namespace Hub

def start (txCharUuid rxCharUuid : String) : Hub :=
  ⟨.start txCharUuid rxCharUuid, fun _ => none, [], []⟩

/-- One pass of the loop in `write`. -/
def attempt (hub : Hub) (call : String × Nat) (data : Bytes) (accepts : Bool) : Hub :=
  match hub.watch.peripheral.notifySubscribed data accepts with
  | (true, handed) =>
      { hub with
        parked := Function.update hub.parked call none
        returned := hub.returned ++ [(call, .ok ())]
        notifications := hub.notifications ++
          handed.toList.map fun update => ⟨call.1, update.1, update.2⟩ }
  | (false, _) => { hub with parked := Function.update hub.parked call (some data) }

inductive Op
  /-- Anything that happens to the peripheral itself. -/
  | event (event : Watch.Event)
  | write (call : String × Nat) (data : Bytes) (accepts : Bool)
  /-- The queue has drained, and a parked call runs its next pass. -/
  | ready (call : String × Nat) (accepts : Bool)
  /-- A parked call has waited for two seconds. -/
  | timeout (call : String × Nat)
  deriving DecidableEq, Repr

def after (hub : Hub) : Op → Hub
  | .event event => { hub with watch := hub.watch.after event }
  | .write call data accepts => hub.attempt call data accepts
  | .ready call accepts =>
      match hub.parked call with
      | some data => hub.attempt call data accepts
      | none => hub
  | .timeout call =>
      match hub.parked call with
      | some _ =>
          { hub with
            parked := Function.update hub.parked call none
            returned := hub.returned ++
              [(call, .error (.handlerError "peripheral updateValue queue stayed full for >2s"))] }
      | none => hub

/-- What a central has received. -/
def received (hub : Hub) (centralId : String) : List Bytes :=
  (hub.notifications.filter fun notification => centralId ∈ notification.centrals).map
    Notification.data

/-- Everything was handed over for the central of its connection only. -/
def Own (hub : Hub) : Prop :=
  ∀ notification ∈ hub.notifications, ∀ centralId ∈ notification.centrals,
    centralId = notification.peerId

/-- The operation is no write through the connection of another central. -/
def Op.concerns (centralId : String) : Op → Bool
  | .event _ => true
  | .write call _ _ | .ready call _ | .timeout call => call.1 = centralId

/-- In a run every write goes to the central of its connection only, and no central
receives anything else than it would without the writes for other centrals. -/
structure Isolated (txCharUuid rxCharUuid : String) (ops : List Op) : Prop where
  own : (ops.foldl after (start txCharUuid rxCharUuid)).Own
  unaffected : ∀ centralId,
    (ops.foldl after (start txCharUuid rxCharUuid)).received centralId =
      ((ops.filter (Op.concerns centralId)).foldl after
        (start txCharUuid rxCharUuid)).received centralId

/-- The call whose bytes an operation hands over, if the queue takes them. -/
def handing (hub : Hub) : Op → Option (String × Nat)
  | .write call _ true => some call
  | .ready call true => (hub.parked call).map fun _ => call
  | _ => none

/-- When bytes are handed over, no central is subscribed but that of the connection. -/
def FindsOnlyItsPeer (hub : Hub) (op : Op) : Prop :=
  ∀ call, hub.handing op = some call →
    ∀ centralId ∈ hub.watch.peripheral.subscribed, centralId = call.1

/-! ## One operation -/

section Step

variable (hub : Hub)

/-- What a pass adds to the notifications. -/
theorem notifications_attempt (call : String × Nat) (data : Bytes) (accepts : Bool) :
    (hub.attempt call data accepts).notifications =
      if accepts = true ∧ hub.watch.peripheral.subscribed ≠ [] then
        hub.notifications ++ [⟨call.1, hub.watch.peripheral.subscribed, data⟩]
      else hub.notifications := by
  cases hsubscribed : hub.watch.peripheral.subscribed <;> cases accepts <;>
    simp [attempt, MacPeripheral.notifySubscribed, hsubscribed]

/-- A pass changes nothing of the peripheral. -/
@[simp]
theorem watch_attempt (call : String × Nat) (data : Bytes) (accepts : Bool) :
    (hub.attempt call data accepts).watch = hub.watch := by
  rw [attempt]
  split <;> rfl

/-- A pass parks its own call, or has it return. -/
theorem parked_attempt (call : String × Nat) (data : Bytes) (accepts : Bool) :
    (hub.attempt call data accepts).parked = Function.update hub.parked call
      (if accepts = true ∨ hub.watch.peripheral.subscribed = [] then none else some data) := by
  cases hsubscribed : hub.watch.peripheral.subscribed <;> cases accepts <;>
    simp [attempt, MacPeripheral.notifySubscribed, hsubscribed]

variable {hub}

theorem own_attempt_iff (own : hub.Own) (call : String × Nat) (data : Bytes) (accepts : Bool) :
    (hub.attempt call data accepts).Own ↔
      (accepts = true → ∀ centralId ∈ hub.watch.peripheral.subscribed, centralId = call.1) := by
  rw [Own, notifications_attempt]
  split_ifs with haccepted
  · constructor
    · intro hown _
      exact hown _ (List.mem_append_right _ (List.mem_singleton_self _))
    · intro hpeer notification hnotification
      rcases List.mem_append.mp hnotification with hold | hnew
      · exact own notification hold
      · rw [List.mem_singleton.mp hnew]
        exact hpeer haccepted.1
  · refine iff_of_true own ?_
    intro haccepts
    rw [not_and_not_right.mp haccepted haccepts]
    exact fun _ hnone => absurd hnone List.not_mem_nil

/-- An operation keeps everything with its own central exactly if it finds no other
subscribed. -/
theorem own_after_iff (own : hub.Own) (op : Op) : (hub.after op).Own ↔ hub.FindsOnlyItsPeer op := by
  cases op with
  | event event => exact iff_of_true own (by simp [FindsOnlyItsPeer, handing])
  | write call data accepts =>
      rw [after, own_attempt_iff own]
      cases accepts <;> simp [FindsOnlyItsPeer, handing]
  | ready call accepts =>
      cases hparked : hub.parked call with
      | none =>
          simp only [after, hparked]
          refine iff_of_true own ?_
          cases accepts <;> simp [FindsOnlyItsPeer, handing, hparked]
      | some data =>
          simp only [after, hparked]
          rw [own_attempt_iff own]
          cases accepts <;> simp [FindsOnlyItsPeer, handing, hparked]
  | timeout call =>
      refine iff_of_true ?_ (by simp [FindsOnlyItsPeer, handing])
      rw [after]
      split
      · exact own
      · exact own

/-- What was accepted stays on record. -/
theorem notifications_subset_after (op : Op) :
    hub.notifications ⊆ (hub.after op).notifications := by
  have hattempt : ∀ call data accepts,
      hub.notifications ⊆ (hub.attempt call data accepts).notifications := by
    intro call data accepts
    rw [notifications_attempt]
    split_ifs
    · exact List.subset_append_left _ _
    · exact List.Subset.refl _
  cases op with
  | event event => exact List.Subset.refl _
  | write call data accepts => exact hattempt call data accepts
  | ready call accepts =>
      rw [after]
      split
      · exact hattempt call _ accepts
      · exact List.Subset.refl _
  | timeout call =>
      rw [after]
      split <;> exact List.Subset.refl _

end Step

/-! ## Two runs -/

/-- The second hub has all that the first has, but for the writes of others than the
central. -/
structure AgreeFor (centralId : String) (full purged : Hub) : Prop where
  watch : full.watch = purged.watch
  parked : ∀ number, full.parked (centralId, number) = purged.parked (centralId, number)
  notifications : full.notifications.filter (fun notification => notification.peerId = centralId) =
    purged.notifications

section TwoRuns

variable {centralId : String} {full purged : Hub}

/-- The same pass on both sides. -/
theorem AgreeFor.attempt (agree : AgreeFor centralId full purged) (number : Nat) (data : Bytes)
    (accepts : Bool) : AgreeFor centralId (full.attempt (centralId, number) data accepts)
      (purged.attempt (centralId, number) data accepts) where
  watch := by simp [agree.watch]
  parked other := by
    simp only [parked_attempt, agree.watch]
    by_cases hsame : other = number
    · rw [hsame, Function.update_self, Function.update_self]
    · have hother : (centralId, other) ≠ (centralId, number) :=
        fun heq => hsame (Prod.ext_iff.mp heq).2
      rw [Function.update_of_ne hother, Function.update_of_ne hother, agree.parked]
  notifications := by
    simp only [notifications_attempt, agree.watch]
    split_ifs
    · simp [List.filter_append, agree.notifications]
    · exact agree.notifications

/-- A pass for another central on the full side only. -/
theorem AgreeFor.attempt_other (agree : AgreeFor centralId full purged) {call : String × Nat}
    (other : call.1 ≠ centralId) (data : Bytes) (accepts : Bool) :
    AgreeFor centralId (full.attempt call data accepts) purged where
  watch := by simp [agree.watch]
  parked number := by
    rw [parked_attempt, Function.update_of_ne, agree.parked]
    exact fun heq => other (Prod.ext_iff.mp heq).1.symm
  notifications := by
    rw [notifications_attempt]
    split_ifs
    · simp [List.filter_append, agree.notifications, other]
    · exact agree.notifications

theorem AgreeFor.after (agree : AgreeFor centralId full purged) {op : Op}
    (concerns : op.concerns centralId = true) :
    AgreeFor centralId (full.after op) (purged.after op) := by
  cases op with
  | event event => exact ⟨congrArg (·.after event) agree.watch, agree.parked, agree.notifications⟩
  | write call data accepts =>
      obtain ⟨peerId, number⟩ := call
      obtain rfl : peerId = centralId := of_decide_eq_true concerns
      exact agree.attempt number data accepts
  | ready call accepts =>
      obtain ⟨peerId, number⟩ := call
      obtain rfl : peerId = centralId := of_decide_eq_true concerns
      simp only [Hub.after, agree.parked]
      split
      · exact agree.attempt number _ accepts
      · exact agree
  | timeout call =>
      obtain ⟨peerId, number⟩ := call
      obtain rfl : peerId = centralId := of_decide_eq_true concerns
      simp only [Hub.after, agree.parked]
      split
      · refine ⟨agree.watch, ?_, agree.notifications⟩
        intro other
        by_cases hsame : other = number
        · simp [hsame]
        · simp [hsame, agree.parked]
      · exact agree

theorem AgreeFor.after_other (agree : AgreeFor centralId full purged) {op : Op}
    (other : op.concerns centralId = false) : AgreeFor centralId (full.after op) purged := by
  cases op with
  | event event => cases other
  | write call data accepts => exact agree.attempt_other (of_decide_eq_false other) data accepts
  | ready call accepts =>
      rw [Hub.after]
      split
      · exact agree.attempt_other (of_decide_eq_false other) _ accepts
      · exact agree
  | timeout call =>
      rw [Hub.after]
      split
      · refine ⟨agree.watch, ?_, agree.notifications⟩
        intro number
        have hother : (centralId, number) ≠ call :=
          fun heq => of_decide_eq_false other (Prod.ext_iff.mp heq).1.symm
        simp only [Function.update_of_ne hother]
        exact agree.parked number
      · exact agree

/-- A run and the run without the writes of others agree for the central. -/
theorem agreeFor_run (txCharUuid rxCharUuid centralId : String) (ops : List Op) :
    AgreeFor centralId (ops.foldl after (start txCharUuid rxCharUuid))
      ((ops.filter (Op.concerns centralId)).foldl after (start txCharUuid rxCharUuid)) := by
  apply Transition.foldl_filter_of_unwinding
  · exact fun _ _ _ agree concerns => agree.after concerns
  · exact fun _ _ _ agree other => agree.after_other other
  · exact ⟨rfl, fun _ => rfl, rfl⟩

/-- Where everything goes to its own central, the central receives no more than in the
run without the writes of others. -/
theorem AgreeFor.received_eq (agree : AgreeFor centralId full purged) (own : full.Own) :
    full.received centralId = purged.received centralId := by
  rw [received, received, ← agree.notifications, List.filter_filter]
  congr 1
  apply List.filter_congr
  intro notification hnotification
  by_cases hcentral : centralId ∈ notification.centrals
  · simp [own notification hnotification centralId hcentral]
  · simp [hcentral]

end TwoRuns

/-! ## Whole runs -/

/-- Centrals are isolated from each other in exactly the runs in which bytes are only
handed over while no central but that of the connection is subscribed. -/
theorem isolated_iff_findsOnlyItsPeer (txCharUuid rxCharUuid : String) (ops : List Op) :
    Isolated txCharUuid rxCharUuid ops ↔
      ∀ earlier op later, ops = earlier ++ op :: later →
        (earlier.foldl after (start txCharUuid rxCharUuid)).FindsOnlyItsPeer op := by
  have keeps : ∀ (hub : Hub) (op : Op), hub.Own → ((hub.after op).Own ↔ hub.FindsOnlyItsPeer op) :=
    fun _ op own => own_after_iff own op
  have hstart : (start txCharUuid rxCharUuid).Own := fun _ hnone => absurd hnone List.not_mem_nil
  rw [← Transition.forall_foldl_iff_guarded keeps hstart ops]
  constructor
  · intro isolated earlier later hsplit notification hnotification
    apply isolated.own notification
    rw [hsplit, List.foldl_append]
    have stays : ∀ (hub : Hub) (op : Op), notification ∈ hub.notifications → True →
        notification ∈ (hub.after op).notifications :=
      fun _ op hmem _ => notifications_subset_after op hmem
    exact Transition.foldl_of_guarded stays hnotification fun _ _ _ _ => trivial
  · intro throughout
    have hown := throughout ops [] (List.append_nil ops).symm
    exact ⟨hown, fun centralId =>
      (agreeFor_run txCharUuid rxCharUuid centralId ops).received_eq hown⟩

/-- Two centrals have subscribed, and their connections are made; then bytes are written
through the connection of the first. -/
def writeToFirst (rxCharUuid : String) : List Op :=
  [.event (.didSubscribe "first" rxCharUuid), .event .waitForCentral,
    .event (.didSubscribe "second" rxCharUuid), .event .waitForCentral,
    .write ("first", 0) [1] true]

/-- The second central receives bytes that were written for the first. -/
theorem not_isolated_writeToFirst :
    ¬ Isolated TX_CHAR_UUID RX_CHAR_UUID (writeToFirst RX_CHAR_UUID) := by
  -- for any characteristics, lest their texts be compared letter by letter
  have hany : ∀ txCharUuid rxCharUuid : String,
      ((writeToFirst rxCharUuid).foldl after (start txCharUuid rxCharUuid)).received "second" =
          [[1]] ∧
        (((writeToFirst rxCharUuid).filter (Op.concerns "second")).foldl after
          (start txCharUuid rxCharUuid)).received "second" = [] := by
    intro txCharUuid rxCharUuid
    have hfilter : (writeToFirst rxCharUuid).filter (Op.concerns "second") =
        (writeToFirst rxCharUuid).take 4 := by
      simp [writeToFirst, List.filter_cons, Op.concerns]
    rw [hfilter]
    constructor <;>
      simp [writeToFirst, start, Watch.start, MacPeripheral.start, after, Watch.after,
        attempt, received, MacPeripheral.didSubscribe, MacPeripheral.waitForCentral,
        PeripheralEvent.subscriber, MacPeripheral.notifySubscribed]
  obtain ⟨hwith, hwithout⟩ := hany TX_CHAR_UUID RX_CHAR_UUID
  intro isolated
  have hsame := isolated.unaffected "second"
  rw [hwith, hwithout] at hsame
  cases hsame

end Hub

end Mlink.Transport
