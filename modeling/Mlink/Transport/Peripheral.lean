/-
# The peripheral and its centrals

The delegate of the peripheral takes the callbacks of the operating system:
centrals subscribe, write and unsubscribe. A subscription is put on a control
channel, from which `waitForCentral` takes it to make a channel for the central's
bytes. Writes go to the channel that the table has for their central at that
moment, and are dropped if it has none.

A call of `waitForCentral` is one step here. Between taking an event and entering
the channel into the table other callbacks may run, but they do no more than they
would have done just before the event was taken.
-/

import Mathlib.Data.List.AList
import Mlink.Lib.Entries
import Mlink.Lib.Transition
import Mlink.Protocol.Types

namespace Mlink.Transport

open Mlink.Protocol

def TX_CHAR_UUID : String := "0000ffab-0000-1000-8000-00805f9b34fb"
def RX_CHAR_UUID : String := "0000ffac-0000-1000-8000-00805f9b34fb"

/-- Compare with a canonical uuid, whatever the case of the letters. -/
def uuidMatches (uuidStr expected : String) : Bool := uuidStr.toLower = expected.toLower

@[simp]
theorem uuidMatches_self (uuid : String) : uuidMatches uuid uuid = true := decide_eq_true rfl

inductive WriteRouteDecision
  | deliver | ignore
  deriving DecidableEq, Repr

/-- Only bytes written to the TX characteristic are delivered. -/
def classifyWrite (requestCharUuid txCharUuid : String) (payloadLen : Nat) : WriteRouteDecision :=
  if !uuidMatches requestCharUuid txCharUuid then .ignore
  else if payloadLen = 0 then .ignore
  else .deliver

theorem classifyWrite_self (uuid : String) {payloadLen : Nat} (nonempty : payloadLen ≠ 0) :
    classifyWrite uuid uuid payloadLen = .deliver := by
  simp [classifyWrite, nonempty]

/-- What the delegate puts on the control channel. -/
inductive PeripheralEvent
  | stateChanged | serviceAdded | advertisingStarted
  | centralSubscribed (centralId : String)
  deriving DecidableEq, Repr

/-- The central of a subscription. -/
def PeripheralEvent.subscriber : PeripheralEvent → Option String
  | .centralSubscribed centralId => some centralId
  | .stateChanged | .serviceAdded | .advertisingStarted => none

/-- One entry of a batch of write requests. -/
structure WriteRequest where
  charUuid : String
  centralId : String
  value : Option Bytes
  deriving DecidableEq, Repr

/-- Bytes that were written, with the number of their request among all requests.
Nothing reads the number; it tells equal bytes apart. -/
structure Inbound where
  request : Nat
  bytes : Bytes
  deriving DecidableEq, Repr

/-- The place of a channel in the order in which channels were made. -/
abbrev ChannelId := Nat

structure MacPeripheral where
  /-- The characteristic that centrals write to. -/
  txCharUuid : String
  /-- The characteristic that centrals subscribe to. -/
  rxCharUuid : String
  /-- The control channel, oldest event first. -/
  ctrlEvents : List PeripheralEvent
  /-- The sender for the bytes of each central. -/
  perCentralTx : AList fun _ : String => ChannelId
  /-- The centrals subscribed, once for each subscription. -/
  subscribed : List String
  /-- What was sent on each channel, oldest first. -/
  channels : List (List Inbound)
  /-- How many write requests there were. -/
  requests : Nat
  deriving DecidableEq

namespace MacPeripheral

/-- A peripheral that is up, with no central yet. -/
def start (txCharUuid rxCharUuid : String) : MacPeripheral :=
  ⟨txCharUuid, rxCharUuid, [], ∅, [], [], 0⟩

/-- Any other callback of the delegate puts its event on the control channel. -/
def notice (peripheral : MacPeripheral) (event : PeripheralEvent) : MacPeripheral :=
  { peripheral with ctrlEvents := peripheral.ctrlEvents ++ [event] }

def didSubscribe (peripheral : MacPeripheral) (centralId charUuid : String) : MacPeripheral :=
  if uuidMatches charUuid peripheral.rxCharUuid then
    { peripheral with
      subscribed := peripheral.subscribed ++ [centralId]
      ctrlEvents := peripheral.ctrlEvents ++ [.centralSubscribed centralId] }
  else peripheral

def didUnsubscribe (peripheral : MacPeripheral) (centralId charUuid : String) : MacPeripheral :=
  if uuidMatches charUuid peripheral.rxCharUuid then
    { peripheral with
      subscribed := peripheral.subscribed.filter (· ≠ centralId)
      perCentralTx := peripheral.perCentralTx.erase centralId }
  else peripheral

/-- Send on a channel. -/
def send (peripheral : MacPeripheral) (channel : ChannelId) (inbound : Inbound) : MacPeripheral :=
  { peripheral with channels := peripheral.channels.modify channel (· ++ [inbound]) }

/-- The bytes of a request that is to be delivered. -/
def deliverable (peripheral : MacPeripheral) (request : WriteRequest) : Option Bytes :=
  match request.value with
  | none => none
  | some bytes =>
      match classifyWrite request.charUuid peripheral.txCharUuid bytes.length with
      | .deliver => some bytes
      | .ignore => none

theorem deliverable_tx (peripheral : MacPeripheral) (centralId : String) {bytes : Bytes}
    (nonempty : bytes ≠ []) :
    peripheral.deliverable ⟨peripheral.txCharUuid, centralId, some bytes⟩ = some bytes := by
  simp only [deliverable]
  rw [classifyWrite_self _ (List.length_eq_zero_iff.not.mpr nonempty)]

/-- Route one request to the channel of its central. -/
def receiveWrite (peripheral : MacPeripheral) (request : WriteRequest) : MacPeripheral :=
  let number := peripheral.requests
  let peripheral := { peripheral with requests := number + 1 }
  match peripheral.deliverable request with
  | none => peripheral
  | some bytes =>
      match peripheral.perCentralTx.lookup request.centralId with
      | some channel => peripheral.send channel ⟨number, bytes⟩
      | none => peripheral

def didReceiveWriteRequests (peripheral : MacPeripheral) (requests : List WriteRequest) :
    MacPeripheral :=
  requests.foldl receiveWrite peripheral

/-- Take events up to the first subscription, and give its central a fresh channel in
place of any it had. Without a subscription the call goes on waiting. -/
def waitForCentral (peripheral : MacPeripheral) : Option (String × ChannelId) × MacPeripheral :=
  let taken := peripheral.ctrlEvents.dropWhile fun event => event.subscriber.isNone
  match taken with
  | .centralSubscribed centralId :: rest =>
      let channel := peripheral.channels.length
      (some (centralId, channel),
        { peripheral with
          ctrlEvents := rest
          perCentralTx := peripheral.perCentralTx.insert centralId channel
          channels := peripheral.channels ++ [[]] })
  | _ => (none, { peripheral with ctrlEvents := taken })

/-- The channels after sending on one of them. -/
theorem getElem?_send (peripheral : MacPeripheral) (channel other : ChannelId)
    (inbound : Inbound) :
    (peripheral.send channel inbound).channels[other]? =
      if channel = other then peripheral.channels[other]?.map (· ++ [inbound])
      else peripheral.channels[other]? := by
  rw [send, List.getElem?_modify]
  split_ifs <;> simp

@[simp]
theorem length_send (peripheral : MacPeripheral) (channel : ChannelId) (inbound : Inbound) :
    (peripheral.send channel inbound).channels.length = peripheral.channels.length :=
  List.length_modify ..

/-- What a request adds to a channel. -/
def addition (peripheral : MacPeripheral) (request : WriteRequest) (channel : ChannelId) :
    List Inbound :=
  match peripheral.deliverable request with
  | none => []
  | some bytes =>
      if peripheral.perCentralTx.lookup request.centralId = some channel then
        [⟨peripheral.requests, bytes⟩]
      else []

/-- What is added carries the number of the request. -/
theorem request_of_mem_addition {peripheral : MacPeripheral} {request : WriteRequest}
    {channel : ChannelId} {inbound : Inbound}
    (added : inbound ∈ peripheral.addition request channel) :
    inbound.request = peripheral.requests := by
  rw [addition] at added
  split at added
  · cases added
  · split_ifs at added
    · rw [List.mem_singleton.mp added]
    · cases added

/-- A request changes neither the control channel nor the table, and adds its bytes to the
channel of its central. -/
theorem receiveWrite_spec (peripheral : MacPeripheral) (request : WriteRequest) :
    (peripheral.receiveWrite request).ctrlEvents = peripheral.ctrlEvents ∧
      (peripheral.receiveWrite request).perCentralTx = peripheral.perCentralTx ∧
      (peripheral.receiveWrite request).requests = peripheral.requests + 1 ∧
      (peripheral.receiveWrite request).channels.length = peripheral.channels.length ∧
      ∀ channel, (peripheral.receiveWrite request).channels[channel]? =
        peripheral.channels[channel]?.map (· ++ peripheral.addition request channel) := by
  have hsame : deliverable { peripheral with requests := peripheral.requests + 1 } request =
      peripheral.deliverable request := rfl
  cases hbytes : peripheral.deliverable request with
  | none => simp [receiveWrite, addition, hsame, hbytes]
  | some bytes =>
      cases hlookup : peripheral.perCentralTx.lookup request.centralId with
      | none => simp [receiveWrite, addition, hsame, hbytes, hlookup]
      | some target =>
          simp only [receiveWrite, addition, hsame, hbytes, hlookup, length_send, Option.some.injEq]
          refine ⟨rfl, rfl, rfl, trivial, ?_⟩
          intro channel
          rw [getElem?_send]
          split_ifs <;> simp

/-- A call of `waitForCentral` takes the first subscription on the control channel, and
waits on if there is none. -/
theorem waitForCentral_cases (peripheral : MacPeripheral) :
    (peripheral.ctrlEvents.filterMap PeripheralEvent.subscriber = [] ∧
        peripheral.waitForCentral = (none, { peripheral with ctrlEvents := [] })) ∨
      ∃ centralId rest,
        peripheral.ctrlEvents.filterMap PeripheralEvent.subscriber =
            centralId :: rest.filterMap PeripheralEvent.subscriber ∧
          peripheral.waitForCentral = (some (centralId, peripheral.channels.length),
            { peripheral with
              ctrlEvents := rest
              perCentralTx :=
                peripheral.perCentralTx.insert centralId peripheral.channels.length
              channels := peripheral.channels ++ [[]] }) := by
  rw [waitForCentral]
  induction peripheral.ctrlEvents with
  | nil => exact .inl ⟨rfl, rfl⟩
  | cons event rest ih =>
      cases event with
      | centralSubscribed centralId => exact .inr ⟨centralId, rest, rfl, rfl⟩
      | _ => exact ih

end MacPeripheral

/-! ## Subscriptions and their connections -/

/-- A peripheral with what has happened to it. Subscriptions are numbered in the order of
their callbacks. The control channel keeps that order, so that the connection for a
subscription reads the channel of its number. -/
structure Watch where
  peripheral : MacPeripheral
  /-- The central of each subscription. -/
  subscriptions : List String
  /-- The subscription that a central has not ended. -/
  live : String → Option Nat
  /-- The bytes written under each subscription, oldest first. -/
  writes : List (Nat × Inbound)

namespace Watch

/-- A callback of the operating system, or a call of `waitForCentral`. -/
inductive Event
  | didUpdateState | didAddService | didStartAdvertising
  | didSubscribe (centralId charUuid : String)
  | didUnsubscribe (centralId charUuid : String)
  | didReceiveWriteRequests (requests : List WriteRequest)
  | waitForCentral
  deriving DecidableEq, Repr

def start (txCharUuid rxCharUuid : String) : Watch :=
  ⟨.start txCharUuid rxCharUuid, [], fun _ => none, []⟩

/-- What is written under a subscription at a request: its bytes count under the
subscription that their central has open. -/
def noted (watch : Watch) (request : WriteRequest) : List (Nat × Inbound) :=
  match watch.peripheral.deliverable request, watch.live request.centralId with
  | some bytes, some number => [(number, ⟨watch.peripheral.requests, bytes⟩)]
  | _, _ => []

def receiveWrite (watch : Watch) (request : WriteRequest) : Watch :=
  { watch with
    peripheral := watch.peripheral.receiveWrite request
    writes := watch.writes ++ watch.noted request }

def after (watch : Watch) : Event → Watch
  | .didUpdateState => { watch with peripheral := watch.peripheral.notice .stateChanged }
  | .didAddService => { watch with peripheral := watch.peripheral.notice .serviceAdded }
  | .didStartAdvertising =>
      { watch with peripheral := watch.peripheral.notice .advertisingStarted }
  | .didSubscribe centralId charUuid =>
      if uuidMatches charUuid watch.peripheral.rxCharUuid then
        { watch with
          peripheral := watch.peripheral.didSubscribe centralId charUuid
          subscriptions := watch.subscriptions ++ [centralId]
          live := Function.update watch.live centralId (some watch.subscriptions.length) }
      else { watch with peripheral := watch.peripheral.didSubscribe centralId charUuid }
  | .didUnsubscribe centralId charUuid =>
      if uuidMatches charUuid watch.peripheral.rxCharUuid then
        { watch with
          peripheral := watch.peripheral.didUnsubscribe centralId charUuid
          live := Function.update watch.live centralId none }
      else { watch with peripheral := watch.peripheral.didUnsubscribe centralId charUuid }
  | .didReceiveWriteRequests requests => requests.foldl receiveWrite watch
  | .waitForCentral => { watch with peripheral := watch.peripheral.waitForCentral.2 }

/-- What was written under a subscription. -/
def writtenUnder (watch : Watch) (number : Nat) : List Inbound :=
  (watch.writes.filter fun write => write.1 = number).map Prod.snd

/-- Every connection has received what was written under its subscription, each write
once and in order. -/
def Delivered (watch : Watch) : Prop :=
  ∀ number channel, watch.peripheral.channels[number]? = some channel →
    channel.filter (fun inbound => (number, inbound) ∈ watch.writes) = watch.writtenUnder number

/-- If the call of `waitForCentral` takes a subscription, nothing was written under it
yet. -/
def TakesUnwritten (watch : Watch) : Event → Prop
  | .waitForCentral =>
      watch.peripheral.channels.length < watch.subscriptions.length →
        watch.writtenUnder watch.peripheral.channels.length = []
  | _ => True

/-! ## The table of senders -/

/-- Numbers and the table agree: the control channel holds the subscriptions without a
connection, a central's open subscription is its latest, and its sender is that of
its connection if there is one. -/
structure Tracked (watch : Watch) : Prop where
  queued : watch.peripheral.ctrlEvents.filterMap PeripheralEvent.subscriber =
    watch.subscriptions.drop watch.peripheral.channels.length
  inOrder : watch.peripheral.channels.length ≤ watch.subscriptions.length
  latest : ∀ {centralId number}, watch.live centralId = some number →
    watch.subscriptions[number]? = some centralId ∧
      ∀ other, watch.subscriptions[other]? = some centralId → other ≤ number
  routed : ∀ {centralId number}, watch.live centralId = some number →
    number < watch.peripheral.channels.length →
      watch.peripheral.perCentralTx.lookup centralId = some number
  made : ∀ {centralId channel}, watch.peripheral.perCentralTx.lookup centralId = some channel →
    channel < watch.peripheral.channels.length
  numbered : ∀ write ∈ watch.writes, write.2.request < watch.peripheral.requests
  fresh : ∀ channel ∈ watch.peripheral.channels, ∀ inbound ∈ channel,
    inbound.request < watch.peripheral.requests

theorem tracked_start (txCharUuid rxCharUuid : String) :
    (start txCharUuid rxCharUuid).Tracked where
  queued := rfl
  inOrder := le_refl _
  latest := by simp [start]
  routed := by simp [start]
  made := by simp [start, MacPeripheral.start]
  numbered := by simp [start]
  fresh := by simp [start, MacPeripheral.start]

/-! ## One request -/

section Request

variable {watch : Watch}

/-- What is noted carries the number of the request. -/
theorem request_of_mem_noted {request : WriteRequest} {write : Nat × Inbound}
    (hnoted : write ∈ watch.noted request) : write.2.request = watch.peripheral.requests := by
  rw [noted] at hnoted
  split at hnoted
  · rw [List.mem_singleton.mp hnoted]
  · cases hnoted

theorem Tracked.receiveWrite (tracked : watch.Tracked) (request : WriteRequest) :
    (watch.receiveWrite request).Tracked := by
  obtain ⟨hevents, htable, hrequests, hlength, hchannels⟩ :=
    watch.peripheral.receiveWrite_spec request
  constructor
  · change (watch.peripheral.receiveWrite request).ctrlEvents.filterMap _ =
      watch.subscriptions.drop (watch.peripheral.receiveWrite request).channels.length
    rw [hevents, hlength]
    exact tracked.queued
  · change (watch.peripheral.receiveWrite request).channels.length ≤ _
    rw [hlength]
    exact tracked.inOrder
  · exact tracked.latest
  · intro centralId number hlive hmade
    change (watch.peripheral.receiveWrite request).perCentralTx.lookup _ = _
    change number < (watch.peripheral.receiveWrite request).channels.length at hmade
    rw [hlength] at hmade
    rw [htable]
    exact tracked.routed hlive hmade
  · intro centralId channel hlookup
    change (watch.peripheral.receiveWrite request).perCentralTx.lookup _ = _ at hlookup
    change channel < (watch.peripheral.receiveWrite request).channels.length
    rw [htable] at hlookup
    rw [hlength]
    exact tracked.made hlookup
  · intro write hwrite
    change _ < (watch.peripheral.receiveWrite request).requests
    rw [hrequests]
    rcases List.mem_append.mp hwrite with hold | hnew
    · exact Nat.lt_succ_of_lt (tracked.numbered write hold)
    · rw [request_of_mem_noted hnew]
      exact Nat.lt_succ_self _
  · intro channel hchannel inbound hinbound
    change _ < (watch.peripheral.receiveWrite request).requests
    rw [hrequests]
    obtain ⟨number, hnumber⟩ := List.mem_iff_getElem?.mp hchannel
    rw [show (watch.receiveWrite request).peripheral = watch.peripheral.receiveWrite request from
      rfl, hchannels] at hnumber
    obtain ⟨old, hold, rfl⟩ := Option.map_eq_some_iff.mp hnumber
    rcases List.mem_append.mp hinbound with hbefore | hnew
    · exact Nat.lt_succ_of_lt (tracked.fresh old (List.mem_of_getElem? hold) inbound hbefore)
    · rw [MacPeripheral.request_of_mem_addition hnew]
      exact Nat.lt_succ_self _

/-- What a request adds to a channel is noted under its number, if the channel's own
subscription is the one that the central has open; and nothing else is. -/
theorem addition_filter_eq (tracked : watch.Tracked) (request : WriteRequest) {number : Nat}
    (made : number < watch.peripheral.channels.length) :
    (watch.peripheral.addition request number).filter
        (fun inbound => (number, inbound) ∈ watch.writes ++ watch.noted request) =
      ((watch.noted request).filter fun write => write.1 = number).map Prod.snd := by
  have hunwritten : ∀ bytes, (number, ⟨watch.peripheral.requests, bytes⟩) ∉ watch.writes :=
    fun bytes hmem => absurd (tracked.numbered _ hmem) (Nat.lt_irrefl _)
  cases hbytes : watch.peripheral.deliverable request with
  | none => simp [MacPeripheral.addition, noted, hbytes]
  | some bytes =>
      cases hlive : watch.live request.centralId with
      | none =>
          simp only [MacPeripheral.addition, noted, hbytes, hlive]
          split_ifs <;> simp [hunwritten]
      | some other =>
          simp only [MacPeripheral.addition, noted, hbytes, hlive]
          by_cases hsame : other = number
          · subst hsame
            rw [if_pos (tracked.routed hlive made)]
            simp
          · have hdifferent : ¬ number = other := fun h => hsame h.symm
            split_ifs <;> simp [hunwritten, hsame, hdifferent]

/-- A request is delivered to the connection of the subscription it is made under, if
there is one. -/
theorem Delivered.receiveWrite (delivered : watch.Delivered) (tracked : watch.Tracked)
    (request : WriteRequest) : (watch.receiveWrite request).Delivered := by
  intro number channel hchannel
  rw [show (watch.receiveWrite request).peripheral = watch.peripheral.receiveWrite request from rfl,
    (watch.peripheral.receiveWrite_spec request).2.2.2.2] at hchannel
  obtain ⟨old, hold, rfl⟩ := Option.map_eq_some_iff.mp hchannel
  have hmade : number < watch.peripheral.channels.length :=
    (List.getElem?_eq_some_iff.mp hold).1
  have hbefore : old.filter
      (fun inbound => (number, inbound) ∈ watch.writes ++ watch.noted request) =
        watch.writtenUnder number := by
    rw [← delivered number old hold]
    apply List.filter_congr
    intro inbound hinbound
    have hearlier := tracked.fresh old (List.mem_of_getElem? hold) inbound hinbound
    have hnot : (number, inbound) ∉ watch.noted request := by
      intro hmem
      rw [request_of_mem_noted hmem] at hearlier
      exact absurd hearlier (Nat.lt_irrefl _)
    simp [hnot]
  change (old ++ _).filter (fun inbound => (number, inbound) ∈ watch.writes ++ _) =
    ((watch.writes ++ _).filter _).map Prod.snd
  rw [List.filter_append, hbefore, addition_filter_eq tracked request hmade, List.filter_append,
    List.map_append]
  rfl

end Request

/-! ## One event -/

/-- The tracking of a state that differs in its control channel only, by an event that
is no subscription. -/
theorem Tracked.notice {watch : Watch} (tracked : watch.Tracked) {event : PeripheralEvent}
    (other : event.subscriber = none) :
    Tracked { watch with peripheral := watch.peripheral.notice event } where
  queued := by
    change (watch.peripheral.ctrlEvents ++ [event]).filterMap _ = _
    rw [List.filterMap_append, tracked.queued]
    simp [other, MacPeripheral.notice]
  inOrder := tracked.inOrder
  latest := tracked.latest
  routed := tracked.routed
  made := tracked.made
  numbered := tracked.numbered
  fresh := tracked.fresh

theorem Tracked.didSubscribe {watch : Watch} (tracked : watch.Tracked)
    (centralId charUuid : String) : (watch.after (.didSubscribe centralId charUuid)).Tracked := by
  by_cases hrx : uuidMatches charUuid watch.peripheral.rxCharUuid = true
  · simp only [after, MacPeripheral.didSubscribe, if_pos hrx]
    constructor
    · rw [List.filterMap_append, tracked.queued, List.drop_append_of_le_length tracked.inOrder]
      rfl
    · rw [List.length_append]
      exact Nat.le_add_right_of_le tracked.inOrder
    · intro other number hlive
      dsimp only at hlive ⊢
      by_cases hsame : other = centralId
      · subst hsame
        rw [Function.update_self, Option.some.injEq] at hlive
        subst hlive
        refine ⟨List.getElem?_concat_length, ?_⟩
        intro place hplace
        have hbound := (List.getElem?_eq_some_iff.mp hplace).1
        rw [List.length_append, List.length_singleton] at hbound
        exact Nat.lt_succ_iff.mp hbound
      · rw [Function.update_of_ne hsame] at hlive
        obtain ⟨hnumber, hlatest⟩ := tracked.latest hlive
        refine ⟨Entries.getElem?_concat_of_some hnumber _, ?_⟩
        intro place hplace
        rcases Entries.getElem?_concat_cases hplace with hold | ⟨_, hnew⟩
        · exact hlatest place hold
        · exact absurd hnew hsame
    · intro other number hlive hmade
      dsimp only at hlive hmade ⊢
      by_cases hsame : other = centralId
      · subst hsame
        rw [Function.update_self, Option.some.injEq] at hlive
        subst hlive
        exact absurd hmade (Nat.not_lt.mpr tracked.inOrder)
      · rw [Function.update_of_ne hsame] at hlive
        exact tracked.routed hlive hmade
    · exact tracked.made
    · exact tracked.numbered
    · exact tracked.fresh
  · simpa only [after, MacPeripheral.didSubscribe, if_neg hrx] using tracked

theorem Tracked.didUnsubscribe {watch : Watch} (tracked : watch.Tracked)
    (centralId charUuid : String) :
    (watch.after (.didUnsubscribe centralId charUuid)).Tracked := by
  by_cases hrx : uuidMatches charUuid watch.peripheral.rxCharUuid = true
  · simp only [after, MacPeripheral.didUnsubscribe, if_pos hrx]
    have hother : ∀ {other number}, Function.update watch.live centralId none other = some number →
        other ≠ centralId ∧ watch.live other = some number := by
      intro other number hlive
      by_cases hsame : other = centralId
      · subst hsame
        simp at hlive
      · rw [Function.update_of_ne hsame] at hlive
        exact ⟨hsame, hlive⟩
    constructor
    · exact tracked.queued
    · exact tracked.inOrder
    · exact fun hlive => tracked.latest (hother hlive).2
    · intro other number hlive hmade
      rw [AList.lookup_erase_ne (hother hlive).1]
      exact tracked.routed (hother hlive).2 hmade
    · intro other channel hlookup
      by_cases hsame : other = centralId
      · rw [hsame, AList.lookup_erase] at hlookup
        cases hlookup
      · rw [AList.lookup_erase_ne hsame] at hlookup
        exact tracked.made hlookup
    · exact tracked.numbered
    · exact tracked.fresh
  · simpa only [after, MacPeripheral.didUnsubscribe, if_neg hrx] using tracked

/-- A call of `waitForCentral` that takes a subscription takes the first one without a
connection. -/
theorem Tracked.first {watch : Watch} (tracked : watch.Tracked) {centralId : String}
    {rest : List PeripheralEvent}
    (waiting : watch.peripheral.ctrlEvents.filterMap PeripheralEvent.subscriber =
      centralId :: rest.filterMap PeripheralEvent.subscriber) :
    watch.subscriptions[watch.peripheral.channels.length]? = some centralId ∧
      rest.filterMap PeripheralEvent.subscriber =
        watch.subscriptions.drop (watch.peripheral.channels.length + 1) := by
  have hdrop := tracked.queued.symm.trans waiting
  have hless : watch.peripheral.channels.length < watch.subscriptions.length := by
    by_contra hall
    rw [List.drop_eq_nil_of_le (Nat.not_lt.mp hall)] at hdrop
    cases hdrop
  rw [List.drop_eq_getElem_cons hless] at hdrop
  obtain ⟨hcentral, hrest⟩ := List.cons_eq_cons.mp hdrop
  exact ⟨by rw [List.getElem?_eq_getElem hless, hcentral], hrest.symm⟩

theorem Tracked.waitForCentral {watch : Watch} (tracked : watch.Tracked) :
    (watch.after .waitForCentral).Tracked := by
  rcases watch.peripheral.waitForCentral_cases with ⟨hnone, hafter⟩ |
    ⟨centralId, rest, hsome, hafter⟩
  · simp only [after, hafter]
    refine ⟨?_, tracked.inOrder, tracked.latest, tracked.routed, tracked.made, tracked.numbered,
      tracked.fresh⟩
    exact hnone.symm.trans tracked.queued
  · obtain ⟨hfirst, hrest⟩ := tracked.first hsome
    simp only [after, hafter]
    refine ⟨?_, ?_, tracked.latest, ?_, ?_, tracked.numbered, ?_⟩
    · rw [List.length_append]
      exact hrest
    · rw [List.length_append]
      exact (List.getElem?_eq_some_iff.mp hfirst).1
    · intro other number hlive hmade
      rw [List.length_append, List.length_singleton] at hmade
      obtain ⟨hnumber, hlatest⟩ := tracked.latest hlive
      by_cases hsame : other = centralId
      · subst hsame
        rw [AList.lookup_insert, Option.some.injEq]
        exact Nat.le_antisymm (hlatest _ hfirst) (Nat.lt_succ_iff.mp hmade)
      · rw [AList.lookup_insert_ne hsame]
        apply tracked.routed hlive
        apply lt_of_le_of_ne (Nat.lt_succ_iff.mp hmade)
        intro hlast
        rw [hlast, hfirst] at hnumber
        exact hsame (Option.some.inj hnumber).symm
    · intro other channel hlookup
      rw [List.length_append, List.length_singleton]
      by_cases hsame : other = centralId
      · subst hsame
        rw [AList.lookup_insert, Option.some.injEq] at hlookup
        rw [← hlookup]
        exact Nat.lt_succ_self _
      · rw [AList.lookup_insert_ne hsame] at hlookup
        exact Nat.lt_succ_of_lt (tracked.made hlookup)
    · intro channel hchannel
      rcases List.mem_append.mp hchannel with hold | hnew
      · exact tracked.fresh channel hold
      · rw [List.mem_singleton.mp hnew]
        simp

/-- Taking a subscription keeps what was written delivered exactly if nothing was written
under it: its connection starts without a byte. -/
theorem delivered_waitForCentral_iff {watch : Watch} (tracked : watch.Tracked)
    (delivered : watch.Delivered) :
    (watch.after .waitForCentral).Delivered ↔ watch.TakesUnwritten .waitForCentral := by
  rcases watch.peripheral.waitForCentral_cases with ⟨hnone, hafter⟩ |
    ⟨centralId, rest, hsome, hafter⟩
  · -- no subscription is on the control channel
    simp only [after, hafter]
    have hall : watch.subscriptions.length ≤ watch.peripheral.channels.length :=
      List.drop_eq_nil_iff.mp (tracked.queued.symm.trans hnone)
    exact iff_of_true delivered fun hless => absurd hless (Nat.not_lt.mpr hall)
  · have hless := (List.getElem?_eq_some_iff.mp (tracked.first hsome).1).1
    simp only [after, hafter, TakesUnwritten, hless, forall_const]
    constructor
    · intro hdelivered
      exact (hdelivered watch.peripheral.channels.length [] List.getElem?_concat_length).symm
    · intro hempty number channel hchannel
      rcases Entries.getElem?_concat_cases hchannel with hold | ⟨hlast, hnew⟩
      · exact delivered number channel hold
      · rw [hlast, hnew]
        exact hempty.symm

/-- An event keeps track, and keeps what was written delivered exactly if it takes no
subscription that was written under. -/
theorem after_keeps {watch : Watch} (tracked : watch.Tracked) (delivered : watch.Delivered)
    (event : Event) :
    (watch.after event).Tracked ∧
      ((watch.after event).Delivered ↔ watch.TakesUnwritten event) := by
  cases event with
  | didUpdateState => exact ⟨tracked.notice rfl, iff_of_true delivered trivial⟩
  | didAddService => exact ⟨tracked.notice rfl, iff_of_true delivered trivial⟩
  | didStartAdvertising => exact ⟨tracked.notice rfl, iff_of_true delivered trivial⟩
  | didSubscribe centralId charUuid =>
      refine ⟨tracked.didSubscribe centralId charUuid, iff_of_true ?_ trivial⟩
      by_cases hrx : uuidMatches charUuid watch.peripheral.rxCharUuid = true
      · simp only [after, MacPeripheral.didSubscribe, if_pos hrx]
        exact delivered
      · simp only [after, MacPeripheral.didSubscribe, if_neg hrx]
        exact delivered
  | didUnsubscribe centralId charUuid =>
      refine ⟨tracked.didUnsubscribe centralId charUuid, iff_of_true ?_ trivial⟩
      by_cases hrx : uuidMatches charUuid watch.peripheral.rxCharUuid = true
      · simp only [after, MacPeripheral.didUnsubscribe, if_pos hrx]
        exact delivered
      · simp only [after, MacPeripheral.didUnsubscribe, if_neg hrx]
        exact delivered
  | didReceiveWriteRequests requests =>
      have hboth : (requests.foldl receiveWrite watch).Tracked ∧
          (requests.foldl receiveWrite watch).Delivered := by
        induction requests generalizing watch with
        | nil => exact ⟨tracked, delivered⟩
        | cons request rest ih =>
            exact ih (tracked.receiveWrite request) (delivered.receiveWrite tracked request)
      exact ⟨hboth.1, iff_of_true hboth.2 trivial⟩
  | waitForCentral =>
      exact ⟨tracked.waitForCentral, delivered_waitForCentral_iff tracked delivered⟩

/-! ## Whole runs -/

theorem delivered_start (txCharUuid rxCharUuid : String) :
    (start txCharUuid rxCharUuid).Delivered := by
  intro number channel hchannel
  cases hchannel

/-- Whatever the order of callbacks and calls, all connections receive what was written
under their subscriptions exactly if no call of `waitForCentral` takes a subscription that
was written under before. -/
theorem delivered_run_iff_takesUnwritten (txCharUuid rxCharUuid : String) (events : List Event) :
    (∀ earlier later, events = earlier ++ later →
        (earlier.foldl after (start txCharUuid rxCharUuid)).Delivered) ↔
      ∀ earlier event later, events = earlier ++ event :: later →
        (earlier.foldl after (start txCharUuid rxCharUuid)).TakesUnwritten event := by
  have sound : ∀ watch : Watch, watch.Tracked ∧ watch.Delivered → watch.Delivered :=
    fun _ kept => kept.2
  have keeps : ∀ (watch : Watch) (event : Event), watch.Tracked ∧ watch.Delivered →
      watch.TakesUnwritten event → (watch.after event).Tracked ∧ (watch.after event).Delivered := by
    intro watch event kept unwritten
    obtain ⟨htracked, hdelivered⟩ := after_keeps kept.1 kept.2 event
    exact ⟨htracked, hdelivered.mpr unwritten⟩
  have needed : ∀ (watch : Watch) (event : Event), watch.Tracked ∧ watch.Delivered →
      (watch.after event).Delivered → watch.TakesUnwritten event :=
    fun _ event kept => (after_keeps kept.1 kept.2 event).2.mp
  exact Transition.forall_foldl_iff_of_invariant sound keeps needed
    ⟨tracked_start txCharUuid rxCharUuid, delivered_start txCharUuid rxCharUuid⟩ events

/-- A central that writes before `waitForCentral` takes its subscription: the connection
made for it has nothing to read. -/
theorem early_write (txCharUuid rxCharUuid centralId : String) {bytes : Bytes}
    (nonempty : bytes ≠ []) :
    let watch := [Event.didSubscribe centralId rxCharUuid,
      .didReceiveWriteRequests [⟨txCharUuid, centralId, some bytes⟩],
      .waitForCentral].foldl after (start txCharUuid rxCharUuid)
    watch.writtenUnder 0 = [⟨0, bytes⟩] ∧ watch.peripheral.channels = [[]] := by
  have hsubscribed : (start txCharUuid rxCharUuid).after (.didSubscribe centralId rxCharUuid) =
      ⟨⟨txCharUuid, rxCharUuid, [.centralSubscribed centralId], ∅, [centralId], [], 0⟩,
        [centralId], Function.update (fun _ => none) centralId (some 0), []⟩ := by
    simp [after, start, MacPeripheral.didSubscribe, MacPeripheral.start]
  have hwritten : (Watch.mk
      ⟨txCharUuid, rxCharUuid, [.centralSubscribed centralId], ∅, [centralId], [], 0⟩
        [centralId] (Function.update (fun _ => none) centralId (some 0)) []).receiveWrite
          ⟨txCharUuid, centralId, some bytes⟩ =
      ⟨⟨txCharUuid, rxCharUuid, [.centralSubscribed centralId], ∅, [centralId], [], 1⟩,
        [centralId], Function.update (fun _ => none) centralId (some 0), [(0, ⟨0, bytes⟩)]⟩ := by
    have hbytes : ∀ requests, MacPeripheral.deliverable
        ⟨txCharUuid, rxCharUuid, [.centralSubscribed centralId], ∅, [centralId], [], requests⟩
          ⟨txCharUuid, centralId, some bytes⟩ = some bytes :=
      fun requests => MacPeripheral.deliverable_tx _ centralId nonempty
    simp [receiveWrite, MacPeripheral.receiveWrite, noted, hbytes]
  simp only [List.foldl_cons, List.foldl_nil, hsubscribed]
  simp only [after, List.foldl_cons, List.foldl_nil, hwritten]
  exact ⟨rfl, rfl⟩

/-- So what was written under a subscription is not delivered to its connection. -/
theorem write_before_waitForCentral_lost :
    ¬ ([Event.didSubscribe "central" RX_CHAR_UUID,
      .didReceiveWriteRequests [⟨TX_CHAR_UUID, "central", some [1]⟩],
      .waitForCentral].foldl after (start TX_CHAR_UUID RX_CHAR_UUID)).Delivered := by
  obtain ⟨hwritten, hchannels⟩ :=
    early_write TX_CHAR_UUID RX_CHAR_UUID "central" (List.cons_ne_nil 1 [])
  intro delivered
  have hsame := delivered 0 [] (by rw [hchannels]; rfl)
  rw [hwritten] at hsame
  cases hsame

end Watch

end Mlink.Transport
