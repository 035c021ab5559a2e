/-
# Which call a response completes

The ids of the calls in progress are to be distinct, a response is to complete the
call whose request it answers, and a timeout is to remove its own waiter. Ids wrap,
and nothing looks at who uses an id when it is handed out or when a response comes
in, so this holds of a run exactly as long as no id is handed out that a call in
progress has, and no response comes in under the id of a call that waits for another.
-/

import Mlink.Api.Rpc

namespace Mlink.Api.RpcWorld

open Mlink.Core Mlink.Protocol

variable {primitives : Primitives} {encode : RpcRequest → Except String Bytes}
  {world : RpcWorld} {number : Nat} {call : Call}

/-- The ids of the calls in progress are distinct, a response that has taken a waiter is
for that call, and so is what a call finds in its channel; a timeout has removed no
waiter but its own. -/
structure Correlates (world : RpcWorld) : Prop where
  distinct : ∀ (first second : Nat) (one other : Call), world.calls[first]? = some one →
    world.calls[second]? = some other → one.stage ≠ .returned → other.stage ≠ .returned →
    one.id = other.id → first = second
  taken : ∀ pair ∈ world.inHand, pair.2.answers = some pair.1
  mail : ∀ (number : Nat) (call : Call) answer, world.calls[number]? = some call →
    call.mail = some answer → answer.answers = some number
  withdrawn : ∀ pair ∈ world.withdrawn, pair.2 = pair.1

/-- The call has entered the table and has not returned. -/
def Entered (call : Call) : Prop := call.stage ≠ .named ∧ call.stage ≠ .returned

/-- Under the id of a call that has entered the table there is no other call. -/
def KeepsPlaces (world : RpcWorld) : Prop :=
  ∀ (number waiter : Nat) (call : Call), world.calls[number]? = some call → Entered call →
    world.pending.waiters.lookup call.id = some waiter → waiter = number

/-- What has to hold before a step for the step not to mix up two calls: an id that is
handed out belongs to no call in progress, and a response that comes in under the id
of a waiter answers that call. -/
def Unambiguous (world : RpcWorld) : RpcEvent → Prop
  | .begin .. => ∀ (number : Nat) (call : Call), world.calls[number]? = some call →
      call.stage ≠ .returned → call.id ≠ world.pending.next
  | .arrive answer => ∀ waiter,
      world.pending.waiters.lookup answer.response.requestId = some waiter →
      answer.answers = some waiter
  | _ => True

/-! ## One step -/

/-- A call that moves on, with nothing in its channel but an answer to it. -/
theorem Correlates.moveOn (correlates : world.Correlates) (node : Node) (after : Call)
    (hcall : world.calls[number]? = some call) (hid : after.id = call.id)
    (hmail : ∀ answer, after.mail = some answer → answer.answers = some number)
    (hstage : after.stage ≠ .returned → call.stage ≠ .returned) (pending : PendingRequests) :
    Correlates { world with
      node := node, pending := pending, calls := world.calls.set number after } where
  distinct := by
    intro first second one other hone hother honeStage hotherStage hsame
    rcases Entries.getElem?_set_cases hone with ⟨rfl, rfl⟩ | ⟨_, honeOld⟩ <;>
      rcases Entries.getElem?_set_cases hother with ⟨rfl, rfl⟩ | ⟨_, hotherOld⟩
    · rfl
    · exact correlates.distinct _ _ _ _ hcall hotherOld (hstage honeStage) hotherStage
        (hid ▸ hsame)
    · exact correlates.distinct _ _ _ _ honeOld hcall honeStage (hstage hotherStage)
        (hid ▸ hsame)
    · exact correlates.distinct _ _ _ _ honeOld hotherOld honeStage hotherStage hsame
  taken := correlates.taken
  mail := by
    intro place found answer hfound hanswer
    rcases Entries.getElem?_set_cases hfound with ⟨rfl, rfl⟩ | ⟨_, hfound⟩
    · exact hmail answer hanswer
    · exact correlates.mail _ _ _ hfound hanswer
  withdrawn := correlates.withdrawn

/-- The places are kept when a call that had one, or goes, moves on. -/
theorem KeepsPlaces.moveOn (keeps : world.KeepsPlaces) (node : Node) (after : Call)
    (hcall : world.calls[number]? = some call) (hid : after.id = call.id)
    (hentered : Entered after → Entered call) :
    KeepsPlaces { world with node := node, calls := world.calls.set number after } := by
  intro place waiter found hfound hplaced hwaiter
  rcases Entries.getElem?_set_cases hfound with ⟨rfl, rfl⟩ | ⟨_, hfound⟩
  · exact keeps _ _ _ hcall (hentered hplaced) (hid ▸ hwaiter)
  · exact keeps _ _ _ hfound hplaced hwaiter

/-- The invariant of a run in which ids are not shared. -/
structure Orderly (world : RpcWorld) : Prop where
  correlates : world.Correlates
  keeps : world.KeepsPlaces

theorem Orderly.moveOn (orderly : world.Orderly) (node : Node) (after : Call)
    (hcall : world.calls[number]? = some call) (hid : after.id = call.id)
    (hmail : ∀ answer, after.mail = some answer → answer.answers = some number)
    (hentered : Entered call) :
    Orderly { world with node := node, calls := world.calls.set number after } where
  correlates :=
    orderly.correlates.moveOn node after hcall hid hmail (fun _ => hentered.2) world.pending
  keeps := orderly.keeps.moveOn node after hcall hid fun _ => hentered

/-- What a call finds in its channel answers it. -/
theorem Orderly.mail (orderly : world.Orderly) (hcall : world.calls[number]? = some call) :
    ∀ answer, call.mail = some answer → answer.answers = some number :=
  fun answer => orderly.correlates.mail _ _ answer hcall

/-- A call takes an id that no call in progress has. -/
theorem Orderly.begin (orderly : world.Orderly) (peerId method : String) (data : Bytes)
    (fresh : ∀ (number : Nat) (call : Call), world.calls[number]? = some call →
      call.stage ≠ .returned → call.id ≠ world.pending.next) :
    (world.begin peerId method data).Orderly where
  correlates :=
    { distinct := by
        intro first second one other hone hother honeStage hotherStage hsame
        rcases Entries.getElem?_concat_cases hone with hone | ⟨rfl, rfl⟩ <;>
          rcases Entries.getElem?_concat_cases hother with hother | ⟨rfl, rfl⟩
        · exact orderly.correlates.distinct _ _ _ _ hone hother honeStage hotherStage hsame
        · exact absurd hsame (fresh _ _ hone honeStage)
        · exact absurd hsame.symm (fresh _ _ hother hotherStage)
        · rfl
      taken := orderly.correlates.taken
      mail := by
        intro place found answer hfound hanswer
        rcases Entries.getElem?_concat_cases hfound with hfound | ⟨rfl, rfl⟩
        · exact orderly.correlates.mail _ _ _ hfound hanswer
        · cases hanswer
      withdrawn := orderly.correlates.withdrawn }
  keeps := by
    intro place waiter found hfound hentered hwaiter
    rcases Entries.getElem?_concat_cases hfound with hfound | ⟨rfl, rfl⟩
    · exact orderly.keeps _ _ _ hfound hentered hwaiter
    · exact absurd rfl hentered.1

/-- A call takes its place; no other call in progress has its id. -/
theorem Orderly.register (orderly : world.Orderly) (number : Nat) :
    (world.register number).Orderly := by
  apply inStage_induct orderly
  intro call hcall hstage
  have hmail := orderly.mail hcall
  have hlive : call.stage ≠ .returned := by simp [hstage]
  refine ⟨orderly.correlates.moveOn _ { call with stage := .registered } hcall rfl
    hmail (fun _ => hlive) _, ?_⟩
  intro place waiter found hfound hentered hwaiter
  by_cases hid : found.id = call.id
  · rw [PendingRequests.register, hid, AList.lookup_insert] at hwaiter
    cases hwaiter
    rcases Entries.getElem?_set_cases hfound with ⟨rfl, rfl⟩ | ⟨_, hold⟩
    · rfl
    · exact orderly.correlates.distinct _ _ _ _ hcall hold hlive hentered.2 hid.symm
  · rw [PendingRequests.register, AList.lookup_insert_ne hid] at hwaiter
    rcases Entries.getElem?_set_cases hfound with ⟨rfl, rfl⟩ | ⟨_, hold⟩
    · exact absurd rfl hid
    · exact orderly.keeps _ _ _ hold hentered hwaiter

/-- A request that is sent, or is not, changes no place. -/
theorem Orderly.send (orderly : world.Orderly) (number : Nat) (io : NodeIo) :
    (world.send primitives encode number io).Orderly := by
  apply inStage_induct orderly
  intro call hcall hstage
  have hmail := orderly.mail hcall
  apply orderly.moveOn _ _ hcall (call.id_sent _)
  · rw [call.mail_sent]
    exact hmail
  · simp [Entered, hstage]

theorem Orderly.wake (orderly : world.Orderly) (number : Nat) : (world.wake number).Orderly := by
  apply wake_induct orderly
  intro call result hcall hstage
  have hmail := orderly.mail hcall
  exact orderly.moveOn world.node (call.return result) hcall rfl hmail (by simp [Entered, hstage])

theorem Orderly.expire (orderly : world.Orderly) (number : Nat) :
    (world.expire number).Orderly := by
  apply expire_induct orderly
  intro call hcall hstage
  have hmail := orderly.mail hcall
  exact orderly.moveOn world.node { call with stage := .expired } hcall rfl hmail
    (by simp [Entered, hstage])

/-- Fewer waiters keep the places. -/
theorem KeepsPlaces.remove (keeps : world.KeepsPlaces) (id : UInt16) :
    KeepsPlaces { world with pending := (world.pending.remove id).2 } := by
  intro place waiter found hfound hentered hwaiter
  apply keeps _ _ _ hfound hentered
  by_cases hid : found.id = id
  · rw [PendingRequests.remove, hid, AList.lookup_erase] at hwaiter
    cases hwaiter
  · rwa [PendingRequests.remove, AList.lookup_erase_ne hid] at hwaiter

/-- A timeout finds its own waiter under its id, or none. -/
theorem Orderly.cancel (orderly : world.Orderly) (number : Nat) :
    (world.cancel number).Orderly := by
  apply inStage_induct orderly
  intro call hcall hstage
  have hmail := orderly.mail hcall
  have hentered : Entered call := by simp [Entered, hstage]
  have hmoved := orderly.moveOn world.node (call.return (.error .timeout)) hcall rfl hmail
    hentered
  refine ⟨⟨hmoved.correlates.distinct, hmoved.correlates.taken, hmoved.correlates.mail, ?_⟩,
    hmoved.keeps.remove call.id⟩
  intro pair hpair
  rcases List.mem_append.mp hpair with hold | hnew
  · exact orderly.correlates.withdrawn pair hold
  · obtain ⟨waiter, hwaiter, rfl⟩ := List.mem_map.mp hnew
    rw [Option.mem_toList] at hwaiter
    exact orderly.keeps _ _ _ hcall hentered hwaiter

/-- A response that answers the waiter under its id takes it. -/
theorem Orderly.arrive (orderly : world.Orderly) (answer : Answer)
    (answers : ∀ waiter, world.pending.waiters.lookup answer.response.requestId = some waiter →
      answer.answers = some waiter) : (world.arrive answer).Orderly := by
  have hkeeps := orderly.keeps.remove answer.response.requestId
  apply arrive_induct orderly
  intro waiter hwaiter
  refine ⟨⟨orderly.correlates.distinct, ?_, orderly.correlates.mail,
    orderly.correlates.withdrawn⟩, hkeeps⟩
  intro pair hpair
  rcases List.mem_append.mp hpair with hold | hnew
  · exact orderly.correlates.taken pair hold
  · cases List.mem_singleton.mp hnew
    exact answers waiter hwaiter

/-- A response is handed to the call whose waiter it took. -/
theorem Orderly.hand (orderly : world.Orderly) (index : Nat) : (world.hand index).Orderly := by
  have hrest : Orderly { world with inHand := world.inHand.eraseIdx index } :=
    ⟨{ orderly.correlates with
        taken := fun pair hmem => orderly.correlates.taken pair (List.mem_of_mem_eraseIdx hmem) },
      orderly.keeps⟩
  apply hand_induct orderly (fun _ _ => hrest)
  intro number answer call hpair hcall hlistens
  apply hrest.moveOn world.node { call with mail := some answer } hcall rfl
  · intro found hfound
    cases hfound
    exact orderly.correlates.taken _ (List.mem_of_getElem? hpair)
  · rcases hlistens with hstage | hstage <;> simp [Entered, hstage]

/-! ## Whole runs -/

variable (primitives encode) in
theorem Orderly.step (orderly : world.Orderly) (event : RpcEvent)
    (guarded : world.Unambiguous event) : (world.step primitives encode event).Orderly := by
  cases event with
  | begin peerId method data => exact orderly.begin peerId method data guarded
  | register number => exact orderly.register number
  | send number io => exact orderly.send number io
  | wake number => exact orderly.wake number
  | expire number => exact orderly.expire number
  | cancel number => exact orderly.cancel number
  | arrive answer => exact orderly.arrive answer guarded
  | hand index => exact orderly.hand index
  | elsewhere node => exact ⟨⟨orderly.correlates.distinct, orderly.correlates.taken,
      orderly.correlates.mail, orderly.correlates.withdrawn⟩, orderly.keeps⟩

/-- An id that a call in progress has cannot be handed out with the ids distinct. -/
theorem Correlates.fresh_of_begin {peerId method : String} {data : Bytes}
    (correlates : (world.begin peerId method data).Correlates)
    (hcall : world.calls[number]? = some call) (hstage : call.stage ≠ .returned) :
    call.id ≠ world.pending.next := by
  intro hid
  have hbound := (List.getElem?_eq_some_iff.mp hcall).1
  have hplace := correlates.distinct number world.calls.length call
    ⟨peerId, method, data, world.pending.next, .named, none, none⟩
    (Entries.getElem?_concat_of_some hcall _) List.getElem?_concat_length hstage
    CallStage.noConfusion hid
  omega

/-- A waiter that a response has taken is the call that it answers. -/
theorem Correlates.answers_of_arrive {answer : Answer} {waiter : Nat}
    (correlates : (world.arrive answer).Correlates)
    (hwaiter : world.pending.waiters.lookup answer.response.requestId = some waiter) :
    answer.answers = some waiter := by
  apply correlates.taken (waiter, answer)
  rw [RpcWorld.arrive]
  simp only [PendingRequests.remove, hwaiter]
  exact List.mem_append_right _ (List.mem_singleton_self _)

/-- A response to a call that still waits for it is never ambiguous; one that comes late
may be. -/
theorem Orderly.unambiguous_of_entered (orderly : world.Orderly) {answer : Answer}
    (hcall : world.calls[number]? = some call) (hentered : Entered call)
    (hid : answer.response.requestId = call.id) (hanswers : answer.answers = some number) :
    world.Unambiguous (.arrive answer) := by
  intro waiter hwaiter
  rw [hanswers, orderly.keeps number waiter call hcall hentered (hid ▸ hwaiter)]

theorem orderly_new (node : Node) : (new node).Orderly where
  correlates :=
    { distinct := fun _ _ _ _ hone => by cases hone
      taken := fun _ hmem => by cases hmem
      mail := fun _ _ _ hcall => by cases hcall
      withdrawn := fun _ hmem => by cases hmem }
  keeps := fun _ _ _ hcall => by cases hcall

variable (primitives encode) in
/-- Throughout a run, whatever its length and the order of its steps, calls and
responses are matched exactly as long as no step is ambiguous. -/
theorem correlates_iff_unambiguous (node : Node) (events : List RpcEvent) :
    (∀ earlier later, events = earlier ++ later →
        (earlier.foldl (step primitives encode) (new node)).Correlates) ↔
      ∀ earlier event later, events = earlier ++ event :: later →
        (earlier.foldl (step primitives encode) (new node)).Unambiguous event := by
  have sound : ∀ world : RpcWorld, world.Orderly → world.Correlates :=
    fun _ orderly => orderly.correlates
  have keeps : ∀ (world : RpcWorld) event, world.Orderly → world.Unambiguous event →
      (world.step primitives encode event).Orderly :=
    fun _ event orderly guarded => orderly.step primitives encode event guarded
  have needed : ∀ (world : RpcWorld) event, world.Orderly →
      (world.step primitives encode event).Correlates → world.Unambiguous event := by
    intro world event _ correlates
    cases event with
    | begin peerId method data =>
        exact fun number call hcall hstage => correlates.fresh_of_begin hcall hstage
    | arrive answer => exact fun waiter hwaiter => correlates.answers_of_arrive hwaiter
    | register number => trivial
    | send number io => trivial
    | wake number => trivial
    | expire number => trivial
    | cancel number => trivial
    | hand index => trivial
    | elsewhere node => trivial
  exact Transition.forall_foldl_iff_of_invariant sound keeps needed (orderly_new node) events

/-! ## A slow call -/

/-- What a step leaves alone that begins no call: the ids, the counter, and how far the
calls have come that do not take the step. -/
structure Continues (world : RpcWorld) (caller : Option Nat) (next : RpcWorld) : Prop where
  counter : next.pending.next = world.pending.next
  ids : next.calls.map Call.id = world.calls.map Call.id
  stages : ∀ place, caller ≠ some place →
    next.calls[place]?.map Call.stage = world.calls[place]?.map Call.stage

theorem Continues.refl (world : RpcWorld) (caller : Option Nat) : Continues world caller world :=
  ⟨rfl, rfl, fun _ _ => rfl⟩

/-- A call that moves on keeps its id. -/
theorem map_id_set (hcall : world.calls[number]? = some call) (after : Call)
    (hid : after.id = call.id) :
    (world.calls.set number after).map Call.id = world.calls.map Call.id := by
  obtain ⟨hbound, hfound⟩ := List.getElem?_eq_some_iff.mp hcall
  have hplace : number < (world.calls.map Call.id).length := by rwa [List.length_map]
  have hsame : (world.calls.map Call.id)[number] = after.id := by
    rw [List.getElem_map, hfound, hid]
  rw [List.map_set, ← hsame, List.set_getElem_self]

/-- A call that takes a step leaves the others where they are. -/
theorem continues_set (hcall : world.calls[number]? = some call) (after : Call)
    (hid : after.id = call.id) (node : Node) (waiters : AList fun _ : UInt16 => Nat)
    (withdrawn : List (Nat × Nat)) :
    Continues world (some number)
      { world with
        node := node
        pending := { world.pending with waiters := waiters }
        calls := world.calls.set number after
        withdrawn := withdrawn } where
  counter := rfl
  ids := map_id_set hcall after hid
  stages := by
    intro place hplace
    have hne : number ≠ place := fun heq => hplace (heq ▸ rfl)
    exact congrArg _ (List.getElem?_set_ne hne)

theorem continues_wake (number : Nat) : Continues world (some number) (world.wake number) := by
  apply wake_induct (Continues.refl world _)
  exact fun call result hcall _ => continues_set hcall (call.return result) rfl _ _ _

theorem continues_expire (number : Nat) :
    Continues world (some number) (world.expire number) := by
  apply expire_induct (Continues.refl world _)
  exact fun call hcall _ => continues_set hcall { call with stage := .expired } rfl _ _ _

theorem continues_arrive (answer : Answer) : Continues world none (world.arrive answer) := by
  apply arrive_induct (Continues.refl world _)
  exact fun _ _ => ⟨rfl, rfl, fun _ _ => rfl⟩

theorem continues_hand (index : Nat) : Continues world none (world.hand index) := by
  apply hand_induct (Continues.refl world _) (fun _ _ => ⟨rfl, rfl, fun _ _ => rfl⟩)
  intro number answer call _ hcall _
  refine ⟨rfl, map_id_set hcall _ rfl, ?_⟩
  intro place _
  by_cases hplace : number = place
  · subst hplace
    rw [List.getElem?_set_self (List.getElem?_eq_some_iff.mp hcall).1, hcall]
    rfl
  · exact congrArg _ (List.getElem?_set_ne hplace)

variable (primitives encode world) in
/-- Every step but the first of a call. -/
theorem continues_step (event : RpcEvent)
    (hbegin : ∀ peerId method data, event ≠ .begin peerId method data) :
    Continues world event.caller (world.step primitives encode event) := by
  cases event with
  | begin peerId method data => exact absurd rfl (hbegin peerId method data)
  | register number =>
      apply inStage_induct (Continues.refl world (some number))
      exact fun call hcall _ => continues_set hcall { call with stage := .registered } rfl _ _ _
  | send number io =>
      apply inStage_induct (Continues.refl world (some number))
      exact fun call hcall _ => continues_set hcall _ (call.id_sent _) _ _ _
  | wake number => exact continues_wake number
  | expire number => exact continues_expire number
  | cancel number =>
      apply inStage_induct (Continues.refl world (some number))
      exact fun call hcall _ => continues_set hcall (call.return _) rfl _ _ _
  | arrive answer => exact continues_arrive answer
  | hand index => exact continues_hand index
  | elsewhere node => exact ⟨rfl, rfl, fun _ _ => rfl⟩

/-- The calls have taken the ids in turn, from zero on and around. -/
def Numbered (world : RpcWorld) : Prop :=
  world.pending.next = UInt16.ofNat world.calls.length ∧
    world.calls.map Call.id = (List.range world.calls.length).map UInt16.ofNat

variable (primitives encode) in
theorem Numbered.step (numbered : world.Numbered) (event : RpcEvent) :
    (world.step primitives encode event).Numbered := by
  by_cases hbegin : ∃ peerId method data, event = .begin peerId method data
  · obtain ⟨peerId, method, data, rfl⟩ := hbegin
    constructor
    · have hnext : (world.begin peerId method data).pending.next = world.pending.next + 1 := rfl
      have hlength : (world.begin peerId method data).calls.length = world.calls.length + 1 :=
        List.length_append
      rw [RpcWorld.step, hnext, hlength, numbered.1, UInt16.ofNat_add]
      rfl
    · have hcalls : (world.begin peerId method data).calls =
          world.calls ++ [⟨peerId, method, data, world.pending.next, .named, none, none⟩] := rfl
      rw [RpcWorld.step, hcalls, List.map_append, numbered.2, List.length_append,
        List.length_singleton, List.range_succ, List.map_append, List.map_singleton,
        List.map_singleton, numbered.1]
  · have hcontinues := continues_step primitives encode world event
      fun peerId method data heq => hbegin ⟨peerId, method, data, heq⟩
    have hlength := congrArg List.length hcontinues.ids
    rw [List.length_map, List.length_map] at hlength
    rw [Numbered, hcontinues.counter, hcontinues.ids, hlength]
    exact numbered

variable (primitives encode) in
theorem numbered_of_run (node : Node) (events : List RpcEvent) :
    (events.foldl (step primitives encode) (new node)).Numbered := by
  apply List.foldlRecOn events _ (show (new node).Numbered from ⟨rfl, rfl⟩)
  exact fun world numbered event _ => numbered.step primitives encode event

variable (primitives encode) in
/-- The id of a call is its number modulo the number of ids. -/
theorem id_eq_of_run (node : Node) (events : List RpcEvent)
    (hcall : (events.foldl (step primitives encode) (new node)).calls[number]? = some call) :
    call.id = UInt16.ofNat number := by
  have hnumbered := numbered_of_run primitives encode node events
  obtain ⟨hbound, hfound⟩ := List.getElem?_eq_some_iff.mp hcall
  have hid := congrArg (fun ids => ids[number]?) hnumbered.2
  simp only [List.getElem?_map, hcall, List.getElem?_range hbound] at hid
  exact Option.some.inj hid

variable (primitives encode) in
/-- A run in which a call takes no step leaves it at its stage. -/
theorem stage_foldl_of_others {stage : CallStage} {events : List RpcEvent}
    (others : ∀ event ∈ events, event.caller ≠ some number)
    (hstage : world.calls[number]?.map Call.stage = some stage) :
    (events.foldl (step primitives encode) world).calls[number]?.map Call.stage = some stage := by
  induction events generalizing world with
  | nil => exact hstage
  | cons event rest ih =>
      apply ih fun other hmem => others other (List.mem_cons_of_mem _ hmem)
      by_cases hbegin : ∃ peerId method data, event = .begin peerId method data
      · obtain ⟨peerId, method, data, rfl⟩ := hbegin
        obtain ⟨call, hcall, hsome⟩ := Option.map_eq_some_iff.mp hstage
        exact Option.map_eq_some_iff.mpr ⟨call, Entries.getElem?_concat_of_some hcall _, hsome⟩
      · have hcontinues := continues_step primitives encode world event
          fun peerId method data heq => hbegin ⟨peerId, method, data, heq⟩
        rw [hcontinues.stages number (others event List.mem_cons_self), hstage]

/-- Calls that have been made by a step. -/
def begun : RpcEvent → Nat
  | .begin .. => 1
  | _ => 0

variable (primitives encode) in
theorem length_calls_foldl (events : List RpcEvent) :
    (events.foldl (step primitives encode) world).calls.length =
      world.calls.length + (events.map begun).sum := by
  induction events generalizing world with
  | nil => rfl
  | cons event rest ih =>
      rw [List.foldl_cons, ih, List.map_cons, List.sum_cons, ← Nat.add_assoc]
      congr 1
      by_cases hbegin : ∃ peerId method data, event = .begin peerId method data
      · obtain ⟨peerId, method, data, rfl⟩ := hbegin
        exact List.length_append
      · have hcontinues := continues_step primitives encode world event
          fun peerId method data heq => hbegin ⟨peerId, method, data, heq⟩
        have hlength := congrArg List.length hcontinues.ids
        rw [List.length_map, List.length_map] at hlength
        cases event with
        | begin peerId method data => exact absurd ⟨peerId, method, data, rfl⟩ hbegin
        | _ => exact hlength

/-- A node with one connection. -/
def connectedNode : Node :=
  { Node.new "a" false [] with
    connections := AList.insert "b" 0 ∅
    peerStates := AList.insert "b" PeerState.new ∅ }

/-- Every write gets through. -/
def healthyIo : NodeIo := ⟨⟨0, fun _ => .ok ()⟩, ⟨0, fun _ => .ok ()⟩, .ok ()⟩

/-- The first call sends its request and waits. -/
def slowCall : List RpcEvent := [.begin "b" "wait" [], .register 0, .send 0 healthyIo]

/-- Calls after the first, one after the other, each of which times out. -/
def quickCalls : Nat → List RpcEvent
  | 0 => []
  | count + 1 =>
      quickCalls count ++
        [.begin "b" "ping" [], .register (count + 1), .send (count + 1) healthyIo,
          .expire (count + 1), .cancel (count + 1)]

theorem caller_of_mem_quickCalls {count : Nat} {event : RpcEvent}
    (hmem : event ∈ quickCalls count) : event.caller ≠ some 0 := by
  induction count with
  | zero => cases hmem
  | succ count ih =>
      rcases List.mem_append.mp hmem with hold | hnew
      · exact ih hold
      · simp only [List.mem_cons, List.not_mem_nil, or_false] at hnew
        rcases hnew with rfl | rfl | rfl | rfl | rfl <;> simp [RpcEvent.caller]

theorem sum_begun_quickCalls (count : Nat) : ((quickCalls count).map begun).sum = count := by
  induction count with
  | zero => rfl
  | succ count ih => simp [quickCalls, begun, ih]

/-- The steps are taken with a library that writes the data alone. -/
def afterCalls (count : Nat) : RpcWorld :=
  (slowCall ++ quickCalls count).foldl (step .transparent fun request => .ok request.data)
    (new connectedNode)

theorem stage_afterCalls (count : Nat) :
    (afterCalls count).calls[0]?.map Call.stage = some .waiting := by
  have hslow : (slowCall.foldl (step .transparent fun request => .ok request.data)
      (new connectedNode)).calls[0]?.map Call.stage = some .waiting := by decide +kernel
  rw [afterCalls, List.foldl_append]
  exact stage_foldl_of_others _ _ (fun event hmem => caller_of_mem_quickCalls hmem) hslow

theorem next_afterCalls (count : Nat) :
    (afterCalls count).pending.next = UInt16.ofNat (count + 1) := by
  have hlength : (afterCalls count).calls.length = count + 1 := by
    rw [afterCalls, length_calls_foldl, List.map_append, List.sum_append, sum_begun_quickCalls]
    exact (Nat.zero_add _).trans (Nat.add_comm 1 count)
  have hnumbered : (afterCalls count).Numbered := numbered_of_run _ _ _ _
  rw [hnumbered.1, hlength]

theorem foldl_afterCalls (count : Nat) (peerId method : String) (data : Bytes) :
    (slowCall ++ quickCalls count ++ [RpcEvent.begin peerId method data]).foldl
        (step .transparent fun request => .ok request.data) (new connectedNode) =
      (afterCalls count).begin peerId method data := by
  rw [List.foldl_append]
  rfl

/-- While the first call waits, the others use up the ids, and the first id is handed
out again. -/
theorem not_correlates_slowCall :
    ¬ ((slowCall ++ quickCalls 65535 ++ [RpcEvent.begin "b" "ping" []]).foldl
        (step .transparent fun request => .ok request.data) (new connectedNode)).Correlates := by
  intro correlates
  rw [foldl_afterCalls] at correlates
  obtain ⟨call, hcall, hwaiting⟩ := Option.map_eq_some_iff.mp (stage_afterCalls 65535)
  apply correlates.fresh_of_begin hcall (by rw [hwaiting]; decide)
  rw [id_eq_of_run _ _ _ _ hcall, next_afterCalls]
  rfl

end Mlink.Api.RpcWorld
