/-
# Remote calls

A call takes the next request id, enters itself in the table of waiters under that
id, sends its request and waits for a response or for its deadline. Ids are sixteen
bits wide and wrap. A response that comes in takes the waiter with its id out of the
table and is then handed to it; a call that times out removes what is in the table
under its id.

Calls, responses and the other tasks of the node take turns in any order. A number
stands for each call, and a response carries the number of the call whose request it
answers, which nothing in the program sees.
-/

import Mlink.Core.Node.Io
import Mlink.Lib.Entries
import Mlink.Lib.Transition

namespace Mlink.Api

open Mlink.Core Mlink.Protocol

def RPC_STATUS_OK : UInt8 := 0

structure RpcRequest where
  requestId : UInt16
  method : String
  data : Bytes
  deriving DecidableEq, Repr

structure RpcResponse where
  requestId : UInt16
  status : UInt8
  data : Bytes
  deriving DecidableEq, Repr

/-- What a call returns for a response; the message of an error may not be text that can be read. -/
def RpcResponse.outcome (response : RpcResponse) : Result Bytes :=
  if response.status = RPC_STATUS_OK then .ok response.data
  else .error (.handlerError ((String.fromUTF8? ⟨response.data.toArray⟩).getD "rpc error"))

/-! ## The table of waiters -/

/-- The next id, and for each id in use the call that waits under it: the call whose
channel the table holds the sending end of. -/
structure PendingRequests where
  next : UInt16
  waiters : AList fun _ : UInt16 => Nat

namespace PendingRequests

def new : PendingRequests := ⟨0, ∅⟩

variable (pending : PendingRequests) (id : UInt16)

/-- The id handed out, and the table once the counter has moved on. -/
def nextId : UInt16 × PendingRequests := (pending.next, { pending with next := pending.next + 1 })

/-- Enter a call; a call that waited under the id loses its place. -/
def register (call : Nat) : PendingRequests :=
  { pending with waiters := pending.waiters.insert id call }

/-- The waiter under an id leaves the table, for a response or at a timeout. -/
def remove : Option Nat × PendingRequests :=
  (pending.waiters.lookup id, { pending with waiters := pending.waiters.erase id })

end PendingRequests

/-! ## Calls -/

/-- A response, and the call whose request it answers, if it answers one. -/
structure Answer where
  response : RpcResponse
  answers : Option Nat
  deriving DecidableEq, Repr

/-- How far a call has come: it has its id, it has its place in the table, its request
is sent, its deadline has passed, it has returned. -/
inductive CallStage
  | named | registered | waiting | expired | returned
  deriving DecidableEq, Repr

/-- A call; what has been put into its channel is its `mail`. -/
structure Call where
  peerId : String
  method : String
  data : Bytes
  id : UInt16
  stage : CallStage
  mail : Option Answer
  result : Option (Result Bytes)

/-- A call goes back to its caller. -/
def Call.return (call : Call) (result : Result Bytes) : Call :=
  { call with stage := .returned, result := some result }

/-- A call whose request has been sent, or could not be. -/
def Call.sent (call : Call) : Result Unit → Call
  | .ok () => { call with stage := .waiting }
  | .error e => call.return (.error e)

/-- The node, the table, the calls by number, the responses on their way to a call that
they have taken out of the table, and for each waiter that a timeout removed, whose
timeout and whose waiter it was. -/
structure RpcWorld where
  node : Node
  pending : PendingRequests
  calls : List Call
  inHand : List (Nat × Answer)
  withdrawn : List (Nat × Nat)

/-- One step: a call takes its next step, a response comes in or is handed over, or
another task leaves the node changed. -/
inductive RpcEvent
  | begin (peerId method : String) (data : Bytes)
  | register (call : Nat)
  | send (call : Nat) (io : NodeIo)
  | wake (call : Nat)
  | expire (call : Nat)
  | cancel (call : Nat)
  | arrive (answer : Answer)
  | hand (index : Nat)
  | elsewhere (node : Node)

/-- The call that takes the step. -/
def RpcEvent.caller : RpcEvent → Option Nat
  | .register call | .send call _ | .wake call | .expire call | .cancel call => some call
  | .begin .. | .arrive _ | .hand _ | .elsewhere _ => none

namespace RpcWorld

/-- A node at the start, without any calls. -/
def new (node : Node) : RpcWorld := ⟨node, .new, [], [], []⟩

variable (primitives : Primitives) (encode : RpcRequest → Except String Bytes) (world : RpcWorld)

/-- Encode a request and send it. -/
def sendRequest (node : Node) (call : Call) (io : NodeIo) : NodeSend :=
  match encode ⟨call.id, call.method, call.data⟩ with
  | .error e => ⟨.error (.codecError s!"encode RpcRequest: {e}"), node, []⟩
  | .ok payload => node.sendRaw primitives call.peerId .request payload io

/-- The sending end of the call's channel still exists. -/
def senderAlive (number : Nat) (call : Call) : Bool :=
  world.pending.waiters.lookup call.id = some number ||
    world.inHand.any fun pair => pair.1 = number

/-- Record how a call has moved on. -/
def setCall (number : Nat) (call : Call) : RpcWorld :=
  { world with calls := world.calls.set number call }

/-- A step that a call takes only from this stage. -/
def inStage (number : Nat) (stage : CallStage) (step : Call → RpcWorld) : RpcWorld :=
  match world.calls[number]? with
  | none => world
  | some call => if call.stage = stage then step call else world

def begin (peerId method : String) (data : Bytes) : RpcWorld :=
  let (id, pending) := world.pending.nextId
  { world with
    pending := pending
    calls := world.calls ++ [⟨peerId, method, data, id, .named, none, none⟩] }

def register (number : Nat) : RpcWorld :=
  world.inStage number .named fun call =>
    { world with
      pending := world.pending.register call.id number
      calls := world.calls.set number { call with stage := .registered } }

/-- A request that cannot be encoded or sent ends the call at once. -/
def send (number : Nat) (io : NodeIo) : RpcWorld :=
  world.inStage number .registered fun call =>
    let sent := sendRequest primitives encode world.node call io
    { world with
      node := sent.node
      calls := world.calls.set number (call.sent sent.result) }

/-- The call looks at its channel: it returns with what is there, or when nothing can
come any more. -/
def wake (number : Nat) : RpcWorld :=
  world.inStage number .waiting fun call =>
    match call.mail with
    | some answer => world.setCall number (call.return answer.response.outcome)
    | none =>
        if world.senderAlive number call then world
        else
          world.setCall number (call.return (.error (.handlerError "response channel closed")))

/-- The deadline passes; the channel is looked at first, and from now on it takes
nothing. -/
def expire (number : Nat) : RpcWorld :=
  world.inStage number .waiting fun call =>
    if call.mail.isNone && world.senderAlive number call then
      world.setCall number { call with stage := .expired }
    else world

/-- The call that timed out removes the waiter under its id, and returns. -/
def cancel (number : Nat) : RpcWorld :=
  world.inStage number .expired fun call =>
    let (removed, pending) := world.pending.remove call.id
    { world with
      pending := pending
      calls := world.calls.set number (call.return (.error .timeout))
      withdrawn := world.withdrawn ++ removed.toList.map fun waiter => (number, waiter) }

/-- A response comes in and takes the waiter under its id. -/
def arrive (answer : Answer) : RpcWorld :=
  match world.pending.remove answer.response.requestId with
  | (none, _) => world
  | (some waiter, pending) =>
      { world with pending := pending, inHand := world.inHand ++ [(waiter, answer)] }

/-- A response is put into the channel of the call whose waiter it took, if that call
still listens. -/
def hand (index : Nat) : RpcWorld :=
  match world.inHand[index]? with
  | none => world
  | some (number, answer) =>
      let world := { world with inHand := world.inHand.eraseIdx index }
      match world.calls[number]? with
      | none => world
      | some call =>
          if call.stage = .registered ∨ call.stage = .waiting then
            world.setCall number { call with mail := some answer }
          else world

def step : RpcEvent → RpcWorld
  | .begin peerId method data => world.begin peerId method data
  | .register call => world.register call
  | .send call io => world.send primitives encode call io
  | .wake call => world.wake call
  | .expire call => world.expire call
  | .cancel call => world.cancel call
  | .arrive answer => world.arrive answer
  | .hand index => world.hand index
  | .elsewhere node => { world with node := node }

/-! ## What a step can do -/

variable {primitives encode world} {number : Nat} {stage : CallStage}

/-- A step of a call keeps something exactly when it does so from the call's stage; from
another stage nothing happens. -/
theorem inStage_iff {motive : RpcWorld → Prop} {step : Call → RpcWorld} {condition : Call → Prop}
    (stays : motive world)
    (steps : ∀ call, world.calls[number]? = some call → call.stage = stage →
      (motive (step call) ↔ condition call)) :
    motive (world.inStage number stage step) ↔
      ∀ call, world.calls[number]? = some call → call.stage = stage → condition call := by
  rw [inStage]
  cases hcall : world.calls[number]? with
  | none => exact iff_of_true stays fun call hnone => by cases hnone
  | some call =>
      dsimp only
      by_cases hstage : call.stage = stage
      · rw [if_pos hstage, steps call hcall hstage]
        exact ⟨fun hcondition found hfound _ => Option.some.inj hfound ▸ hcondition,
          fun hall => hall call rfl hstage⟩
      · rw [if_neg hstage]
        exact iff_of_true stays fun found hfound hfoundStage =>
          absurd (Option.some.inj hfound ▸ hfoundStage) hstage

theorem inStage_induct {motive : RpcWorld → Prop} {step : Call → RpcWorld} (stays : motive world)
    (steps : ∀ call, world.calls[number]? = some call → call.stage = stage → motive (step call)) :
    motive (world.inStage number stage step) := by
  have hiff : motive (world.inStage number stage step) ↔
      ∀ call, world.calls[number]? = some call → call.stage = stage → True :=
    inStage_iff stays fun call hcall hstage => iff_of_true (steps call hcall hstage) trivial
  exact hiff.mpr fun _ _ _ => trivial

/-- A call that wakes up returns, or goes on waiting. -/
theorem wake_induct {motive : RpcWorld → Prop} (stays : motive world)
    (returns : ∀ call result, world.calls[number]? = some call → call.stage = .waiting →
      motive (world.setCall number (call.return result))) : motive (world.wake number) := by
  apply inStage_induct stays
  intro call hcall hstage
  cases call.mail with
  | some answer => exact returns call _ hcall hstage
  | none =>
      dsimp only
      split_ifs
      · exact stays
      · exact returns call _ hcall hstage

theorem expire_induct {motive : RpcWorld → Prop} (stays : motive world)
    (expires : ∀ call, world.calls[number]? = some call → call.stage = .waiting →
      motive (world.setCall number { call with stage := .expired })) :
    motive (world.expire number) := by
  apply inStage_induct stays
  intro call hcall hstage
  split_ifs
  · exact expires call hcall hstage
  · exact stays

/-- A response that comes in takes the waiter under its id, or finds none. -/
theorem arrive_induct {motive : RpcWorld → Prop} {answer : Answer} (stays : motive world)
    (takes : ∀ waiter, world.pending.waiters.lookup answer.response.requestId = some waiter →
      motive { world with
        pending := (world.pending.remove answer.response.requestId).2
        inHand := world.inHand ++ [(waiter, answer)] }) : motive (world.arrive answer) := by
  rw [arrive]
  cases hwaiter : world.pending.waiters.lookup answer.response.requestId with
  | none =>
      simp only [PendingRequests.remove, hwaiter]
      exact stays
  | some waiter =>
      have htaken := takes waiter hwaiter
      simp only [PendingRequests.remove, hwaiter] at htaken ⊢
      exact htaken

/-- A response in hand goes, and the call that it is for has it in its channel if it
still listens. -/
theorem hand_induct {motive : RpcWorld → Prop} {index : Nat} (stays : motive world)
    (goes : ∀ pair, world.inHand[index]? = some pair →
      motive { world with inHand := world.inHand.eraseIdx index })
    (hands : ∀ number answer call, world.inHand[index]? = some (number, answer) →
      world.calls[number]? = some call → call.stage = .registered ∨ call.stage = .waiting →
      motive { world with
        inHand := world.inHand.eraseIdx index
        calls := world.calls.set number { call with mail := some answer } }) :
    motive (world.hand index) := by
  rw [hand]
  cases hpair : world.inHand[index]? with
  | none => exact stays
  | some pair =>
      obtain ⟨number, answer⟩ := pair
      cases hcall : world.calls[number]? with
      | none =>
          simp only [hcall]
          exact goes _ hpair
      | some call =>
          simp only [hcall]
          split_ifs with hlistens
          · exact hands number answer call hpair hcall hlistens
          · exact goes _ hpair

end RpcWorld

namespace Call

variable (call : Call) (result : Result Unit)

@[simp] theorem id_sent : (call.sent result).id = call.id := by cases result <;> rfl

theorem stage_sent : (call.sent result).stage ≠ .named := by
  cases result <;> exact CallStage.noConfusion

@[simp] theorem mail_sent : (call.sent result).mail = call.mail := by cases result <;> rfl

end Call

end Mlink.Api
