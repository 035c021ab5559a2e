/-
# Answering remote calls

A node that answers calls keeps a registry from method names to handlers. For each
request that comes in it looks the method up, lets the handler run for as long as it
takes, and sends back what came of it: the handler's data, or a status and a text. A
request that cannot be read is dropped without a reply.

The calling node, the network and the answering nodes make one system. The network may
lose a message, deliver it twice or late, and messages overtake each other. Handlers
are numbered, and a number stands for each call, which travels with the messages that
were made for it and which nothing in the program sees.
-/

import Mlink.Api.Rpc
import Mlink.Protocol.Codec

namespace Mlink.Api

open Mlink.Core Mlink.Protocol

def RPC_STATUS_ERROR : UInt8 := 1

/-- The bytes of a text. -/
def utf8Bytes (text : String) : Bytes := text.toUTF8.data.toList

/-- A text is read back from its bytes. -/
theorem fromUTF8?_utf8Bytes (text : String) :
    String.fromUTF8? ⟨(utf8Bytes text).toArray⟩ = some text := by
  have hbytes : (⟨(utf8Bytes text).toArray⟩ : ByteArray) = text.toByteArray := by
    rw [utf8Bytes, Array.toArray_toList, String.toUTF8_eq_toByteArray]
  rw [hbytes]
  exact dif_pos text.isValidUTF8

/-! ## The registry -/

structure RpcRegistry where
  handlers : AList fun _ : String => Nat

namespace RpcRegistry

def new : RpcRegistry := ⟨∅⟩

variable (registry : RpcRegistry) (method : String)

/-- A later handler takes the place of an earlier one. -/
def register (handler : Nat) : RpcRegistry := ⟨registry.handlers.insert method handler⟩

def unregister : Bool × RpcRegistry :=
  ((registry.handlers.lookup method).isSome, ⟨registry.handlers.erase method⟩)

def has : Bool := (registry.handlers.lookup method).isSome

/-- The handler that `handle_request` goes on to run. -/
def handlerFor : Result Nat :=
  match registry.handlers.lookup method with
  | none => .error (.unknownMethod method)
  | some handler => .ok handler

end RpcRegistry

/-! ## Messages -/

/-- How requests and responses are written and read. -/
structure RpcSerde where
  request : Serde RpcRequest
  response : Serde RpcResponse

structure RpcSerde.Lawful (serde : RpcSerde) : Prop where
  request : serde.request.Lawful
  response : serde.response.Lawful

def decodeRequest (serde : RpcSerde) (bytes : Bytes) : Result RpcRequest :=
  (serde.request.fromSlice bytes).mapError fun e => .codecError s!"decode RpcRequest: {e}"

def encodeResponse (serde : RpcSerde) (response : RpcResponse) : Result Bytes :=
  (serde.response.toVec response).mapError fun e => .codecError s!"encode RpcResponse: {e}"

def decodeResponse (serde : RpcSerde) (bytes : Bytes) : Result RpcResponse :=
  (serde.response.fromSlice bytes).mapError fun e => .codecError s!"decode RpcResponse: {e}"

/-- The status and the data of the reply to a request. -/
def replyStatus : Result Bytes → UInt8 × Bytes
  | .ok out => (RPC_STATUS_OK, out)
  | .error (.unknownMethod method) => (RPC_STATUS_ERROR, utf8Bytes method)
  | .error e => (RPC_STATUS_ERROR, utf8Bytes e.display)

def replyTo (request : RpcRequest) (outcome : Result Bytes) : RpcResponse where
  requestId := request.requestId
  status := (replyStatus outcome).1
  data := (replyStatus outcome).2

/-- What a caller is told of what came of its request. -/
def callerSees : Result Bytes → Result Bytes
  | .ok out => .ok out
  | .error (.unknownMethod method) => .error (.handlerError method)
  | .error e => .error (.handlerError e.display)

/-- The reply says what the caller is to be told, whatever text an error carries. -/
theorem outcome_replyTo (request : RpcRequest) (outcome : Result Bytes) :
    (replyTo request outcome).outcome = callerSees outcome := by
  cases outcome with
  | ok out => rfl
  | error e =>
      have hstatus : RPC_STATUS_ERROR ≠ RPC_STATUS_OK := by decide
      cases e <;>
        simp [RpcResponse.outcome, replyTo, replyStatus, callerSees, hstatus,
          fromUTF8?_utf8Bytes]

theorem decodeRequest_of_toVec {serde : RpcSerde} (lawful : serde.Lawful) {request : RpcRequest}
    {bytes : Bytes} (hwritten : serde.request.toVec request = .ok bytes) :
    decodeRequest serde bytes = .ok request := by
  rw [decodeRequest, lawful.request.fromSlice_of_toVec request bytes hwritten]
  rfl

theorem decodeResponse_of_encode {serde : RpcSerde} (lawful : serde.Lawful)
    {response : RpcResponse} {bytes : Bytes}
    (hencode : encodeResponse serde response = .ok bytes) :
    decodeResponse serde bytes = .ok response := by
  rw [encodeResponse] at hencode
  cases hwritten : serde.response.toVec response with
  | error e =>
      rw [hwritten] at hencode
      cases hencode
  | ok written =>
      rw [hwritten] at hencode
      cases hencode
      rw [decodeResponse, lawful.response.fromSlice_of_toVec response bytes hwritten]
      rfl

/-! ## The system -/

/-- A message on its way, between the caller and this peer. -/
structure RpcFlight where
  call : Nat
  peerId : String
  payload : Bytes
  deriving DecidableEq, Repr

/-- A request that a node has taken in, and the handler that it was given to, if there is
one for its method. -/
structure Dispatch where
  call : Nat
  peerId : String
  request : RpcRequest
  handler : Option Nat
  deriving DecidableEq, Repr

/-- A dispatch that has come to its end. -/
structure Handled where
  dispatch : Dispatch
  outcome : Result Bytes

/-- The caller's side, what is on its way to the peers and back, the peers' registries,
the handlers that run, all that have run, and all handlers ever registered. -/
structure RpcService where
  client : RpcWorld
  requests : List RpcFlight
  registry : String → RpcRegistry
  running : List Dispatch
  responses : List RpcFlight
  handled : List Handled
  installed : List (String × String × Nat)

inductive ServiceEvent
  /-- A step on the caller's side; responses come in by `reply` alone. -/
  | client (event : RpcEvent)
  /-- A peer takes a request in. -/
  | accept (index : Nat)
  /-- A handler returns. -/
  | finish (index : Nat) (outcome : Result Bytes)
  /-- A response comes in at the caller's side. -/
  | reply (index : Nat)
  | loseRequest (index : Nat)
  | loseResponse (index : Nat)
  | register (peerId method : String) (handler : Nat)
  | unregister (peerId method : String)

/-- The request that a call sends. -/
def Call.request (call : Call) : RpcRequest := ⟨call.id, call.method, call.data⟩

namespace RpcService

variable (primitives : Primitives) (serde : RpcSerde) (service : RpcService)

/-- No calls yet, and no handlers. -/
def new (node : Node) : RpcService := ⟨.new node, [], fun _ => .new, [], [], [], []⟩

/-- What a step of the caller puts on its way: the request of a call that sends. A send
that fails may have put it there all the same. -/
def emitted : RpcEvent → List RpcFlight
  | .send number _ =>
      match service.client.calls[number]? with
      | none => []
      | some call =>
          if call.stage = .registered then
            match serde.request.toVec call.request with
            | .error _ => []
            | .ok payload => [⟨number, call.peerId, payload⟩]
          else []
  | _ => []

def clientStep (event : RpcEvent) : RpcService :=
  { service with
    client := service.client.step primitives serde.request.toVec event
    requests := service.requests ++ service.emitted serde event }

/-- A dispatch ends, and its reply goes out if it can be written. -/
def finished (dispatch : Dispatch) (outcome : Result Bytes) : RpcService :=
  { service with
    handled := service.handled ++ [⟨dispatch, outcome⟩]
    responses :=
      match encodeResponse serde (replyTo dispatch.request outcome) with
      | .error _ => service.responses
      | .ok payload => service.responses ++ [⟨dispatch.call, dispatch.peerId, payload⟩] }

/-- The request is read and its method looked up; without a handler the reply is at hand. -/
def accept (index : Nat) : RpcService :=
  match service.requests[index]? with
  | none => service
  | some flight =>
      match decodeRequest serde flight.payload with
      | .error _ => service
      | .ok request =>
          match (service.registry flight.peerId).handlerFor request.method with
          | .error e =>
              service.finished serde ⟨flight.call, flight.peerId, request, none⟩ (.error e)
          | .ok handler =>
              { service with
                running := service.running ++
                  [⟨flight.call, flight.peerId, request, some handler⟩] }

def finish (index : Nat) (outcome : Result Bytes) : RpcService :=
  match service.running[index]? with
  | none => service
  | some dispatch =>
      finished serde { service with running := service.running.eraseIdx index } dispatch outcome

def reply (index : Nat) : RpcService :=
  match service.responses[index]? with
  | none => service
  | some flight =>
      match decodeResponse serde flight.payload with
      | .error _ => service
      | .ok response =>
          { service with client := service.client.arrive ⟨response, some flight.call⟩ }

def register (peerId method : String) (handler : Nat) : RpcService :=
  { service with
    registry := Function.update service.registry peerId
      ((service.registry peerId).register method handler)
    installed := service.installed ++ [(peerId, method, handler)] }

def unregister (peerId method : String) : RpcService :=
  { service with
    registry := Function.update service.registry peerId
      ((service.registry peerId).unregister method).2 }

def step : ServiceEvent → RpcService
  | .client event => service.clientStep primitives serde event
  | .accept index => service.accept serde index
  | .finish index outcome => service.finish serde index outcome
  | .reply index => service.reply serde index
  | .loseRequest index => { service with requests := service.requests.eraseIdx index }
  | .loseResponse index => { service with responses := service.responses.eraseIdx index }
  | .register peerId method handler => service.register peerId method handler
  | .unregister peerId method => service.unregister peerId method

/-- A message of the call is on its way, or its handler runs. -/
def Outstanding (number : Nat) : Prop :=
  (∃ flight ∈ service.requests, flight.call = number) ∨
    (∃ dispatch ∈ service.running, dispatch.call = number) ∨
    ∃ flight ∈ service.responses, flight.call = number

/-- The steps of a caller that does not come round to an id too soon: it hands out no id
of a call that is in progress or of which something is still under way. -/
def Unhurried : ServiceEvent → Prop
  | .client (.begin ..) => ∀ (number : Nat) (call : Call),
      service.client.calls[number]? = some call → call.id = service.client.pending.next →
      call.stage = .returned ∧ ¬ service.Outstanding number
  | .client (.arrive _) => False
  | _ => True

def system (node : Node) : Transition.System RpcService ServiceEvent where
  init service := service = new node
  step source event target := target = source.step primitives serde event

/-- The dispatch is of this call's request. -/
structure Serves (dispatch : Dispatch) (number : Nat) (call : Call) : Prop where
  number : dispatch.call = number
  peerId : dispatch.peerId = call.peerId
  request : dispatch.request = call.request

/-- What was done with a request: the peer had this handler for its method, or none. -/
def Looked (handled : Handled) : Prop :=
  match handled.dispatch.handler with
  | none => handled.outcome = .error (.unknownMethod handled.dispatch.request.method)
  | some handler =>
      (handled.dispatch.peerId, handled.dispatch.request.method, handler) ∈ service.installed

/-- What a call returns that returned: what came of its own request, at a handler its peer
had for its method; or an error of its own, if it was not answered. -/
def Answered (number : Nat) (call : Call) (result : Result Bytes) : Prop :=
  (∃ handled ∈ service.handled, Serves handled.dispatch number call ∧
      service.Looked handled ∧ result = callerSees handled.outcome) ∨
    call.mail = none ∧ ∃ e, result = .error e

end RpcService

end Mlink.Api
