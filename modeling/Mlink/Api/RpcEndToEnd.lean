/-
# A call returns what its own request came to

Responses are matched by id alone, and ids come round. As long as the caller does not
come round to an id of which something is still under way, every response that comes in
answers the call whose waiter it takes; so a call that returns with an answer returns
what a handler of its peer, registered for its method, made of its own data.
-/

import Mlink.Api.RpcCorrelation
import Mlink.Api.RpcServer

namespace Mlink.Api

open Mlink.Core Mlink.Protocol

/-! ## What a step does to a call -/

namespace RpcWorld

variable {primitives : Primitives} {encode : RpcRequest → Except String Bytes}
  {world : RpcWorld} {number : Nat}

/-- What a step on the caller's side can do to a call. -/
inductive CallMove (world : RpcWorld) (number : Nat) (call : Call) : Call → Prop
  | stays : CallMove world number call call
  | registers (stage : call.stage = .named) :
      CallMove world number call { call with stage := .registered }
  | sends (stage : call.stage = .registered) (result : Result Unit) :
      CallMove world number call (call.sent result)
  | answered (stage : call.stage = .waiting) {answer : Answer} (mail : call.mail = some answer) :
      CallMove world number call (call.return answer.response.outcome)
  | closed (stage : call.stage = .waiting) (mail : call.mail = none) (e : MlinkError) :
      CallMove world number call (call.return (.error e))
  | expires (stage : call.stage = .waiting) (mail : call.mail = none) :
      CallMove world number call { call with stage := .expired }
  | cancels (stage : call.stage = .expired) :
      CallMove world number call (call.return (.error .timeout))
  | handed {answer : Answer} (inHand : (number, answer) ∈ world.inHand)
      (listens : call.stage = .registered ∨ call.stage = .waiting) :
      CallMove world number call { call with mail := some answer }

/-- What a step that begins no call does: each call makes a move, no waiter is added but
that of a call that registers, and nothing is in hand but what was or what comes in. -/
structure Moves (world : RpcWorld) (event : RpcEvent) (next : RpcWorld) : Prop where
  calls : ∀ (number : Nat) (call : Call), world.calls[number]? = some call →
    ∃ after, next.calls[number]? = some after ∧ world.CallMove number call after
  length : next.calls.length = world.calls.length
  waiters : ∀ id waiter, next.pending.waiters.lookup id = some waiter →
    world.pending.waiters.lookup id = some waiter ∨
      ∃ call, world.calls[waiter]? = some call ∧ call.id = id ∧ call.stage = .named
  inHand : ∀ pair ∈ next.inHand, pair ∈ world.inHand ∨ event = .arrive pair.2

/-- A call that is replaced by what a move makes of it. -/
theorem calls_set {call after : Call} (hcall : world.calls[number]? = some call)
    (move : world.CallMove number call after) :
    ∀ (place : Nat) (found : Call), world.calls[place]? = some found →
      ∃ next, (world.calls.set number after)[place]? = some next ∧
        world.CallMove place found next := by
  intro place found hfound
  by_cases hplace : number = place
  · subst hplace
    cases hcall.symm.trans hfound
    exact ⟨after, List.getElem?_set_self (List.getElem?_eq_some_iff.mp hcall).1, move⟩
  · exact ⟨found, (List.getElem?_set_ne hplace).trans hfound, .stays⟩

theorem Moves.refl (world : RpcWorld) (event : RpcEvent) : Moves world event world where
  calls := fun _ call hcall => ⟨call, hcall, .stays⟩
  length := rfl
  waiters := fun _ _ hwaiter => .inl hwaiter
  inHand := fun _ hpair => .inl hpair

/-- One call moves, and the waiters and what is in hand do not grow. -/
theorem Moves.of_set {call after : Call} (event : RpcEvent)
    (hcall : world.calls[number]? = some call) (move : world.CallMove number call after)
    (node : Node) {waiters : AList fun _ : UInt16 => Nat}
    (fewer : ∀ id waiter, waiters.lookup id = some waiter →
      world.pending.waiters.lookup id = some waiter)
    (withdrawn : List (Nat × Nat)) {inHand : List (Nat × Answer)}
    (less : ∀ pair ∈ inHand, pair ∈ world.inHand) :
    Moves world event
      { node := node
        pending := { world.pending with waiters := waiters }
        calls := world.calls.set number after
        inHand := inHand
        withdrawn := withdrawn } where
  calls := calls_set hcall move
  length := List.length_set
  waiters := fun id waiter hwaiter => .inl (fewer id waiter hwaiter)
  inHand := fun pair hpair => .inl (less pair hpair)

/-- What is found in a table from which an id was taken was there before. -/
theorem lookup_of_lookup_remove {pending : PendingRequests} {taken id : UInt16} {waiter : Nat}
    (hwaiter : (pending.remove taken).2.waiters.lookup id = some waiter) :
    pending.waiters.lookup id = some waiter := by
  by_cases hid : id = taken
  · rw [PendingRequests.remove, hid, AList.lookup_erase] at hwaiter
    cases hwaiter
  · rwa [PendingRequests.remove, AList.lookup_erase_ne hid] at hwaiter

variable (primitives encode world) in
/-- Every step that begins no call moves calls, and nothing else. -/
theorem moves_step (event : RpcEvent)
    (hbegin : ∀ peerId method data, event ≠ .begin peerId method data) :
    Moves world event (world.step primitives encode event) := by
  cases event with
  | begin peerId method data => exact absurd rfl (hbegin peerId method data)
  | register number =>
      apply inStage_induct (Moves.refl world _)
      intro call hcall hstage
      refine ⟨calls_set hcall (.registers hstage), List.length_set, ?_, fun _ => .inl⟩
      intro id waiter hwaiter
      by_cases hid : id = call.id
      · rw [PendingRequests.register, hid, AList.lookup_insert] at hwaiter
        cases hwaiter
        exact .inr ⟨call, hcall, hid.symm, hstage⟩
      · rw [PendingRequests.register, AList.lookup_insert_ne hid] at hwaiter
        exact .inl hwaiter
  | send number io =>
      apply inStage_induct (Moves.refl world _)
      exact fun call hcall hstage =>
        .of_set _ hcall (.sends hstage _) _ (fun _ _ => id) _ fun _ => id
  | wake number =>
      apply inStage_induct (Moves.refl world _)
      intro call hcall hstage
      cases hmail : call.mail with
      | some answer =>
          exact .of_set _ hcall (.answered hstage hmail) _ (fun _ _ => id) _ fun _ => id
      | none =>
          dsimp only
          split_ifs
          · exact .refl world _
          · exact .of_set _ hcall (.closed hstage hmail _) _ (fun _ _ => id) _ fun _ => id
  | expire number =>
      apply inStage_induct (Moves.refl world _)
      intro call hcall hstage
      split_ifs with hidle
      · rw [Bool.and_eq_true, Option.isNone_iff_eq_none] at hidle
        exact .of_set _ hcall (.expires hstage hidle.1) _ (fun _ _ => id) _ fun _ => id
      · exact .refl world _
  | cancel number =>
      apply inStage_induct (Moves.refl world _)
      exact fun call hcall hstage =>
        .of_set _ hcall (.cancels hstage) _ (fun _ _ => lookup_of_lookup_remove) _ fun _ => id
  | arrive answer =>
      apply arrive_induct (Moves.refl world _)
      intro waiter _
      refine ⟨fun _ call hcall => ⟨call, hcall, .stays⟩, rfl,
        fun _ _ hwaiter => .inl (lookup_of_lookup_remove hwaiter), ?_⟩
      intro pair hpair
      rcases List.mem_append.mp hpair with hold | hnew
      · exact .inl hold
      · rw [List.mem_singleton.mp hnew]
        exact .inr rfl
  | hand index =>
      apply hand_induct (Moves.refl world _)
      · intro pair _
        exact ⟨fun _ call hcall => ⟨call, hcall, .stays⟩, rfl,
          fun _ _ hwaiter => .inl hwaiter,
          fun pair hpair => .inl (List.mem_of_mem_eraseIdx hpair)⟩
      · intro number answer call hpair hcall hlistens
        exact .of_set _ hcall (.handed (List.mem_of_getElem? hpair) hlistens) _ (fun _ _ => id) _
          fun _ => List.mem_of_mem_eraseIdx
  | elsewhere node =>
      exact ⟨fun _ call hcall => ⟨call, hcall, .stays⟩, rfl, fun _ _ hwaiter => .inl hwaiter,
        fun _ => .inl⟩

namespace CallMove

variable {call after : Call}

/-- A call stays the call it is. -/
theorem same (move : world.CallMove number call after) :
    after.request = call.request ∧ after.peerId = call.peerId := by
  cases move with
  | sends stage result => cases result <;> exact ⟨rfl, rfl⟩
  | _ => exact ⟨rfl, rfl⟩

/-- A call that has its request under way is past sending it. -/
theorem sent (move : world.CallMove number call after)
    (hsent : call.stage ≠ .named ∧ call.stage ≠ .registered) :
    after.stage ≠ .named ∧ after.stage ≠ .registered := by
  cases move with
  | stays => exact hsent
  | registers stage => exact absurd stage hsent.1
  | sends stage result => exact absurd stage hsent.2
  | answered => exact ⟨CallStage.noConfusion, CallStage.noConfusion⟩
  | closed => exact ⟨CallStage.noConfusion, CallStage.noConfusion⟩
  | expires => exact ⟨CallStage.noConfusion, CallStage.noConfusion⟩
  | cancels => exact ⟨CallStage.noConfusion, CallStage.noConfusion⟩
  | handed => exact hsent

/-- A call that has returned is done. -/
theorem returned (move : world.CallMove number call after) (hstage : call.stage = .returned) :
    after = call := by
  cases move with
  | stays => rfl
  | registers stage => rw [hstage] at stage; cases stage
  | sends stage => rw [hstage] at stage; cases stage
  | answered stage => rw [hstage] at stage; cases stage
  | closed stage => rw [hstage] at stage; cases stage
  | expires stage => rw [hstage] at stage; cases stage
  | cancels stage => rw [hstage] at stage; cases stage
  | handed _ listens => rcases listens with stage | stage <;> rw [hstage] at stage <;> cases stage

end CallMove

/-- Every call was there before the step, and moved. -/
theorem Moves.before {event : RpcEvent} {next : RpcWorld} (moves : Moves world event next)
    {after : Call} (hafter : next.calls[number]? = some after) :
    ∃ call, world.calls[number]? = some call ∧ world.CallMove number call after := by
  obtain ⟨hbound, _⟩ := List.getElem?_eq_some_iff.mp hafter
  rw [moves.length] at hbound
  have hcall := List.getElem?_eq_getElem hbound
  obtain ⟨found, hfound, move⟩ := moves.calls number _ hcall
  cases hafter.symm.trans hfound
  exact ⟨_, hcall, move⟩

/-- Nothing else goes by the id of the call: no call in progress and no waiter. -/
def HasIdAlone (world : RpcWorld) (number : Nat) : Prop :=
  ∃ call, world.calls[number]? = some call ∧
    (∀ (place : Nat) (other : Call), world.calls[place]? = some other →
      other.stage ≠ .returned → other.id = call.id → place = number) ∧
    ∀ waiter, world.pending.waiters.lookup call.id = some waiter → waiter = number

/-- A call that has its place has its id alone. -/
theorem Orderly.hasIdAlone (orderly : world.Orderly) {call : Call}
    (hcall : world.calls[number]? = some call) (hentered : Entered call) :
    world.HasIdAlone number := by
  refine ⟨call, hcall, ?_, fun waiter => orderly.keeps number waiter call hcall hentered⟩
  intro place other hother hlive hid
  exact orderly.correlates.distinct place number other call hother hcall hlive hentered.2 hid

/-- Moves take no id from a call that has it alone. -/
theorem Moves.hasIdAlone {event : RpcEvent} {next : RpcWorld} (moves : Moves world event next)
    (alone : world.HasIdAlone number) : next.HasIdAlone number := by
  obtain ⟨call, hcall, hothers, hwaiters⟩ := alone
  obtain ⟨after, hafter, move⟩ := moves.calls number call hcall
  have hid : after.id = call.id := congrArg RpcRequest.requestId move.same.1
  refine ⟨after, hafter, ?_, ?_⟩
  · intro place other hother hlive hsame
    obtain ⟨found, hfound, hmove⟩ := moves.before hother
    have hfoundId : other.id = found.id := congrArg RpcRequest.requestId hmove.same.1
    apply hothers place found hfound
    · intro hreturned
      rw [hmove.returned hreturned] at hlive
      exact hlive hreturned
    · rw [← hfoundId, hsame, hid]
  · intro waiter hwaiter
    rw [hid] at hwaiter
    rcases moves.waiters _ _ hwaiter with hold | ⟨found, hfound, hfoundId, hnamed⟩
    · exact hwaiters waiter hold
    · exact hothers waiter found hfound (by rw [hnamed]; exact CallStage.noConfusion) hfoundId

end RpcWorld

/-! ## The system -/

/-- A call whose request has been sent, or could not be, has done so. -/
theorem Call.registered_ne_stage_sent (call : Call) (result : Result Unit) :
    (call.sent result).stage ≠ .registered := by
  cases result <;> exact CallStage.noConfusion

namespace RpcService

variable {primitives : Primitives} {serde : RpcSerde} {service : RpcService} {number : Nat}
  {call : Call}

/-- The call, and that its request has been sent. -/
def Sent (service : RpcService) (number : Nat) (call : Call) : Prop :=
  service.client.calls[number]? = some call ∧ call.stage ≠ .named ∧ call.stage ≠ .registered

/-- A response that says what came of the request of a call. -/
def Genuine (service : RpcService) (number : Nat) (response : RpcResponse) : Prop :=
  ∃ call handled, service.Sent number call ∧ handled ∈ service.handled ∧
    Serves handled.dispatch number call ∧ response = replyTo call.request handled.outcome

/-- What holds between any two steps: what is under way for a call was made from its
request, and its id is its own for as long. -/
structure Faithful (serde : RpcSerde) (service : RpcService) : Prop where
  orderly : service.client.Orderly
  alone : ∀ number, service.Outstanding number → service.client.HasIdAlone number
  requests : ∀ flight ∈ service.requests, ∃ call, service.Sent flight.call call ∧
    flight.peerId = call.peerId ∧ serde.request.toVec call.request = .ok flight.payload
  running : ∀ dispatch ∈ service.running,
    (∃ call, service.Sent dispatch.call call ∧ Serves dispatch dispatch.call call) ∧
      ∃ handler, dispatch.handler = some handler ∧
        (dispatch.peerId, dispatch.request.method, handler) ∈ service.installed
  handled : ∀ handled ∈ service.handled, service.Looked handled
  responses : ∀ flight ∈ service.responses, ∃ response,
    service.Genuine flight.call response ∧ encodeResponse serde response = .ok flight.payload
  inHand : ∀ pair ∈ service.client.inHand, service.Genuine pair.1 pair.2.response
  mail : ∀ number call answer, service.client.calls[number]? = some call →
    call.mail = some answer → service.Genuine number answer.response
  settled : ∀ number call, service.client.calls[number]? = some call →
    (call.stage = .expired → call.mail = none) ∧
      ∀ result, call.result = some result →
        call.stage = .returned ∧ service.Answered number call result
  registered : ∀ peerId method handler,
    (service.registry peerId).handlers.lookup method = some handler →
      (peerId, method, handler) ∈ service.installed

theorem faithful_new (node : Node) : (new node).Faithful serde where
  orderly := RpcWorld.orderly_new node
  alone := by
    rintro number (⟨_, hmem, _⟩ | ⟨_, hmem, _⟩ | ⟨_, hmem, _⟩) <;> cases hmem
  requests := fun _ hmem => by cases hmem
  running := fun _ hmem => by cases hmem
  handled := fun _ hmem => by cases hmem
  responses := fun _ hmem => by cases hmem
  inHand := fun _ hmem => by cases hmem
  mail := fun _ _ _ hcall => by cases hcall
  settled := fun _ _ hcall => by cases hcall
  registered := fun _ _ _ hhandler => by cases hhandler

/-! ## The caller's side -/

section Client

variable {event : RpcEvent} {next : RpcWorld} {emitted : List RpcFlight}

/-- A call whose request was sent is still that call. -/
theorem Sent.moves (sent : service.Sent number call)
    (moves : RpcWorld.Moves service.client event next) :
    ∃ after, Sent { service with client := next, requests := service.requests ++ emitted }
      number after ∧ after.request = call.request ∧ after.peerId = call.peerId := by
  obtain ⟨after, hafter, move⟩ := moves.calls number call sent.1
  exact ⟨after, ⟨hafter, move.sent sent.2⟩, move.same⟩

theorem Serves.of_same {dispatch : Dispatch} {after : Call} (serves : Serves dispatch number call)
    (same : after.request = call.request ∧ after.peerId = call.peerId) :
    Serves dispatch number after :=
  ⟨serves.number, serves.peerId.trans same.2.symm, serves.request.trans same.1.symm⟩

theorem Genuine.moves {response : RpcResponse} (genuine : service.Genuine number response)
    (moves : RpcWorld.Moves service.client event next) :
    Genuine { service with client := next, requests := service.requests ++ emitted } number
      response := by
  obtain ⟨call, handled, hsent, hhandled, hserves, hresponse⟩ := genuine
  obtain ⟨after, hafter, hsame⟩ := hsent.moves moves
  refine ⟨after, handled, hafter, hhandled, hserves.of_same hsame, ?_⟩
  rw [hsame.1]
  exact hresponse

/-- A call that has its answer is told what came of its request. -/
theorem Faithful.answered (faithful : service.Faithful serde)
    (hcall : service.client.calls[number]? = some call) {response : RpcResponse}
    (genuine : service.Genuine number response) {after : Call}
    (same : after.request = call.request ∧ after.peerId = call.peerId) :
    service.Answered number after response.outcome := by
  obtain ⟨found, handled, hsent, hhandled, hserves, rfl⟩ := genuine
  cases hcall.symm.trans hsent.1
  refine .inl ⟨handled, hhandled, hserves.of_same same, faithful.handled handled hhandled, ?_⟩
  rw [outcome_replyTo]

/-- A call that has not sent its request has nothing in its channel. -/
theorem Faithful.mail_of_registered (faithful : service.Faithful serde)
    (hcall : service.client.calls[number]? = some call) (hstage : call.stage = .registered) :
    call.mail = none := by
  cases hmail : call.mail with
  | none => rfl
  | some answer =>
      obtain ⟨found, _, hsent, _⟩ := faithful.mail number call answer hcall hmail
      cases hcall.symm.trans hsent.1
      exact absurd hstage hsent.2.2

/-- However a call moves: if it has returned then with what came of its request, or with an
error of its own. -/
theorem Faithful.settled_move (faithful : service.Faithful serde)
    (hcall : service.client.calls[number]? = some call) {after : Call}
    (move : service.client.CallMove number call after) :
    (after.stage = .expired → after.mail = none) ∧
      ∀ result, after.result = some result →
        after.stage = .returned ∧ service.Answered number after result := by
  obtain ⟨hexpired, hresult⟩ := faithful.settled number call hcall
  have hunfinished : call.stage ≠ .returned → ∀ result, call.result ≠ some result :=
    fun hlive result hsome => hlive (hresult result hsome).1
  cases move with
  | stays => exact ⟨hexpired, hresult⟩
  | registers stage =>
      refine ⟨CallStage.noConfusion, fun result hsome => ?_⟩
      exact absurd hsome (hunfinished (by rw [stage]; exact CallStage.noConfusion) result)
  | sends stage sent =>
      have hmail := faithful.mail_of_registered hcall stage
      cases sent with
      | ok done =>
          refine ⟨CallStage.noConfusion, fun result hsome => ?_⟩
          exact absurd hsome (hunfinished (by rw [stage]; exact CallStage.noConfusion) result)
      | error e =>
          refine ⟨CallStage.noConfusion, fun result hsome => ?_⟩
          cases hsome
          exact ⟨rfl, .inr ⟨hmail, e, rfl⟩⟩
  | answered stage mail =>
      refine ⟨CallStage.noConfusion, fun result hsome => ?_⟩
      cases hsome
      exact ⟨rfl, faithful.answered hcall (faithful.mail _ _ _ hcall mail) ⟨rfl, rfl⟩⟩
  | closed stage mail e =>
      refine ⟨CallStage.noConfusion, fun result hsome => ?_⟩
      cases hsome
      exact ⟨rfl, .inr ⟨mail, e, rfl⟩⟩
  | expires stage mail =>
      refine ⟨fun _ => mail, fun result hsome => ?_⟩
      exact absurd hsome (hunfinished (by rw [stage]; exact CallStage.noConfusion) result)
  | cancels stage =>
      refine ⟨CallStage.noConfusion, fun result hsome => ?_⟩
      cases hsome
      exact ⟨rfl, .inr ⟨hexpired stage, .timeout, rfl⟩⟩
  | handed inHand listens =>
      have hlive : call.stage ≠ .returned ∧ call.stage ≠ .expired := by
        rcases listens with hstage | hstage <;> rw [hstage] <;>
          exact ⟨CallStage.noConfusion, CallStage.noConfusion⟩
      exact ⟨fun hstage => absurd hstage hlive.2,
        fun result hsome => absurd hsome (hunfinished hlive.1 result)⟩

/-- A step on the caller's side that begins no call: what was under way stays true to its
call, and so is what is put on its way now. -/
theorem Faithful.moves (faithful : service.Faithful serde) (orderly : next.Orderly)
    (moves : RpcWorld.Moves service.client event next)
    (arrives : ∀ pair ∈ next.inHand, event = .arrive pair.2 →
      service.Genuine pair.1 pair.2.response)
    (sends : ∀ flight ∈ emitted, ∃ call after, service.client.calls[flight.call]? = some call ∧
      call.stage = .registered ∧ flight.peerId = call.peerId ∧
      serde.request.toVec call.request = .ok flight.payload ∧
      next.calls[flight.call]? = some after ∧ after.stage ≠ .named ∧ after.stage ≠ .registered) :
    Faithful serde { service with client := next, requests := service.requests ++ emitted } where
  orderly := orderly
  alone := by
    intro number houtstanding
    apply moves.hasIdAlone
    rcases houtstanding with ⟨flight, hflight, hcall⟩ | hrunning | hresponses
    · rcases List.mem_append.mp hflight with hold | hnew
      · exact faithful.alone number (.inl ⟨flight, hold, hcall⟩)
      · obtain ⟨call, _, hfound, hstage, _⟩ := sends flight hnew
        rw [hcall] at hfound
        apply faithful.orderly.hasIdAlone hfound
        rw [RpcWorld.Entered, hstage]
        exact ⟨CallStage.noConfusion, CallStage.noConfusion⟩
    · exact faithful.alone number (.inr (.inl hrunning))
    · exact faithful.alone number (.inr (.inr hresponses))
  requests := by
    intro flight hflight
    rcases List.mem_append.mp hflight with hold | hnew
    · obtain ⟨call, hsent, hpeer, hpayload⟩ := faithful.requests flight hold
      obtain ⟨after, hafter, hrequest, hpeerId⟩ := hsent.moves moves
      exact ⟨after, hafter, hpeer.trans hpeerId.symm, by rw [hrequest]; exact hpayload⟩
    · obtain ⟨call, after, hcall, _, hpeer, hpayload, hafter, hstages⟩ := sends flight hnew
      obtain ⟨found, hfound, move⟩ := moves.calls _ _ hcall
      cases hafter.symm.trans hfound
      refine ⟨after, ⟨hafter, hstages⟩, hpeer.trans move.same.2.symm, ?_⟩
      rw [move.same.1]
      exact hpayload
  running := by
    intro dispatch hdispatch
    obtain ⟨⟨call, hsent, hserves⟩, hinstalled⟩ := faithful.running dispatch hdispatch
    obtain ⟨after, hafter, hsame⟩ := hsent.moves moves
    exact ⟨⟨after, hafter, hserves.of_same hsame⟩, hinstalled⟩
  handled := faithful.handled
  responses := by
    intro flight hflight
    obtain ⟨response, hgenuine, hpayload⟩ := faithful.responses flight hflight
    exact ⟨response, hgenuine.moves moves, hpayload⟩
  inHand := by
    intro pair hpair
    rcases moves.inHand pair hpair with hold | hnew
    · exact (faithful.inHand pair hold).moves moves
    · exact (arrives pair hpair hnew).moves moves
  mail := by
    intro number after answer hafter hmail
    obtain ⟨call, hcall, move⟩ := moves.before hafter
    have hkept : call.mail = some answer → Genuine
        { service with client := next, requests := service.requests ++ emitted } number
        answer.response :=
      fun hold => (faithful.mail number call answer hcall hold).moves moves
    cases move with
    | sends stage result =>
        rw [call.mail_sent] at hmail
        exact hkept hmail
    | handed inHand listens =>
        cases hmail
        exact (faithful.inHand _ inHand).moves moves
    | _ => exact hkept hmail
  settled := by
    intro number after hafter
    obtain ⟨call, hcall, move⟩ := moves.before hafter
    exact faithful.settled_move hcall move
  registered := faithful.registered

end Client

/-- A call begins under an id that nothing under way goes by. -/
theorem Faithful.begin (faithful : service.Faithful serde) (peerId method : String) (data : Bytes)
    (fresh : ∀ (number : Nat) (call : Call), service.client.calls[number]? = some call →
      call.id = service.client.pending.next →
      call.stage = .returned ∧ ¬ service.Outstanding number) :
    Faithful serde { service with client := service.client.begin peerId method data } := by
  have hkept : ∀ {number : Nat} {call : Call}, service.client.calls[number]? = some call →
      (service.client.begin peerId method data).calls[number]? = some call :=
    fun hcall => Entries.getElem?_concat_of_some hcall _
  have hgenuine : ∀ {number : Nat} {response : RpcResponse}, service.Genuine number response →
      Genuine { service with client := service.client.begin peerId method data } number
        response := by
    rintro number response ⟨call, handled, hsent, hrest⟩
    exact ⟨call, handled, ⟨hkept hsent.1, hsent.2⟩, hrest⟩
  refine
    { orderly := ?_, alone := ?_, requests := ?_, running := ?_, handled := faithful.handled,
      responses := ?_, inHand := ?_, mail := ?_, settled := ?_,
      registered := faithful.registered }
  · apply faithful.orderly.begin
    exact fun number call hcall hlive hid => hlive (fresh number call hcall hid).1
  · intro number houtstanding
    obtain ⟨call, hcall, hothers, hwaiters⟩ := faithful.alone number houtstanding
    refine ⟨call, hkept hcall, ?_, hwaiters⟩
    intro place other hother hlive hid
    rcases Entries.getElem?_concat_cases hother with hold | ⟨_, rfl⟩
    · exact hothers place other hold hlive hid
    · exact absurd houtstanding (fresh number call hcall hid.symm).2
  · intro flight hflight
    obtain ⟨call, hsent, hrest⟩ := faithful.requests flight hflight
    exact ⟨call, ⟨hkept hsent.1, hsent.2⟩, hrest⟩
  · intro dispatch hdispatch
    obtain ⟨⟨call, hsent, hserves⟩, hinstalled⟩ := faithful.running dispatch hdispatch
    exact ⟨⟨call, ⟨hkept hsent.1, hsent.2⟩, hserves⟩, hinstalled⟩
  · intro flight hflight
    obtain ⟨response, hresponse, hpayload⟩ := faithful.responses flight hflight
    exact ⟨response, hgenuine hresponse, hpayload⟩
  · exact fun pair hpair => hgenuine (faithful.inHand pair hpair)
  · intro number call answer hcall hmail
    rcases Entries.getElem?_concat_cases hcall with hold | ⟨_, rfl⟩
    · exact hgenuine (faithful.mail number call answer hold hmail)
    · cases hmail
  · intro number call hcall
    rcases Entries.getElem?_concat_cases hcall with hold | ⟨_, rfl⟩
    · exact faithful.settled number call hold
    · exact ⟨CallStage.noConfusion, fun _ hsome => by cases hsome⟩

theorem Faithful.clientStep (faithful : service.Faithful serde) (event : RpcEvent)
    (unhurried : service.Unhurried (.client event)) :
    (service.clientStep primitives serde event).Faithful serde := by
  by_cases hbegin : ∃ peerId method data, event = .begin peerId method data
  · obtain ⟨peerId, method, data, rfl⟩ := hbegin
    have hbegun := faithful.begin peerId method data unhurried
    have hrequests : service.requests ++ service.emitted serde (.begin peerId method data) =
        service.requests := List.append_nil _
    rw [RpcService.clientStep, hrequests]
    exact hbegun
  · have hmoves := RpcWorld.moves_step primitives serde.request.toVec service.client event
      fun peerId method data heq => hbegin ⟨peerId, method, data, heq⟩
    have horderly : (service.client.step primitives serde.request.toVec event).Orderly := by
      apply faithful.orderly.step
      cases event with
      | begin peerId method data => exact absurd ⟨peerId, method, data, rfl⟩ hbegin
      | arrive answer => exact unhurried.elim
      | _ => trivial
    apply faithful.moves horderly hmoves
    · rintro pair _ rfl
      exact unhurried.elim
    · intro flight hflight
      cases event with
      | send number io =>
          rw [emitted] at hflight
          cases hcall : service.client.calls[number]? with
          | none =>
              rw [hcall] at hflight
              cases hflight
          | some call =>
              simp only [hcall] at hflight
              split_ifs at hflight with hstage
              · cases hpayload : serde.request.toVec call.request with
                | error e =>
                    rw [hpayload] at hflight
                    cases hflight
                | ok payload =>
                    rw [hpayload] at hflight
                    rw [List.mem_singleton.mp hflight]
                    have hbound := (List.getElem?_eq_some_iff.mp hcall).1
                    let sent := RpcWorld.sendRequest primitives serde.request.toVec
                      service.client.node call io
                    refine ⟨call, call.sent sent.result, hcall, hstage, rfl, hpayload, ?_,
                      call.stage_sent _, call.registered_ne_stage_sent _⟩
                    simp only [RpcWorld.step, RpcWorld.send, RpcWorld.inStage, hcall, hstage,
                      if_true]
                    exact List.getElem?_set_self hbound
              · cases hflight
      | _ => cases hflight

/-! ## The network and the peers -/

/-- Losing messages and ending dispatches keeps what is left true. -/
theorem Faithful.fewer (faithful : service.Faithful serde) {requests responses : List RpcFlight}
    {running : List Dispatch} (hrequests : requests ⊆ service.requests)
    (hrunning : running ⊆ service.running) (hresponses : responses ⊆ service.responses) :
    Faithful serde { service with
      requests := requests, running := running, responses := responses } :=
  { faithful with
    alone := by
      rintro number (⟨flight, hflight, hcall⟩ | ⟨dispatch, hdispatch, hcall⟩ |
        ⟨flight, hflight, hcall⟩)
      · exact faithful.alone number (.inl ⟨flight, hrequests hflight, hcall⟩)
      · exact faithful.alone number (.inr (.inl ⟨dispatch, hrunning hdispatch, hcall⟩))
      · exact faithful.alone number (.inr (.inr ⟨flight, hresponses hflight, hcall⟩))
    requests := fun flight hflight => faithful.requests flight (hrequests hflight)
    running := fun dispatch hdispatch => faithful.running dispatch (hrunning hdispatch)
    responses := fun flight hflight => faithful.responses flight (hresponses hflight) }

/-- More handlers, and more dispatches that have ended, take nothing away. -/
theorem Genuine.mono {number : Nat} {response : RpcResponse}
    (genuine : service.Genuine number response) {later : RpcService}
    (hclient : later.client = service.client) (hhandled : service.handled ⊆ later.handled) :
    later.Genuine number response := by
  obtain ⟨call, handled, hsent, hmem, hrest⟩ := genuine
  refine ⟨call, handled, ?_, hhandled hmem, hrest⟩
  rwa [Sent, hclient]

theorem Looked.mono {handled : Handled} (looked : service.Looked handled) {later : RpcService}
    (hinstalled : service.installed ⊆ later.installed) : later.Looked handled := by
  rw [Looked] at looked ⊢
  cases hhandler : handled.dispatch.handler with
  | none => rwa [hhandler] at looked
  | some handler =>
      rw [hhandler] at looked
      exact hinstalled looked

theorem Answered.mono {result : Result Bytes} (answered : service.Answered number call result)
    {later : RpcService} (hhandled : service.handled ⊆ later.handled)
    (hinstalled : service.installed ⊆ later.installed) : later.Answered number call result := by
  rcases answered with ⟨handled, hmem, hserves, hlooked, hresult⟩ | hown
  · exact .inl ⟨handled, hhandled hmem, hserves, hlooked.mono hinstalled, hresult⟩
  · exact .inr hown

/-- A dispatch of a call's request ends with what its method came to. -/
theorem Faithful.finished (faithful : service.Faithful serde) {dispatch : Dispatch}
    {outcome : Result Bytes}
    (alone : service.client.HasIdAlone dispatch.call)
    (serves : ∃ call, service.Sent dispatch.call call ∧ Serves dispatch dispatch.call call)
    (looked : service.Looked ⟨dispatch, outcome⟩) :
    (service.finished serde dispatch outcome).Faithful serde := by
  have hhandled : service.handled ⊆ (service.finished serde dispatch outcome).handled :=
    List.subset_append_left _ _
  have hresponses : ∀ flight ∈ (service.finished serde dispatch outcome).responses,
      flight ∈ service.responses ∨ flight.call = dispatch.call ∧
        encodeResponse serde (replyTo dispatch.request outcome) = .ok flight.payload := by
    intro flight hflight
    rw [RpcService.finished] at hflight
    cases hpayload : encodeResponse serde (replyTo dispatch.request outcome) with
    | error e =>
        rw [hpayload] at hflight
        exact .inl hflight
    | ok payload =>
        rw [hpayload] at hflight
        rcases List.mem_append.mp hflight with hold | hnew
        · exact .inl hold
        · rw [List.mem_singleton.mp hnew]
          exact .inr ⟨rfl, rfl⟩
  refine
    { orderly := faithful.orderly, alone := ?_, requests := faithful.requests,
      running := faithful.running, handled := ?_, responses := ?_, inHand := ?_, mail := ?_,
      settled := ?_, registered := faithful.registered }
  · rintro number (hrequests | hrunning | ⟨flight, hflight, rfl⟩)
    · exact faithful.alone number (.inl hrequests)
    · exact faithful.alone number (.inr (.inl hrunning))
    · rcases hresponses flight hflight with hold | ⟨hcall, _⟩
      · exact faithful.alone _ (.inr (.inr ⟨flight, hold, rfl⟩))
      · rw [hcall]
        exact alone
  · intro handled hmem
    rcases List.mem_append.mp hmem with hold | hnew
    · exact faithful.handled handled hold
    · rw [List.mem_singleton.mp hnew]
      exact looked
  · intro flight hflight
    rcases hresponses flight hflight with hold | ⟨hcall, hpayload⟩
    · obtain ⟨response, hgenuine, hencoded⟩ := faithful.responses flight hold
      exact ⟨response, hgenuine.mono rfl hhandled, hencoded⟩
    · obtain ⟨call, hsent, hserves⟩ := serves
      refine ⟨_, ?_, hpayload⟩
      rw [hcall]
      refine ⟨call, ⟨dispatch, outcome⟩, hsent, ?_, hserves, by rw [hserves.request]⟩
      exact List.mem_append_right _ (List.mem_singleton_self _)
  · exact fun pair hpair => (faithful.inHand pair hpair).mono rfl hhandled
  · exact fun number call answer hcall hmail =>
      (faithful.mail number call answer hcall hmail).mono rfl hhandled
  · intro number call hcall
    obtain ⟨hexpired, hresult⟩ := faithful.settled number call hcall
    refine ⟨hexpired, fun result hsome => ?_⟩
    obtain ⟨hstage, hanswered⟩ := hresult result hsome
    exact ⟨hstage, hanswered.mono hhandled (List.Subset.refl _)⟩

theorem Faithful.accept (lawful : serde.Lawful) (faithful : service.Faithful serde)
    (index : Nat) : (service.accept serde index).Faithful serde := by
  rw [RpcService.accept]
  cases hflight : service.requests[index]? with
  | none => exact faithful
  | some flight =>
      have hmem := List.mem_of_getElem? hflight
      obtain ⟨call, hsent, hpeer, hpayload⟩ := faithful.requests flight hmem
      have halone := faithful.alone flight.call (.inl ⟨flight, hmem, rfl⟩)
      simp only [decodeRequest_of_toVec lawful hpayload, RpcRegistry.handlerFor]
      cases hhandler : (service.registry flight.peerId).handlers.lookup call.request.method with
      | none => exact faithful.finished halone ⟨call, hsent, rfl, hpeer, rfl⟩ rfl
      | some handler =>
          have hinstalled := faithful.registered _ _ _ hhandler
          refine { faithful with alone := ?_, running := ?_ }
          · rintro number (hrequests | ⟨dispatch, hdispatch, rfl⟩ | hresponses)
            · exact faithful.alone number (.inl hrequests)
            · rcases List.mem_append.mp hdispatch with hold | hnew
              · exact faithful.alone _ (.inr (.inl ⟨dispatch, hold, rfl⟩))
              · rw [List.mem_singleton.mp hnew]
                exact halone
            · exact faithful.alone number (.inr (.inr hresponses))
          · intro dispatch hdispatch
            rcases List.mem_append.mp hdispatch with hold | hnew
            · exact faithful.running dispatch hold
            · rw [List.mem_singleton.mp hnew]
              exact ⟨⟨call, hsent, rfl, hpeer, rfl⟩, handler, rfl, hinstalled⟩

theorem Faithful.finish (faithful : service.Faithful serde) (index : Nat)
    (outcome : Result Bytes) : (service.finish serde index outcome).Faithful serde := by
  rw [RpcService.finish]
  cases hdispatch : service.running[index]? with
  | none => exact faithful
  | some dispatch =>
      have hmem := List.mem_of_getElem? hdispatch
      obtain ⟨hserves, handler, hhandler, hinstalled⟩ := faithful.running dispatch hmem
      have halone := faithful.alone dispatch.call (.inr (.inl ⟨dispatch, hmem, rfl⟩))
      have hfewer := faithful.fewer (List.Subset.refl _)
        (fun _ hleft => List.mem_of_mem_eraseIdx hleft : service.running.eraseIdx index ⊆ _)
        (List.Subset.refl _)
      apply hfewer.finished halone hserves
      rw [Looked, hhandler]
      exact hinstalled

/-- A response that comes in answers the call whose waiter it takes. -/
theorem Faithful.reply (lawful : serde.Lawful) (faithful : service.Faithful serde)
    (index : Nat) : (service.reply serde index).Faithful serde := by
  rw [RpcService.reply]
  cases hflight : service.responses[index]? with
  | none => exact faithful
  | some flight =>
      have hmem := List.mem_of_getElem? hflight
      obtain ⟨response, hgenuine, hencoded⟩ := faithful.responses flight hmem
      obtain ⟨call, hcall, _, hwaiters⟩ :=
        faithful.alone flight.call (.inr (.inr ⟨flight, hmem, rfl⟩))
      simp only [decodeResponse_of_encode lawful hencoded]
      have horderly : (service.client.arrive ⟨response, some flight.call⟩).Orderly := by
        apply faithful.orderly.arrive
        intro waiter hwaiter
        obtain ⟨found, handled, hsent, _, _, rfl⟩ := hgenuine
        cases hcall.symm.trans hsent.1
        rw [hwaiters waiter hwaiter]
      have hmoves := RpcWorld.moves_step (.transparent) serde.request.toVec service.client
        (.arrive ⟨response, some flight.call⟩) (fun _ _ _ => RpcEvent.noConfusion)
      rw [← List.append_nil service.requests]
      apply faithful.moves horderly hmoves
      · intro pair hpair hevent
        have htaken := horderly.correlates.taken pair hpair
        rw [RpcEvent.arrive.injEq] at hevent
        rw [← hevent] at htaken ⊢
        rw [← Option.some.inj htaken]
        exact hgenuine
      · intro flight hflight
        cases hflight

/-- Registering and unregistering handlers leaves what was looked up before as it is. -/
theorem Faithful.changeRegistry (faithful : service.Faithful serde) (peerId : String)
    (registry : RpcRegistry) {installed : List (String × String × Nat)}
    (grows : service.installed ⊆ installed)
    (registered : ∀ method handler, registry.handlers.lookup method = some handler →
      (peerId, method, handler) ∈ installed) :
    Faithful serde { service with
      registry := Function.update service.registry peerId registry, installed := installed } :=
  { faithful with
    running := by
      intro dispatch hdispatch
      obtain ⟨hserves, handler, hhandler, hinstalled⟩ := faithful.running dispatch hdispatch
      exact ⟨hserves, handler, hhandler, grows hinstalled⟩
    handled := fun handled hmem => (faithful.handled handled hmem).mono grows
    settled := by
      intro number call hcall
      obtain ⟨hexpired, hresult⟩ := faithful.settled number call hcall
      refine ⟨hexpired, fun result hsome => ?_⟩
      obtain ⟨hstage, hanswered⟩ := hresult result hsome
      exact ⟨hstage, hanswered.mono (List.Subset.refl _) grows⟩
    registered := by
      intro other method handler hhandler
      dsimp only at hhandler
      by_cases hpeer : other = peerId
      · subst hpeer
        rw [Function.update_self] at hhandler
        exact registered method handler hhandler
      · rw [Function.update_of_ne hpeer] at hhandler
        exact grows (faithful.registered other method handler hhandler) }

theorem Faithful.register (faithful : service.Faithful serde) (peerId method : String)
    (handler : Nat) : (service.register peerId method handler).Faithful serde := by
  apply faithful.changeRegistry peerId _ (List.subset_append_left _ _)
  intro other found hfound
  by_cases hmethod : other = method
  · rw [RpcRegistry.register, hmethod, AList.lookup_insert] at hfound
    cases hfound
    rw [hmethod]
    exact List.mem_append_right _ (List.mem_singleton_self _)
  · rw [RpcRegistry.register, AList.lookup_insert_ne hmethod] at hfound
    exact List.mem_append_left _ (faithful.registered peerId other found hfound)

theorem Faithful.unregister (faithful : service.Faithful serde) (peerId method : String) :
    (service.unregister peerId method).Faithful serde := by
  apply faithful.changeRegistry peerId _ (List.Subset.refl _)
  intro other found hfound
  by_cases hmethod : other = method
  · rw [RpcRegistry.unregister, hmethod, AList.lookup_erase] at hfound
    cases hfound
  · rw [RpcRegistry.unregister, AList.lookup_erase_ne hmethod] at hfound
    exact faithful.registered peerId other found hfound

/-! ## Whole runs -/

theorem Faithful.step (lawful : serde.Lawful) (faithful : service.Faithful serde)
    (event : ServiceEvent) (unhurried : service.Unhurried event) :
    (service.step primitives serde event).Faithful serde := by
  cases event with
  | client event => exact faithful.clientStep event unhurried
  | accept index => exact faithful.accept lawful index
  | finish index outcome => exact faithful.finish index outcome
  | reply index => exact faithful.reply lawful index
  | loseRequest index =>
      exact faithful.fewer (fun _ hleft => List.mem_of_mem_eraseIdx hleft)
        (List.Subset.refl _) (List.Subset.refl _)
  | loseResponse index =>
      exact faithful.fewer (List.Subset.refl _) (List.Subset.refl _)
        fun _ hleft => List.mem_of_mem_eraseIdx hleft
  | register peerId method handler => exact faithful.register peerId method handler
  | unregister peerId method => exact faithful.unregister peerId method

/-- Whatever the network does to the messages, in whichever order handlers come and go and
return, and however often ids come round: as long as the caller hands out no id of which
something is under way, a call that returns has what a handler of its own peer for its own
method made of its own data, or that there is none, or an error without an answer. -/
theorem answered_of_reachable (lawful : serde.Lawful) {node : Node}
    (reached : ((system primitives serde node).restrict Unhurried).Reachable service)
    (hcall : service.client.calls[number]? = some call) {result : Result Bytes}
    (returned : call.result = some result) : service.Answered number call result := by
  have faithful : service.Faithful serde := by
    apply reached.invariant fun service => service.Faithful serde
    · rintro _ rfl
      exact faithful_new node
    · rintro source event _ _ hsource ⟨rfl, hguard⟩
      exact hsource.step lawful event hguard
  exact ((faithful.settled number call hcall).2 result returned).2

/-- One more step of an unhurried caller. -/
theorem reachable_step {node : Node}
    (reached : ((system primitives serde node).restrict Unhurried).Reachable service)
    (event : ServiceEvent) (unhurried : service.Unhurried event) :
    ((system primitives serde node).restrict Unhurried).Reachable
      (service.step primitives serde event) :=
  reached.step ⟨rfl, unhurried⟩

/-- The library on one request and its response: arrays of three, short numbers, a short
text. -/
def shortSerde : RpcSerde where
  request :=
    { toVec := fun request =>
        if request = ⟨0, "echo", [104]⟩ then .ok [0x93, 0, 0xa4, 101, 99, 104, 111, 0x91, 104]
        else .error "invalid value"
      fromSlice := fun bytes =>
        if bytes = [0x93, 0, 0xa4, 101, 99, 104, 111, 0x91, 104] then .ok ⟨0, "echo", [104]⟩
        else .error "invalid type" }
  response :=
    { toVec := fun response =>
        if response = ⟨0, 0, [104]⟩ then .ok [0x93, 0, 0, 0x91, 104] else .error "invalid value"
      fromSlice := fun bytes =>
        if bytes = [0x93, 0, 0, 0x91, 104] then .ok ⟨0, 0, [104]⟩ else .error "invalid type" }

theorem shortSerde_lawful : shortSerde.Lawful where
  request :=
    { fromSlice_of_toVec := by
        intro value bytes hwritten
        simp only [shortSerde] at hwritten ⊢
        split_ifs at hwritten with hvalue
        cases hwritten
        rw [if_pos rfl, hvalue] }
  response :=
    { fromSlice_of_toVec := by
        intro value bytes hwritten
        simp only [shortSerde] at hwritten ⊢
        split_ifs at hwritten with hvalue
        cases hwritten
        rw [if_pos rfl, hvalue] }

/-- A call that its peer echoes. -/
def echoed : List ServiceEvent :=
  [.register "b" "echo" 7, .client (.begin "b" "echo" [104]), .client (.register 0),
    .client (.send 0 RpcWorld.healthyIo), .accept 0, .finish 0 (.ok [104]), .reply 0,
    .client (.hand 0), .client (.wake 0)]

theorem answered_of_reachable_echoed :
    (echoed.foldl (step .transparent shortSerde) (new RpcWorld.connectedNode)).Answered 0
      ⟨"b", "echo", [104], 0, .returned, some ⟨⟨0, 0, [104]⟩, some 0⟩, some (.ok [104])⟩
      (.ok [104]) := by
  have hfresh : (step .transparent shortSerde (new RpcWorld.connectedNode)
      (.register "b" "echo" 7)).Unhurried (.client (.begin "b" "echo" [104])) :=
    fun _ _ hcall => by cases hcall
  have hregistered := reachable_step
    (reachable_step
      (reachable_step (.init rfl : ((system .transparent shortSerde
        RpcWorld.connectedNode).restrict Unhurried).Reachable _) (.register "b" "echo" 7) trivial)
      (.client (.begin "b" "echo" [104])) hfresh)
    (.client (.register 0)) trivial
  have hreplied := reachable_step
    (reachable_step
      (reachable_step
        (reachable_step hregistered (.client (.send 0 RpcWorld.healthyIo)) trivial)
        (.accept 0) trivial)
      (.finish 0 (.ok [104])) trivial)
    (.reply 0) trivial
  have hwoken := reachable_step (reachable_step hreplied (.client (.hand 0)) trivial)
    (.client (.wake 0)) trivial
  exact answered_of_reachable shortSerde_lawful hwoken rfl rfl

end RpcService

end Mlink.Api
