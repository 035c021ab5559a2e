/-
# What a failed join loses

A join takes the whole backlog of its room out of the queue and then writes one frame
after the other. When the socket fails in between, the session ends, and what it has not
written is nowhere any more: the queue has what arrived meanwhile, and nothing before it.
The run below keeps beside the daemon what the next session to join each room is owed, if
a session that ends were to give back what it has not written.
-/

import Mlink.Daemon.Delivery
import Mlink.Daemon.Dispatch
import Mlink.Daemon.QueueHistory

namespace Mlink.Daemon

variable {Value : Type}

namespace DaemonState

variable (daemon : DaemonState Value)

/-- The call of the queue that a step makes. -/
def queueOp : DaemonOp Value → Option (QueueOp Value)
  | .fan =>
      match daemon.worker with
      | .fanning message (room :: _) => some (.push (entryFor message room))
      | .fanning _ [] | .idle | .listed _ _ => none
  | .proceed index =>
      match (daemon.sessions[index]?).map WsSession.task with
      | some (.joining room) => some (.drain room)
      | some (.freeing room) => some (.removeRoom room)
      | _ => none
  | _ => none

/-- What a session has drained and not written. -/
def unwritten (index : Nat) : List (MessageEntry Value) :=
  (daemon.sessions[index]?).elim [] WsSession.unflushed

variable {daemon} {after : DaemonState Value}

/-- A handler's step makes the calls of the queue that its task says. -/
theorem queue_proceed {index : Nat} {session : WsSession Value}
    (hsession : daemon.sessions[index]? = some session)
    (taken : daemon.proceed index session = some after) :
    after.queue = (daemon.queueOp (.proceed index)).elim daemon.queue daemon.queue.perform := by
  rw [queueOp, hsession, Option.map_some]
  cases htask : session.task with
  | idle => simp [proceed, htask] at taken
  | joining room =>
      simp only [proceed, htask] at taken
      split_ifs at taken
      cases taken
      rfl
  | flushing entries =>
      cases entries with
      | nil =>
          simp only [proceed, htask, Option.some.injEq] at taken
          rw [← taken]
          rfl
      | cons entry rest =>
          simp only [proceed, htask, Option.some.injEq] at taken
          rw [← taken]
          rfl
  | leaving room =>
      simp only [proceed, htask] at taken
      split_ifs at taken
      · cases taken
        rfl
      · cases taken
        rfl
  | retiring room =>
      simp only [proceed, htask, Option.some.injEq] at taken
      rw [← taken]
      rfl
  | freeing room =>
      simp only [proceed, htask] at taken
      split_ifs at taken
      cases taken
      rfl

/-- A step changes the queue by the call that it makes, if it makes one. -/
theorem queue_step {op : DaemonOp Value} (taken : daemon.step op = some after) :
    after.queue = (daemon.queueOp op).elim daemon.queue daemon.queue.perform := by
  cases op with
  | receive sender payload ts order =>
      cases hworker : daemon.worker with
      | idle =>
          simp only [step, receive, hworker] at taken
          split_ifs at taken
          · cases taken
            rfl
          · cases taken
            rfl
      | listed message rooms => simp [step, receive, hworker] at taken
      | fanning message rooms => simp [step, receive, hworker] at taken
  | fan =>
      rw [queueOp]
      cases hworker : daemon.worker with
      | idle => simp [step, fan, hworker] at taken
      | listed message rooms =>
          simp only [step, fan, hworker, Option.some.injEq] at taken
          rw [← taken]
          rfl
      | fanning message rooms =>
          cases rooms with
          | nil =>
              simp only [step, fan, hworker, Option.some.injEq] at taken
              rw [← taken]
              rfl
          | cons room rest =>
              simp only [step, fan, hworker, Option.some.injEq] at taken
              rw [← taken]
              rfl
  | connect =>
      simp only [step] at taken
      split_ifs at taken
      cases taken
      rfl
  | join index room =>
      obtain ⟨session, _, _, rfl⟩ := request_eq_some taken
      rw [join]
      split_ifs
      · rfl
      · rfl
  | leave index room =>
      obtain ⟨session, _, _, rfl⟩ := request_eq_some taken
      rw [leave]
      split_ifs
      · rfl
      · rfl
  | proceed index =>
      obtain ⟨session, hsession, hproceed⟩ := Option.bind_eq_some_iff.mp taken
      exact queue_proceed hsession hproceed
  | routed index =>
      obtain ⟨session, _, hrouted⟩ := Option.bind_eq_some_iff.mp taken
      rw [routed] at hrouted
      split at hrouted
      · cases hrouted
        rfl
      · cases hrouted
  | notify index =>
      simp only [step] at taken
      split_ifs at taken
      obtain ⟨session, _, rfl⟩ := Option.map_eq_some_iff.mp taken
      rfl
  | disconnect index =>
      simp only [step] at taken
      split_ifs at taken
      cases taken
      rfl

/-- A session that joins a room is handed what a drain returns. -/
theorem unwritten_subscribe {index : Nat} {session : WsSession Value}
    (hsession : daemon.sessions[index]? = some session) (room : String) :
    (daemon.subscribe index session room).unwritten index = (daemon.queue.drain room).1 := by
  obtain ⟨hbound, _⟩ := List.getElem?_eq_some_iff.mp hsession
  simp [unwritten, subscribe, setSession, hbound, WsSession.unflushed]

/-- A handler that has written some of what it drained still has the rest, and the queue
is as it was. -/
theorem unwritten_flushing {index : Nat} {session : WsSession Value}
    {entries : List (MessageEntry Value)} (hsession : daemon.sessions[index]? = some session)
    (htask : session.task = .flushing entries) {count : Nat} (hcount : count ≤ entries.length) :
    ∃ later, (List.replicate count (.proceed index)).foldlM step daemon = some later ∧
      later.unwritten index = entries.drop count ∧ later.queue = daemon.queue := by
  induction count generalizing daemon session entries with
  | zero => exact ⟨daemon, rfl, by simp [unwritten, hsession, WsSession.unflushed, htask], rfl⟩
  | succ count ih =>
      cases entries with
      | nil => cases hcount
      | cons entry rest =>
          obtain ⟨hbound, _⟩ := List.getElem?_eq_some_iff.mp hsession
          have hstep : daemon.step (.proceed index) = some (daemon.setSession index
              { session with task := .flushing rest, sent := session.sent ++ [entry] }) := by
            simp [step, hsession, proceed, htask]
          have hset : (daemon.setSession index { session with
              task := .flushing rest, sent := session.sent ++ [entry] }).sessions[index]? =
                some { session with task := .flushing rest, sent := session.sent ++ [entry] } :=
            List.getElem?_set_self hbound
          obtain ⟨later, hruns, hunwritten, hqueue⟩ :=
            ih hset rfl (Nat.le_of_succ_le_succ hcount)
          refine ⟨later, ?_, hunwritten, hqueue⟩
          rw [List.replicate_succ, List.foldlM_cons, hstep]
          exact hruns

end DaemonState

/-! ## The frames of a join -/

/-- The message in a frame, if it carries one. -/
def WsFrame.message? : WsFrame Value → Option (MessageEntry Value)
  | message entry => some entry
  | ready _ _ _ | reply _ | pong _ | roomState _ _ _ | transportState _ _ _ _ => none

/-- The messages that a handler has not sent when its socket takes no more than the first
frames. -/
def Handled.unsent (handled : Handled Value) (taken : Nat) : List (MessageEntry Value) :=
  (handled.frames.drop taken).filterMap WsFrame.message?

/-- What is not sent of a backlog that stands behind frames of other kinds. -/
theorem filterMap_drop_append {front : List (WsFrame Value)}
    (hfront : ∀ frame ∈ front, frame.message? = none) (entries : List (MessageEntry Value))
    (taken : Nat) :
    ((front ++ entries.map WsFrame.message).drop taken).filterMap WsFrame.message? =
      entries.drop (taken - front.length) := by
  have hnone : (front.drop taken).filterMap WsFrame.message? = [] :=
    List.filterMap_eq_nil_iff.mpr fun frame hframe => hfront frame (List.mem_of_mem_drop hframe)
  rw [List.drop_append, List.filterMap_append, hnone, List.nil_append, ← List.map_drop,
    List.filterMap_map]
  exact List.filterMap_some

/-- The acknowledgement, if there is one, and the state of the room come before the backlog.
Wherever the socket fails, the queue has nothing left of the room. -/
theorem unsent_handleJoin (parsers : Parsers Value) (roomHash : String → Core.RoomHash)
    (state : SharedState Value) (index : Nat) (id : Option String) {payload : Value}
    {room : String} (hroom : parsers.room payload = .ok room)
    (hvalid : validRoomCode room = true) (taken : Nat) :
    let handled := handleJoin parsers roomHash state index id payload
    handled.unsent taken = (state.queue.drain room).1.drop (taken - (id.toList.length + 1)) ∧
      handled.state.queue.bucket room = [] := by
  simp only [handleJoin, hroom, hvalid, Bool.not_true, Bool.false_eq_true, if_false]
  refine ⟨?_, MessageQueue.bucket_drain_self⟩
  have hfront : ∀ state : SharedState Value,
      ∀ frame ∈ sendAckIfId id "join" ++ [sendRoomState state room true],
        frame.message? = none := by
    intro state frame hframe
    rcases List.mem_append.mp hframe with hack | hstate
    · obtain ⟨name, _, rfl⟩ := List.mem_map.mp hack
      rfl
    · rw [List.mem_singleton.mp hstate]
      rfl
  rw [Handled.unsent, List.append_cons, filterMap_drop_append (hfront _)]
  simp [sendAckIfId]

/-! ## What is owed -/

/-- A daemon, and what the next session to join each room is owed. -/
structure Owing (Value : Type) where
  daemon : DaemonState Value
  owed : String → List (MessageEntry Value)

namespace Owing

variable (state : Owing Value)

def start (rooms : Finset String) : Owing Value := ⟨.new rooms, fun _ => []⟩

/-- What is owed follows the calls of the queue, and a session that ends gives back what
it has not written, in front of what has arrived since. -/
def owedAfter : DaemonOp Value → String → List (MessageEntry Value)
  | .disconnect index => fun room =>
      (ofRoom (state.daemon.unwritten index) room ++ state.owed room).rtake MAX_MESSAGES_PER_ROOM
  | op => (state.daemon.queueOp op).elim state.owed (QueueOp.act state.owed)

/-- The state after a step; one that is not due changes nothing. -/
def after (op : DaemonOp Value) : Owing Value :=
  match state.daemon.step op with
  | none => state
  | some daemon => ⟨daemon, state.owedAfter op⟩

/-- Whichever room is joined next, its session is handed what it is owed. -/
def Kept : Prop := ∀ room, (state.daemon.queue.drain room).1 = state.owed room

/-- A session that ends has written all that it drained, or the bucket of the room has
filled up since. -/
def Spares : DaemonOp Value → Prop
  | .disconnect index => state.daemon.locked = false → ∀ room,
      ofRoom (state.daemon.unwritten index) room = [] ∨
        MAX_MESSAGES_PER_ROOM ≤ (state.daemon.queue.bucket room).length
  | _ => True

/-- What is kept, with no bucket beyond its bound. -/
structure Settled : Prop where
  kept : state.daemon.queue.bucket = state.owed
  bounded : ∀ room, (state.daemon.queue.bucket room).length ≤ MAX_MESSAGES_PER_ROOM

variable {state}

theorem Settled.toKept (settled : state.Settled) : state.Kept := by
  intro room
  rw [MessageQueue.drain_fst, settled.kept]

theorem settled_start (rooms : Finset String) : (start rooms : Owing Value).Settled where
  kept := by
    funext room
    simp [start, DaemonState.new, MessageQueue.new, MessageQueue.bucket]
  bounded room := by simp [start, DaemonState.new, MessageQueue.new, MessageQueue.bucket]

/-- A call of the queue leaves no bucket beyond its bound. -/
theorem bounded_perform {queue : MessageQueue Value}
    (bounded : ∀ room, (queue.bucket room).length ≤ MAX_MESSAGES_PER_ROOM) (op : QueueOp Value)
    (room : String) : ((queue.perform op).bucket room).length ≤ MAX_MESSAGES_PER_ROOM := by
  rw [MessageQueue.bucket_perform]
  cases op with
  | push entry =>
      rw [QueueOp.act, Function.update_apply]
      split_ifs
      · exact Recent.length_push_le (by decide) (bounded entry.room) entry
      · exact bounded room
  | drain other =>
      rw [QueueOp.act, Function.update_apply]
      split_ifs
      · exact Nat.zero_le _
      · exact bounded room
  | removeRoom other =>
      rw [QueueOp.act, Function.update_apply]
      split_ifs
      · exact Nat.zero_le _
      · exact bounded room

/-- With the same queue, the same is owed. -/
theorem Settled.of_queue_eq (settled : state.Settled) {daemon : DaemonState Value}
    {owed : String → List (MessageEntry Value)} (hqueue : daemon.queue = state.daemon.queue)
    (howed : state.daemon.queue.bucket = owed) : Settled ⟨daemon, owed⟩ where
  kept := by
    rw [hqueue]
    exact howed
  bounded := by
    rw [hqueue]
    exact settled.bounded

/-- Whatever calls of the queue a step makes, what is owed follows them. -/
theorem Settled.queueOp (settled : state.Settled) {op : DaemonOp Value}
    {daemon : DaemonState Value} (taken : state.daemon.step op = some daemon) :
    Settled ⟨daemon, (state.daemon.queueOp op).elim state.owed (QueueOp.act state.owed)⟩ := by
  have hqueue := DaemonState.queue_step taken
  cases hop : state.daemon.queueOp op with
  | none =>
      rw [hop] at hqueue
      exact settled.of_queue_eq hqueue settled.kept
  | some call =>
      rw [hop] at hqueue
      constructor
      · show daemon.queue.bucket = call.act state.owed
        rw [hqueue, ← settled.kept]
        exact MessageQueue.bucket_perform _ call
      · show ∀ room, (daemon.queue.bucket room).length ≤ MAX_MESSAGES_PER_ROOM
        rw [hqueue]
        exact bounded_perform settled.bounded call

/-- The end of a session leaves the queue as it is. -/
theorem queue_disconnect {index : Nat} {daemon : DaemonState Value}
    (taken : state.daemon.step (.disconnect index) = some daemon) :
    state.daemon.locked = false ∧ daemon.queue = state.daemon.queue := by
  have hqueue := DaemonState.queue_step taken
  rw [DaemonState.step] at taken
  split_ifs at taken with hlocked
  exact ⟨Bool.not_eq_true _ ▸ hlocked, hqueue⟩

/-- What is given back can be seen, unless it is nothing or there is no room for it. -/
theorem Settled.given_iff (settled : state.Settled) (index : Nat) (room : String) :
    state.daemon.queue.bucket room = state.owedAfter (.disconnect index) room ↔
      ofRoom (state.daemon.unwritten index) room = [] ∨
        MAX_MESSAGES_PER_ROOM ≤ (state.daemon.queue.bucket room).length := by
  have hbucket := Recent.rtake_of_length_le (settled.bounded room)
  rw [owedAfter, ← settled.kept, ← Recent.rtake_append_eq_iff, hbucket, eq_comm]

theorem after_of_none {op : DaemonOp Value} (refused : state.daemon.step op = none) :
    state.after op = state := by
  rw [after, refused]

theorem after_of_some {op : DaemonOp Value} {daemon : DaemonState Value}
    (taken : state.daemon.step op = some daemon) :
    state.after op = ⟨daemon, state.owedAfter op⟩ := by
  rw [after, taken]

/-- A step that spares what is owed keeps it. -/
theorem Settled.after (settled : state.Settled) {op : DaemonOp Value} (spares : state.Spares op) :
    (state.after op).Settled := by
  cases hstep : state.daemon.step op with
  | none =>
      rw [after_of_none hstep]
      exact settled
  | some daemon =>
      rw [after_of_some hstep]
      cases op with
      | disconnect index =>
          obtain ⟨hlocked, hqueue⟩ := queue_disconnect hstep
          have hgiven : state.daemon.queue.bucket = state.owedAfter (.disconnect index) :=
            funext fun room => (settled.given_iff index room).mpr (spares hlocked room)
          exact settled.of_queue_eq hqueue hgiven
      | receive _ _ _ _ | fan | connect | join _ _ | leave _ _ | proceed _ | routed _
      | notify _ => exact settled.queueOp hstep

/-- And one that does not loses some of it. -/
theorem Settled.spares (settled : state.Settled) {op : DaemonOp Value}
    (kept : (state.after op).Kept) : state.Spares op := by
  cases op with
  | disconnect index =>
      intro hlocked room
      have hstep : state.daemon.step (.disconnect index) =
          some { state.daemon with sessions := state.daemon.sessions.eraseIdx index } := by
        rw [DaemonState.step, hlocked]
        rfl
      rw [after_of_some hstep] at kept
      have hroom := kept room
      rw [MessageQueue.drain_fst] at hroom
      dsimp only at hroom
      rwa [settled.given_iff] at hroom
  | receive _ _ _ _ | fan | connect | join _ _ | leave _ _ | proceed _ | routed _ | notify _ =>
      trivial

/-- In a run of any length, whoever joins a room next is handed what it is owed, exactly as
long as no session ends with something unwritten that there would still be room for. -/
theorem kept_iff_spared (rooms : Finset String) (ops : List (DaemonOp Value)) :
    (∀ earlier later, ops = earlier ++ later → (earlier.foldl after (start rooms)).Kept) ↔
      ∀ earlier op later, ops = earlier ++ op :: later →
        (earlier.foldl after (start rooms)).Spares op :=
  Transition.forall_foldl_iff_of_invariant (fun _ settled => settled.toKept)
    (fun _ _ settled spares => settled.after spares)
    (fun _ _ settled kept => settled.spares kept) (settled_start rooms) ops

/-! ## A socket that fails at the acknowledgement -/

/-- A message is received while nobody listens; a client joins its room, and its socket
fails before anything is written. -/
def failsAtOnce : List (DaemonOp String) :=
  [.receive "peer" "hi" 0 ["424242"], .fan, .fan, .fan, .connect, .join 0 "424242", .proceed 0,
    .disconnect 0]

/-- The message is lost: the next session to join is owed one, and handed none. -/
theorem not_kept_failsAtOnce :
    let state := failsAtOnce.foldl after (start (insert "424242" ∅))
    (state.owed "424242").length = 1 ∧ (state.daemon.queue.drain "424242").1.length = 0 ∧
      ¬ state.Kept := by
  have howed : ((failsAtOnce.foldl after (start (insert "424242" ∅))).owed "424242").length = 1 := by
    decide +kernel
  have hhanded : ((failsAtOnce.foldl after (start (insert "424242" ∅))).daemon.queue.drain
      "424242").1.length = 0 := by
    decide +kernel
  refine ⟨howed, hhanded, ?_⟩
  intro kept
  rw [kept "424242", howed] at hhanded
  cases hhanded

end Owing

end Mlink.Daemon
